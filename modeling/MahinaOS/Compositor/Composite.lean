import MahinaOS.Compositor.Turns
import MahinaOS.Lib.Word

/-!
# Composing the scene

`lgp_surface_manager_composite` paints the mapped surfaces into the display buffer, layer by layer,
and the cursor on top.  It works with raw offsets: the position of a surface is a pair of signed
32-bit values that the window manager chose, its size and stride came from the client, and the sums
of the clipping may wrap.

The painting is modelled with its memory.  A `Canvas` has the bytes of the display buffer and every
access made so far, to the display buffer or to the buffer of a slot; offsets are computed in the
types of the source.

* `Surface.Fits` is what the checks of a request and of a commit leave behind: a mapped buffer has
  room for the surface.  `fits_of_reachable`: every slot fits, in every reachable state.
* `clip_bounds`: whatever the position, what remains after clipping is on the display and on the
  surface, since a sum that wraps is negative and leaves nothing.
* **`composite_in_bounds`**: in every reachable state, composing stays within the display and what
  was committed.
* **`move_iff`**: the check of a new position, whose sums may wrap too.
-/

namespace Compositor

open Word List Int32

/-! ## Memory -/

/-- The buffer to compose into: `dst_width`, `dst_height` and `dst_pitch`. -/
structure Target where
  width : UInt32
  height : UInt32
  pitch : UInt32

/-- The byte belongs to the first `width` pixels of one of the first `height` rows. -/
def Target.Inside (t : Target) (i : Nat) : Prop :=
  ∃ y < t.height.toNat, ∃ k < 4 * t.width.toNat, i = y * t.pitch.toNat + k

/-- An access to memory: an offset and a number of bytes. -/
inductive Access where
  | write (offset size : Nat)
  | read (offset size : Nat)
  | fetch (slot offset size : Nat)
  deriving DecidableEq, Repr

/-- The display buffer, and the accesses so far. -/
structure Canvas where
  bytes : Nat → UInt8
  accesses : List Access := []

namespace Canvas

/-- A `memcpy` into the display buffer. -/
def write (c : Canvas) (offset : Nat) (data : Bytes) : Canvas where
  bytes i := if offset ≤ i ∧ i < offset + data.length then data.getD (i - offset) 0 else c.bytes i
  accesses := c.accesses ++ [.write offset data.length]

/-- A `memcpy` of a pixel out of the display buffer. -/
def readPixel (c : Canvas) (offset : Nat) : UInt32 × Canvas :=
  (readU32Le ((range 4).map fun k => c.bytes (offset + k)) 0,
    { c with accesses := c.accesses ++ [.read offset 4] })

/-- A `memcpy` out of the mapped buffer of a slot. -/
def fetch (c : Canvas) (buffers : Nat → Nat → UInt8) (slot offset size : Nat) : Bytes × Canvas :=
  ((range size).map fun k => buffers slot (offset + k),
    { c with accesses := c.accesses ++ [.fetch slot offset size] })

end Canvas

/-- The offset of a row: `(size_t)y * pitch`. -/
def rowOffset (pitch : UInt32) (y : UInt64) : Nat := (y * pitch.toUInt64).toNat

/-- The offset of a pixel in its row: `(size_t)x * 4`. -/
def pixelOffset (x : UInt64) : Nat := (x * 4).toNat

/-! ## Painting -/

/-- `LGP_LUNA_VOID_XRGB8888`. -/
def voidPixel : UInt32 := 0x000A0A0F

/-- The first loops of `lgp_surface_manager_composite`. -/
def clear (t : Target) (c : Canvas) : Canvas :=
  (range t.height.toNat).foldl (fun c y =>
    (range t.width.toNat).foldl (fun c x =>
      c.write (rowOffset t.pitch (UInt64.ofNat y) + pixelOffset (UInt64.ofNat x))
        (writeU32Le voidPixel)) c) c

/-- A channel of a pixel. -/
def channel (px shift : UInt32) : UInt32 := (px >>> shift) &&& 0xFF

/-- A pixel over another one. -/
def blend (srcPx dPx : UInt32) : UInt32 :=
  let alpha := srcPx >>> 24
  let mix (shift : UInt32) : UInt32 :=
    (channel srcPx shift * alpha + channel dPx shift * (255 - alpha)) / 255
  mix 16 <<< 16 ||| mix 8 <<< 8 ||| mix 0

/-- One pixel of a surface with alpha. -/
def paintPixel (buffers : Nat → Nat → UInt8) (slot src dst : Nat) (c : Canvas) : Canvas :=
  let (data, c) := c.fetch buffers slot src 4
  let srcPx := readU32Le data 0
  let alpha := srcPx >>> 24
  if alpha = 255 then c.write dst (writeU32Le srcPx)
  else if alpha > 0 then
    let (dPx, c) := c.readPixel dst
    c.write dst (writeU32Le (blend srcPx dPx))
  else c

/-- `clip_x_start` and `clip_y_start`. -/
def clipStart (pos : Int32) : Int32 := if pos < 0 then 0 else pos

/-- `clip_x_end` and `clip_y_end`. -/
def clipEnd (pos : Int32) (size limit : UInt32) : Int32 :=
  let stop := pos + size.toInt32
  if stop > limit.toInt32 then limit.toInt32 else stop

/-- One row of a surface. -/
def paintRow (t : Target) (buffers : Nat → Nat → UInt8) (slot : Nat) (s : Surface) (c : Canvas)
    (y : Int32) : Canvas :=
  let srcRow := rowOffset s.stride (sizeT (y - s.y))
  let dstRow := rowOffset t.pitch (sizeT y)
  let xStart := clipStart s.x
  let xEnd := clipEnd s.x s.width t.width
  if s.pixelFormat = pixelFormatArgb8888 then
    (upTo xStart xEnd).foldl (fun c dx =>
      paintPixel buffers slot (srcRow + pixelOffset (sizeT (dx - s.x)))
        (dstRow + pixelOffset (sizeT dx)) c) c
  else if s.pixelFormat = pixelFormatXrgb8888 then
    let (data, c) := c.fetch buffers slot (srcRow + pixelOffset (sizeT (xStart - s.x)))
      (pixelOffset (sizeT (xEnd - xStart)))
    c.write (dstRow + pixelOffset (sizeT xStart)) data
  else c

/-- The rows of a surface that are on the display. -/
def paintSurface (t : Target) (buffers : Nat → Nat → UInt8) (slot : Nat) (s : Surface)
    (c : Canvas) : Canvas :=
  let yStart := clipStart s.y
  let yEnd := clipEnd s.y s.height t.height
  if clipStart s.x ≥ clipEnd s.x s.width t.width ∨ yStart ≥ yEnd then c
  else (upTo yStart yEnd).foldl (paintRow t buffers slot s) c

/-- The surface is painted with the layer. -/
def Surface.isPainted (layer : UInt32) (s : Surface) : Bool :=
  s.inUse && s.layer == layer && s.bufferMap.isSome && s.wmState != WmState.minimized &&
    s.wmState != WmState.hidden

/-- The surfaces of a layer, in the order of their slots. -/
def paintLayer (m : SurfaceManager) (t : Target) (buffers : Nat → Nat → UInt8) (c : Canvas)
    (layer : UInt32) : Canvas :=
  m.slots.zipIdx.foldl (fun c (s, slot) =>
    if s.isPainted layer then paintSurface t buffers slot s c else c) c

def layerOrder : List UInt32 :=
  [Layer.wallpaper, Layer.application, Layer.shell, Layer.overlay, Layer.notification,
    Layer.lunaIsland, Layer.systemModal, Layer.cursor]

def cursorBitmap : List Bytes :=
  [[1, 0, 0, 0, 0, 0, 0, 0],
    [1, 1, 0, 0, 0, 0, 0, 0],
    [1, 2, 1, 0, 0, 0, 0, 0],
    [1, 2, 2, 1, 0, 0, 0, 0],
    [1, 2, 2, 2, 1, 0, 0, 0],
    [1, 2, 2, 2, 2, 1, 0, 0],
    [1, 2, 2, 2, 2, 2, 1, 0],
    [1, 2, 2, 1, 1, 1, 1, 1],
    [1, 2, 1, 1, 0, 0, 0, 0],
    [1, 1, 0, 1, 1, 0, 0, 0],
    [1, 0, 0, 0, 1, 1, 0, 0],
    [0, 0, 0, 0, 0, 1, 1, 0]]

/-- `g_cursor`. -/
structure Cursor where
  x : Int32
  y : Int32

/-- `draw_software_cursor`. -/
def drawSoftwareCursor (cursor : Cursor) (t : Target) (c : Canvas) : Canvas :=
  cursorBitmap.zipIdx.foldl (fun c (bits, y) =>
    let destY := cursor.y + Int32.ofNat y
    if destY < 0 ∨ destY ≥ t.height.toInt32 then c
    else
      bits.zipIdx.foldl (fun c (val, x) =>
        let destX := cursor.x + Int32.ofNat x
        if destX < 0 ∨ destX ≥ t.width.toInt32 then c
        else if val = 0 then c
        else
          c.write (rowOffset t.pitch (sizeT destY) + pixelOffset (sizeT destX))
            (writeU32Le (if val = 1 then 0x00000000 else 0x00FFFFFF))) c) c

/-- `-EINVAL`. -/
def einval : Int := -22

/-- `lgp_surface_manager_composite`: the display buffer and the result. -/
def composite (m : SurfaceManager) (cursor : Cursor) (t : Target) (buffers : Nat → Nat → UInt8)
    (dst : Nat → UInt8) : Canvas × Int :=
  if t.width = 0 ∨ t.height = 0 ∨ t.pitch < t.width * 4 then ({ bytes := dst }, einval)
  else
    (drawSoftwareCursor cursor t
      (layerOrder.foldl (paintLayer m t buffers) (clear t { bytes := dst })), 0)

/-! ## What fits -/

/-- A slot holds nothing, or a surface of bounded size; and a mapped buffer has room for it. -/
structure Surface.Fits (s : Surface) : Prop where
  free : s.inUse = false → s = Surface.released
  width : s.width.toNat ≤ 16384
  height : s.height.toNat ≤ 16384
  buffer : s.bufferMap.isSome = true →
    4 * s.width.toNat ≤ s.stride.toNat ∧ s.stride.toNat * s.height.toNat ≤ s.bufferSize

theorem fits_released : Surface.released.Fits where
  free _ := rfl
  width := by decide
  height := by decide
  buffer h := by cases h

variable {client : Client} {s : Surface} {st : State}

theorem size_of_validate {p : CreatePayload} (hok : surfaceValidateRequest client p = .ok) :
    p.width.toNat ≤ 16384 ∧ p.height.toNat ≤ 16384 := by
  have hin : surfaceIsInDisplay p = true := by
    by_contra hout
    rw [surfaceValidateRequest] at hok
    simp [hout] at hok
  rw [surfaceIsInDisplay] at hin
  split at hin
  · cases hin
  · split at hin
    · cases hin
    · next hsize =>
      rw [not_or, UInt32.not_lt, UInt32.not_lt] at hsize
      exact hsize

/-- A commit that is accepted has room for the surface. -/
theorem fits_attach (h : s.Fits) (huse : s.inUse = true) {p : CommitPayload}
    (hfits : SurfaceManager.commitFits p s = true) (map : Nat) :
    (SurfaceManager.attach p map s).Fits := by
  simp only [SurfaceManager.commitFits, Bool.and_eq_true, beq_iff_eq, decide_eq_true_eq] at hfits
  obtain ⟨⟨⟨⟨⟨⟨hw, hh⟩, -⟩, hstride⟩, -⟩, hsize⟩, -⟩ := hfits
  refine { free := fun hfree => ?_, width := h.width, height := h.height, buffer := fun _ => ?_ }
  · cases huse.symm.trans hfree
  · have hwidth := h.width
    rw [ge_iff_le, UInt32.le_iff_toNat_le, hw] at hstride
    rw [hh] at hsize
    refine ⟨?_, hsize⟩
    change s.width.toNat * 4 % 2 ^ 32 ≤ p.stride.toNat at hstride
    show 4 * s.width.toNat ≤ p.stride.toNat
    omega

theorem SlotStep.fits {s' : Surface} (hstep : SlotStep client s s') (h : s.Fits) : s'.Fits := by
  cases hstep with
  | keep => exact h
  | create id hfree hok =>
    obtain rfl := h.free hfree
    obtain ⟨hw, hh⟩ := size_of_validate hok
    exact
      { free := fun hf => (by cases hf)
        width := hw
        height := hh
        buffer := fun hb => (by cases hb) }
  | destroy => exact fits_released
  | commit map huse howner hfits => exact fits_attach h huse hfits map
  | place _ _ huse | setState _ huse =>
    exact { h with free := fun hf => (by cases huse.symm.trans hf) }

def AllFit (st : State) : Prop := ∀ s ∈ st.surfaceManager.slots, s.Fits

theorem allFit_init : AllFit {} := fun s hs => by
  rw [eq_of_mem_replicate hs]
  exact fits_released

theorem AllFit.kept : Kept AllFit where
  change _ hc h s hs := by
    obtain ⟨t, ht, hstep⟩ := ListUpdate.exists_of_forall₂ hc.slots hs
    exact hstep.fits (h t ht)
  close {st} fd h := by
    rw [closeFd]
    split
    · intro s hs
      obtain ⟨t, ht, rfl⟩ := mem_map.1 hs
      split
      · exact fits_released
      · exact h t ht
    · exact h

theorem AllFit.accept (h : AllFit st) (fd : Nat) (uid : UInt32) (watched : Bool) :
    AllFit (accept st fd uid watched) := by
  rw [Compositor.accept]
  split
  · exact h
  · dsimp only
    split
    · exact h
    · exact h

theorem AllFit.step (h : AllFit st) (mode : Mode) (e : Event) : AllFit (step mode st e) := by
  refine inv_step (fun _ _ _ h => h) ?_ ?_ ?_ h
  · exact fun fd uid watched _ h => h.accept fd uid watched
  · exact fun fd r env h => AllFit.kept.readClient env fd r h
  · exact fun fd h => AllFit.kept.close fd h

/-- The states of the compositor: between two turns of the event loop, and between the messages of
one turn, when a client's bytes have been taken or a message of it has been handled. -/
inductive Reachable (mode : Mode) : State → Prop
  | init : Reachable mode {}
  | turn {st : State} (h : Reachable mode st) (e : Event) : Reachable mode (step mode st e)
  | bytes {st : State} (h : Reachable mode st) {client : Client}
      (hclient : client ∈ st.clients.list) (rxBuf : Bytes) (pendingFds : List Nat) :
      Reachable mode
        (st.modifyClient client.fd fun c => { c with rxBuf := rxBuf, pendingFds := pendingFds })
  | message {st : State} (h : Reachable mode st) {client : Client}
      (hclient : client ∈ st.clients.list) (env : MsgEnv) (msg : Msg) :
      Reachable mode (handleClientMessage mode env st client msg).1

theorem fits_of_reachable {mode : Mode} (h : Reachable mode st) : AllFit st := by
  induction h with
  | init => exact allFit_init
  | turn _ e ih => exact ih.step mode e
  | bytes _ hclient rxBuf pendingFds ih => exact ih
  | message _ hclient env msg ih =>
    exact AllFit.kept.change hclient (effect_handleClientMessage hclient).toChange ih

/-! ## What is safe -/

/-- The access is to the visible part of the display buffer, or within what was committed for the
slot. -/
def Access.InBounds (t : Target) (slots : List Surface) : Access → Prop
  | write offset size => ∀ k < size, t.Inside (offset + k)
  | read offset size => ∀ k < size, t.Inside (offset + k)
  | fetch slot offset size => ∃ s, slots[slot]? = some s ∧ offset + size ≤ s.bufferSize

/-- All accesses are in bounds, and no byte outside has changed. -/
structure Canvas.Safe (t : Target) (slots : List Surface) (dst : Nat → UInt8) (c : Canvas) :
    Prop where
  accesses : ∀ a ∈ c.accesses, a.InBounds t slots
  bytes : ∀ i, ¬t.Inside i → c.bytes i = dst i

section Safe

variable {t : Target} {slots : List Surface} {dst : Nat → UInt8} {c : Canvas}

theorem safe_start : Canvas.Safe t slots dst { bytes := dst } where
  accesses a ha := by cases ha
  bytes _ _ := rfl

theorem Canvas.Safe.accessed (h : c.Safe t slots dst) {a : Access} (ha : a.InBounds t slots) :
    Canvas.Safe t slots dst { c with accesses := c.accesses ++ [a] } where
  accesses b hb := by
    rcases mem_append.1 hb with hb | hb
    · exact h.accesses b hb
    · rw [mem_singleton.1 hb]
      exact ha
  bytes := h.bytes

variable {offset : Nat}

theorem Canvas.Safe.write (h : c.Safe t slots dst) {data : Bytes}
    (hin : ∀ k < data.length, t.Inside (offset + k)) : (c.write offset data).Safe t slots dst where
  accesses := (h.accessed (a := .write offset data.length) hin).accesses
  bytes i hi := by
    rw [Canvas.write]
    dsimp only
    split
    · next hk =>
      refine absurd (hin (i - offset) (by omega)) ?_
      rwa [Nat.add_sub_cancel' hk.1]
    · exact h.bytes i hi

theorem Canvas.Safe.readPixel (h : c.Safe t slots dst) (hin : ∀ k < 4, t.Inside (offset + k)) :
    (c.readPixel offset).2.Safe t slots dst :=
  h.accessed (a := .read offset 4) hin

theorem Canvas.Safe.fetch (h : c.Safe t slots dst) (buffers : Nat → Nat → UInt8) {slot size : Nat}
    {s : Surface} (hs : slots[slot]? = some s) (hsize : offset + size ≤ s.bufferSize) :
    (c.fetch buffers slot offset size).2.Safe t slots dst :=
  h.accessed (a := .fetch slot offset size) ⟨s, hs, hsize⟩

theorem length_writeU32Le (v : UInt32) : (writeU32Le v).length = 4 := rfl

theorem Canvas.Safe.paintPixel (h : c.Safe t slots dst) (buffers : Nat → Nat → UInt8)
    {slot src : Nat} {s : Surface} (hs : slots[slot]? = some s) (hsize : src + 4 ≤ s.bufferSize)
    (hin : ∀ k < 4, t.Inside (offset + k)) :
    (paintPixel buffers slot src offset c).Safe t slots dst := by
  have hfetch := h.fetch buffers hs hsize
  rw [Compositor.paintPixel]
  dsimp only
  split
  · exact hfetch.write hin
  · split
    · exact (hfetch.readPixel hin).write hin
    · exact hfetch

end Safe

/-! ## Offsets -/

theorem rowOffset_eq (pitch : UInt32) {y : UInt64} (hy : y.toNat < 2 ^ 32) :
    rowOffset pitch y = y.toNat * pitch.toNat :=
  toNat_mul_of_lt hy pitch.toNat_lt

theorem pixelOffset_eq {x : UInt64} (hx : x.toNat < 2 ^ 32) : pixelOffset x = x.toNat * 4 :=
  toNat_mul_of_lt hx (by decide)

theorem rowOffset_sizeT (pitch : UInt32) {v : Int32} (h : 0 ≤ v.toInt) :
    rowOffset pitch (sizeT v) = v.toInt.toNat * pitch.toNat := by
  have hlt := v.toInt_lt
  rw [rowOffset_eq, toNat_sizeT h]
  rw [toNat_sizeT h]
  omega

theorem pixelOffset_sizeT {v : Int32} (h : 0 ≤ v.toInt) :
    pixelOffset (sizeT v) = v.toInt.toNat * 4 := by
  have hlt := v.toInt_lt
  rw [pixelOffset_eq, toNat_sizeT h]
  rw [toNat_sizeT h]
  omega

theorem Target.inside_row {t : Target} {y offset size : Nat} (hy : y < t.height.toNat)
    (hsize : offset + size ≤ 4 * t.width.toNat) :
    ∀ k < size, t.Inside (y * t.pitch.toNat + offset + k) := by
  intro k hk
  exact ⟨y, hy, offset + k, by omega, Nat.add_assoc _ _ _⟩

theorem Surface.Fits.room (h : s.Fits) (hmap : s.bufferMap.isSome = true) {y offset size : Nat}
    (hy : y < s.height.toNat) (hsize : offset + size ≤ 4 * s.width.toNat) :
    y * s.stride.toNat + offset + size ≤ s.bufferSize := by
  obtain ⟨hstride, hbuffer⟩ := h.buffer hmap
  calc y * s.stride.toNat + offset + size ≤ y * s.stride.toNat + s.stride.toNat := by omega
    _ = (y + 1) * s.stride.toNat := (Nat.succ_mul _ _).symm
    _ ≤ s.height.toNat * s.stride.toNat := Nat.mul_le_mul_right _ hy
    _ = s.stride.toNat * s.height.toNat := Nat.mul_comm _ _
    _ ≤ s.bufferSize := hbuffer

/-! ## Clipping -/

theorem clipStart_bounds (pos : Int32) :
    0 ≤ (clipStart pos).toInt ∧ pos.toInt ≤ (clipStart pos).toInt := by
  rw [clipStart]
  split
  · next hneg =>
    rw [lt_iff_toInt_lt] at hneg
    exact ⟨le_refl _, le_of_lt hneg⟩
  · next hpos =>
    rw [lt_iff_toInt_lt, not_lt] at hpos
    exact ⟨hpos, le_refl _⟩

theorem clipEnd_bounds (pos : Int32) (size limit : UInt32) :
    (clipEnd pos size limit).toInt ≤ (pos + size.toInt32).toInt ∧
      (clipEnd pos size limit).toInt ≤ limit.toInt32.toInt := by
  rw [clipEnd]
  split
  · next hgt =>
    rw [gt_iff_lt, lt_iff_toInt_lt] at hgt
    exact ⟨le_of_lt hgt, le_refl _⟩
  · next hle =>
    rw [gt_iff_lt, lt_iff_toInt_lt, not_lt] at hle
    exact ⟨le_refl _, hle⟩

/-- What remains of an interval after clipping, if anything does, is on the interval and within the
limit.  Where the end of the interval wraps, it is negative, and nothing remains. -/
theorem clip_bounds {pos : Int32} {size limit : UInt32} (hsize : size.toNat ≤ 16384)
    (h : clipStart pos < clipEnd pos size limit) :
    0 ≤ (clipStart pos).toInt ∧ pos.toInt ≤ (clipStart pos).toInt ∧
      (clipEnd pos size limit).toInt ≤ pos.toInt + size.toNat ∧
      (clipEnd pos size limit).toInt ≤ limit.toNat := by
  have hstart := clipStart_bounds pos
  have hend := clipEnd_bounds pos size limit
  have hlimit := toInt_toInt32_le limit
  have hint : size.toInt32.toInt = size.toNat := toInt_toInt32 (by omega)
  rw [lt_iff_toInt_lt] at h
  refine ⟨hstart.1, hstart.2, ?_, by omega⟩
  rcases toInt_add_cases (a := pos) (b := size.toInt32) (by omega) with hsum | hneg
  · omega
  · omega

theorem toInt_sub_pos {pos v : Int32} {size limit : UInt32} (hsize : size.toNat ≤ 16384)
    (h : clipStart pos < clipEnd pos size limit) (hv : (clipStart pos).toInt ≤ v.toInt)
    (hv' : v.toInt < (clipEnd pos size limit).toInt) :
    (v - pos).toInt = v.toInt - pos.toInt := by
  obtain ⟨-, hpos, hend, -⟩ := clip_bounds hsize h
  exact toInt_sub_of_le (by omega) (by omega)

/-! ## Every step is safe -/

section Paint

variable {t : Target} {m : SurfaceManager} {dst : Nat → UInt8} {c : Canvas}
  {buffers : Nat → Nat → UInt8} {slot : Nat} {s : Surface}

section

variable (h : c.Safe t m.slots dst)

include h

theorem Canvas.Safe.clear : (clear t c).Safe t m.slots dst := by
  refine foldlRecOn _ _ h fun c h y hy => ?_
  refine foldlRecOn _ _ h fun c h x hx => ?_
  have hheight := t.height.toNat_lt
  have hwidth := t.width.toNat_lt
  have hy := mem_range.1 hy
  have hx := mem_range.1 hx
  have hyn : (UInt64.ofNat y).toNat = y := UInt64.toNat_ofNat_of_lt' (by rw [UInt64.size]; omega)
  have hxn : (UInt64.ofNat x).toNat = x := UInt64.toNat_ofNat_of_lt' (by rw [UInt64.size]; omega)
  rw [rowOffset_eq _ (by omega), pixelOffset_eq (by omega), hyn, hxn]
  exact h.write (Target.inside_row hy (by rw [length_writeU32Le]; omega))

theorem Canvas.Safe.paintRow (hs : m.slots[slot]? = some s)
    (hfits : s.Fits) (hmap : s.bufferMap.isSome = true)
    (hx : clipStart s.x < clipEnd s.x s.width t.width)
    (hy : clipStart s.y < clipEnd s.y s.height t.height) {y : Int32}
    (hmem : y ∈ upTo (clipStart s.y) (clipEnd s.y s.height t.height)) :
    (paintRow t buffers slot s c y).Safe t m.slots dst := by
  obtain ⟨hx0, hxpos, hxend, hxlimit⟩ := clip_bounds hfits.width hx
  obtain ⟨hy0, hypos, hyend, hylimit⟩ := clip_bounds hfits.height hy
  obtain ⟨hystart, hystop⟩ := mem_upTo hmem
  have hsrcY : (y - s.y).toInt = y.toInt - s.y.toInt :=
    toInt_sub_pos hfits.height hy hystart hystop
  rw [lt_iff_toInt_lt] at hx hy
  rw [Compositor.paintRow]
  dsimp only
  rw [rowOffset_sizeT _ (by omega : 0 ≤ (y - s.y).toInt),
    rowOffset_sizeT _ (by omega : 0 ≤ y.toInt)]
  split
  · refine foldlRecOn _ _ h fun c h dx hdx => ?_
    obtain ⟨hxstart, hxstop⟩ := mem_upTo hdx
    have hsx : (dx - s.x).toInt = dx.toInt - s.x.toInt :=
      toInt_sub_pos hfits.width (lt_iff_toInt_lt.2 hx) hxstart hxstop
    rw [pixelOffset_sizeT (by omega : 0 ≤ (dx - s.x).toInt),
      pixelOffset_sizeT (by omega : 0 ≤ dx.toInt)]
    refine h.paintPixel buffers hs (hfits.room hmap (by omega) (by omega)) ?_
    exact Target.inside_row (by omega) (by omega)
  · split
    · have hsx : (clipStart s.x - s.x).toInt = (clipStart s.x).toInt - s.x.toInt :=
        toInt_sub_pos hfits.width (lt_iff_toInt_lt.2 hx) (le_refl _) hx
      have hcopy : (clipEnd s.x s.width t.width - clipStart s.x).toInt =
          (clipEnd s.x s.width t.width).toInt - (clipStart s.x).toInt :=
        toInt_sub_of_le (le_of_lt hx) (by have := hfits.width; omega)
      rw [pixelOffset_sizeT (by omega : 0 ≤ (clipStart s.x - s.x).toInt),
        pixelOffset_sizeT (by omega : 0 ≤ (clipEnd s.x s.width t.width - clipStart s.x).toInt),
        pixelOffset_sizeT hx0]
      refine (h.fetch buffers hs (hfits.room hmap (by omega) (by omega))).write ?_
      refine Target.inside_row (by omega) ?_
      rw [Canvas.fetch, length_map, length_range]
      omega
    · exact h

theorem Canvas.Safe.paintSurface (hs : m.slots[slot]? = some s)
    (hfits : s.Fits) (hmap : s.bufferMap.isSome = true) :
    (paintSurface t buffers slot s c).Safe t m.slots dst := by
  rw [Compositor.paintSurface]
  split
  · exact h
  · next hclip =>
    rw [not_or, ge_iff_le, ge_iff_le, Int32.not_le, Int32.not_le] at hclip
    exact foldlRecOn _ _ h fun c h y hy => h.paintRow hs hfits hmap hclip.1 hclip.2 hy

theorem Canvas.Safe.paintLayer (hfits : ∀ s ∈ m.slots, s.Fits)
    (layer : UInt32) : (paintLayer m t buffers c layer).Safe t m.slots dst := by
  refine foldlRecOn _ _ h fun c h p hp => ?_
  obtain ⟨s, slot⟩ := p
  have hs : m.slots[slot]? = some s := mem_zipIdx_iff_getElem?.1 hp
  dsimp only
  split
  · next hpaint =>
    refine h.paintSurface hs (hfits s (mem_of_getElem? hs)) ?_
    simp only [Surface.isPainted, Bool.and_eq_true] at hpaint
    exact hpaint.1.1.2
  · exact h

theorem Canvas.Safe.drawSoftwareCursor (cursor : Cursor) :
    (drawSoftwareCursor cursor t c).Safe t m.slots dst := by
  have hheight := toInt_toInt32_le t.height
  have hwidth := toInt_toInt32_le t.width
  refine foldlRecOn _ _ h fun c h p _ => ?_
  dsimp only
  split
  · exact h
  · next hdestY =>
    refine foldlRecOn _ _ h fun c h q _ => ?_
    split
    · exact h
    · next hdestX =>
      split
      · exact h
      · rw [not_or, ge_iff_le, lt_iff_toInt_lt, le_iff_toInt_le, not_lt, not_le,
          toInt_zero] at hdestX hdestY
        obtain ⟨hx0, hx⟩ := hdestX
        obtain ⟨hy0, hy⟩ := hdestY
        rw [rowOffset_sizeT _ hy0, pixelOffset_sizeT hx0]
        refine h.write (Target.inside_row (by omega) ?_)
        rw [length_writeU32Le]
        omega

end

theorem safe_composite (hfits : ∀ s ∈ m.slots, s.Fits) (cursor : Cursor) (t : Target)
    (buffers : Nat → Nat → UInt8) (dst : Nat → UInt8) :
    (composite m cursor t buffers dst).1.Safe t m.slots dst := by
  rw [composite]
  split
  · exact safe_start
  · refine .drawSoftwareCursor ?_ cursor
    exact foldlRecOn _ _ safe_start.clear fun c h layer _ => h.paintLayer hfits layer

end Paint

/-- **Composing stays in bounds.**  In every reachable state, for every display buffer, cursor and
content of the mapped buffers, only bytes of the visible pixels are written or read back, each
surface is read below the size of its last commit only, and the rest of the display buffer stays as
it was. -/
theorem composite_in_bounds {mode : Mode} {st : State} (h : Reachable mode st) (cursor : Cursor)
    (t : Target) (buffers : Nat → Nat → UInt8) (dst : Nat → UInt8) :
    let c := (composite st.surfaceManager cursor t buffers dst).1
    (∀ a ∈ c.accesses, a.InBounds t st.surfaceManager.slots) ∧
      ∀ i, ¬t.Inside i → c.bytes i = dst i :=
  have hsafe := safe_composite (fits_of_reachable h) cursor t buffers dst
  ⟨hsafe.accesses, hsafe.bytes⟩

/-- A client shows a window of two pixels with alpha. -/
def sampleWindow : State :=
  step ⟨1920, 1080⟩ (step ⟨1920, 1080⟩ {} (.accept 4 1000 true))
    (.read 4 ⟨(greeting 0).encode ++ newWindow.encode ++ (newBuffer 1).encode, [7], false⟩
      fun _ => {})

theorem composite_in_bounds_sample :
    let c := (composite sampleWindow.surfaceManager ⟨5, 5⟩ ⟨2, 1, 8⟩ (fun _ _ => 128) fun _ => 0).1
    [.fetch 0 0 4, .read 0 4, .write 0 4, .fetch 0 4 4, .read 4 4, .write 4 4] <:+: c.accesses ∧
      (∀ a ∈ c.accesses, a.InBounds ⟨2, 1, 8⟩ sampleWindow.surfaceManager.slots) ∧
      ∀ i, ¬Target.Inside ⟨2, 1, 8⟩ i → c.bytes i = 0 := by
  have hreach : Reachable ⟨1920, 1080⟩ sampleWindow := by
    exact .turn (.turn .init _) _
  refine ⟨by decide +kernel, ?_⟩
  exact composite_in_bounds hreach ⟨5, 5⟩ ⟨2, 1, 8⟩ (fun _ _ => 128) fun _ => 0

/-! ## Where a surface may be moved -/

/-- A coordinate that leaves the surface on the display. -/
def OnDisplay (v : Int32) (size : UInt32) (limit : UInt16) : Prop :=
  -(size.toNat : Int) ≤ v.toInt ∧ v.toInt + size.toNat ≤ limit.toNat

/-- The sum in the check wraps. -/
def Wraps (v : Int32) (size : UInt32) : Prop := 2 ^ 31 ≤ v.toInt + size.toNat

theorem inBounds_iff (v : Int32) {size : UInt32} (limit : UInt16) (hsize : size.toNat ≤ 16384) :
    ¬v < -size.toInt32 ∧ ¬v + size.toInt32 > limit.toUInt32.toInt32 ↔
      Wraps v size ∨ OnDisplay v size limit := by
  have hle := v.le_toInt
  have hlt := v.toInt_lt
  have hlimit := limit.toNat_lt
  have hsize' : size.toInt32.toInt = size.toNat := toInt_toInt32 (by omega)
  have hlimit' : limit.toUInt32.toInt32.toInt = limit.toNat :=
    (toInt_toInt32 (by simp; omega)).trans (by simp)
  have hneg : (-size.toInt32).toInt = -size.toNat := by
    rw [toInt_neg, hsize']
    exact Int.bmod_eq_of_le (by omega) (by omega)
  rw [gt_iff_lt, lt_iff_toInt_lt, lt_iff_toInt_lt, hneg, hlimit', toInt_add,
    hsize', Wraps, OnDisplay]
  by_cases hwraps : 2 ^ 31 ≤ v.toInt + size.toNat
  · have hsum : (v.toInt + size.toNat).bmod (2 ^ 32) = v.toInt + size.toNat - 2 ^ 32 := by
      rw [← Int.sub_bmod_right]
      exact Int.bmod_eq_of_le (by omega) (by omega)
    omega
  · have hsum : (v.toInt + size.toNat).bmod (2 ^ 32) = v.toInt + size.toNat :=
      Int.bmod_eq_of_le (by omega) (by omega)
    omega

theorem find_modifySurface {f : Surface → Surface} (hid : ∀ s, (f s).id = s.id)
    (huse : ∀ s, (f s).inUse = s.inUse) (st : State) (surfaceId id : UInt32) :
    (st.modifySurface surfaceId f).surfaceManager.find id =
      if surfaceId = id then (st.surfaceManager.find id).map f else st.surfaceManager.find id := by
  split_ifs with h
  · subst h
    refine ListUpdate.find?_modifyFirst (fun s => ?_) _
    rw [Surface.hasId, Surface.hasId, hid, huse]
  · refine ListUpdate.find?_modifyFirst_of_disjoint (fun s hs => ?_) _
    rw [Surface.hasId, Bool.and_eq_true, beq_iff_eq] at hs
    simp [Surface.hasId, hid, hs.2, h]

/-- The request leaves the surface on the display. -/
def SetPositionPayload.StaysOn (mode : Mode) (p : SetPositionPayload) (s : Surface) : Prop :=
  OnDisplay p.x s.width mode.hdisplay ∧ OnDisplay p.y s.height mode.vdisplay

instance (mode : Mode) (p : SetPositionPayload) (s : Surface) : Decidable (p.StaysOn mode s) :=
  inferInstanceAs (Decidable ((_ ∧ _) ∧ _ ∧ _))

/-- No sum wraps, unless the other coordinate is refused. -/
def SetPositionPayload.NoStrayWrap (mode : Mode) (p : SetPositionPayload) (s : Surface) : Prop :=
  (Wraps p.x s.width → ¬Wraps p.y s.height ∧ ¬OnDisplay p.y s.height mode.vdisplay) ∧
    (Wraps p.y s.height → ¬OnDisplay p.x s.width mode.hdisplay)

theorem outOfBounds_iff {mode : Mode} {p : SetPositionPayload} {s : Surface}
    (hwidth : s.width.toNat ≤ 16384) (hheight : s.height.toNat ≤ 16384) :
    (outOfBounds mode p s = false ↔ p.StaysOn mode s) ↔ p.NoStrayWrap mode s := by
  have hcheck : outOfBounds mode p s = false ↔
      (Wraps p.x s.width ∨ OnDisplay p.x s.width mode.hdisplay) ∧
        (Wraps p.y s.height ∨ OnDisplay p.y s.height mode.vdisplay) := by
    rw [← inBounds_iff p.x mode.hdisplay hwidth, ← inBounds_iff p.y mode.vdisplay hheight,
      outOfBounds]
    simp [and_assoc]
  have hwraps {v : Int32} {size : UInt32} {limit : UInt16} (h : Wraps v size) :
      ¬OnDisplay v size limit := by
    rw [Wraps] at h
    have hlimit := limit.toNat_lt
    rintro ⟨-, hle⟩
    omega
  rw [hcheck, SetPositionPayload.StaysOn, SetPositionPayload.NoStrayWrap]
  by_cases hwx : Wraps p.x s.width <;> by_cases hwy : Wraps p.y s.height <;> simp_all

/-- **A position request** puts the surface where it says if the surface stays on the display, and
leaves it otherwise, unless a sum wraps. -/
theorem move_iff {mode : Mode} {env : MsgEnv} {st : State} {client : Client} {msg : Msg}
    {p : SetPositionPayload} {s : Surface} (hwm : client.hasCap Cap.windowManager = true)
    (hmsg : decodeSetPosition msg = some p) (hfind : st.surfaceManager.find p.surfaceId = some s)
    (hwidth : s.width.toNat ≤ 16384) (hheight : s.height.toNat ≤ 16384) :
    (handleWmSetPosition mode env st client msg).1.surfaceManager.find p.surfaceId =
        some (if p.StaysOn mode s then { s with x := p.x, y := p.y } else s) ↔
      s = { s with x := p.x, y := p.y } ∨ p.NoStrayWrap mode s := by
  have hplace : (handleWmSetPosition mode env st client msg).1.surfaceManager.find p.surfaceId =
      some (if outOfBounds mode p s then s else { s with x := p.x, y := p.y }) := by
    simp only [handleWmSetPosition, hwm, hmsg, hfind, Bool.not_true, Bool.false_eq_true, if_false]
    split
    · exact hfind
    · rw [find_modifySurface (f := fun s => { s with x := p.x, y := p.y }) (fun _ => rfl)
        (fun _ => rfl), if_pos rfl, hfind]
      rfl
  rw [hplace, ← outOfBounds_iff hwidth hheight]
  by_cases hon : p.StaysOn mode s
  · rcases outOfBounds mode p s with - | - <;> simp [hon]
  · rcases outOfBounds mode p s with - | - <;> simp [hon, eq_comm]

/-- The sum for the right edge wraps, and the window is moved off the display. -/
theorem move_wraps :
    let client : Client := { fd := 5, uid := 0, sessionId := 2, capsGranted := Cap.windowManager }
    let msg : Msg := ⟨MsgType.wmSetSurfacePosition, [1, 0, 0, 0] ++ [255, 255, 255, 127] ++
      [0, 0, 0, 0]⟩
    ((handleWmSetPosition ⟨1920, 1080⟩ {} sampleWindow client msg).1.surfaceManager.find 1).map
      Surface.x = some 2147483647 := by
  decide +kernel

theorem move_iff_sample :
    let client : Client := { fd := 5, uid := 0, sessionId := 2, capsGranted := Cap.windowManager }
    let msg : Msg := ⟨MsgType.wmSetSurfacePosition, [1, 0, 0, 0] ++ [5, 0, 0, 0] ++ [9, 0, 0, 0]⟩
    ∃ s, sampleWindow.surfaceManager.find 1 = some s ∧
      (handleWmSetPosition ⟨1920, 1080⟩ {} sampleWindow client msg).1.surfaceManager.find 1 =
        some { s with x := 5, y := 9 } := by
  intro client msg
  have hany : (sampleWindow.surfaceManager.find 1).any fun s => s.width = 2 ∧ s.height = 1 := by
    decide +kernel
  rcases hfind : sampleWindow.surfaceManager.find 1 with - | s
  · simp [hfind] at hany
  obtain ⟨hwidth, hheight⟩ : s.width = 2 ∧ s.height = 1 := by simpa [hfind] using hany
  have hmsg : decodeSetPosition msg = some ⟨1, 5, 9⟩ := by decide
  refine ⟨s, rfl, ((move_iff (by decide) hmsg hfind (by rw [hwidth]; decide)
    (by rw [hheight]; decide)).2 (.inr ?_)).trans (congrArg some (if_pos ?_))⟩
  · simp only [SetPositionPayload.NoStrayWrap, Wraps, OnDisplay, hwidth, hheight]
    decide
  · simp only [SetPositionPayload.StaysOn, OnDisplay, hwidth, hheight]
    decide

end Compositor
