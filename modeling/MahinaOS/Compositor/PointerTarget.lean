import MahinaOS.Compositor.Composite
import MahinaOS.Compositor.Routing

/-!
# The surface under the pointer

A pointer event goes to the application surface under the pointer, and what the user sees there is
the surface that was painted last.  The two are computed by two loops:
`lgp_find_pointer_target` takes, of the surfaces that contain the point, the first slot on the
highest layer; `lgp_surface_manager_composite` paints the slots of a layer in order, so that the
*last* slot is on top, and paints only surfaces with a buffer, and only their opaque pixels.

* `paintOrder` is the order of painting (`composite_eq`), and `paintsAt` says that painting a
  surface writes to a pixel, by the accesses of the painting itself.  `paintsAt_iff` computes it:
  the pixel is on the display and on the surface, and it is not transparent.
* **`painted_iff_layer`**: the surfaces that are painted where they are.
* `painted_eq`: the application surfaces that are painted at a point are those under the pointer
  that are on the application layer and have a buffer with a visible pixel there.
* **`pointer_target_iff`**: when the pointer goes to the surface that is painted last.
* `pointer_goes_below`: two windows that overlap.
-/

namespace Compositor

open Word List Prod Int32

/-! ## The two sides -/

/-- `lgp_find_pointer_target` by slots: the better of two targets. -/
def higherSlot (target : Option (Surface × Nat)) (p : Surface × Nat) : Option (Surface × Nat) :=
  match target with
  | none => some p
  | some q => if p.1.layer > q.1.layer then some p else target

/-- The slots whose surface takes the pointer and contains the point. -/
def underPointer (st : State) (x y : Int32) : List (Surface × Nat) :=
  st.surfaceManager.slots.zipIdx.filter fun p =>
    p.1.takesPointer st.wmSessionId && p.1.contains x y

/-- The slot that the pointer goes to. -/
def pointerSlot (st : State) (x y : Int32) : Option (Surface × Nat) :=
  (underPointer st x y).foldl higherSlot none

/-- The surfaces in the order in which they are painted. -/
def paintOrder (m : SurfaceManager) : List (Surface × Nat) :=
  layerOrder.flatMap fun layer => m.slots.zipIdx.filter fun p => p.1.isPainted layer

def Target.shows (t : Target) (x y : Int32) : Bool :=
  x ≥ 0 && x < t.width.toInt32 && y ≥ 0 && y < t.height.toInt32

/-- `lgp_surface_manager_composite` accepts the display buffer. -/
def Target.accepted (t : Target) : Bool :=
  !decide (t.width = 0 ∨ t.height = 0 ∨ t.pitch < t.width * 4)

/-- The offset of a pixel in the display buffer. -/
def Target.offset (t : Target) (x y : Int32) : Nat :=
  y.toInt.toNat * t.pitch.toNat + x.toInt.toNat * 4

/-- The access writes to the byte. -/
def Access.writesTo (i : Nat) : Access → Bool
  | .write offset size => decide (offset ≤ i) && decide (i < offset + size)
  | .read _ _ | .fetch _ _ _ => false

def paintsAt (t : Target) (buffers : Nat → Nat → UInt8) (x y : Int32) (p : Surface × Nat) : Bool :=
  t.accepted && t.shows x y &&
    (paintSurface t buffers p.2 p.1 { bytes := fun _ => 0 }).accesses.any
      (Access.writesTo (t.offset x y))

/-- The surface is in the application range and is not the window manager's. -/
def Surface.isApplication (wmSessionId : Option UInt32) (s : Surface) : Bool :=
  wmSessionId != some s.ownerSessionId && s.layer ≥ Layer.application && s.layer < Layer.shell

/-- The application surfaces that are painted at the point, in the order of painting. -/
def painted (st : State) (t : Target) (buffers : Nat → Nat → UInt8) (x y : Int32) :
    List (Surface × Nat) :=
  (paintOrder st.surfaceManager).filter fun p =>
    p.1.isApplication st.wmSessionId && paintsAt t buffers x y p

theorem map_higherSlot (target : Option (Surface × Nat)) (p : Surface × Nat) :
    (higherSlot target p).map fst = higher (target.map fst) p.1 := by
  rcases target with - | q
  · rfl
  · simp only [higherSlot, higher, Option.map_some]
    split <;> rfl

/-- The slot has the surface that `lgp_find_pointer_target` returns. -/
theorem map_pointerSlot (st : State) (x y : Int32) :
    (pointerSlot st x y).map fst = findPointerTarget st x y := by
  have hfold (l : List (Surface × Nat)) (target : Option (Surface × Nat)) :
      (l.foldl higherSlot target).map fst =
        (l.map fst).foldl higher (target.map fst) := by
    induction l generalizing target with
    | nil => rfl
    | cons p l ih => rw [foldl_cons, ih, map_higherSlot, map_cons, foldl_cons]
  have hslots : st.surfaceManager.slots = st.surfaceManager.slots.zipIdx.map fst :=
    zipIdx_map_fst .. |>.symm
  rw [pointerSlot, hfold, findPointerTarget]
  conv_rhs => rw [hslots, filter_map]
  rfl

theorem foldl_paintLayer (m : SurfaceManager) (t : Target) (buffers : Nat → Nat → UInt8)
    (c : Canvas) : layerOrder.foldl (paintLayer m t buffers) c =
      (paintOrder m).foldl (fun c p => paintSurface t buffers p.2 p.1 c) c := by
  rw [paintOrder, foldl_flatMap]
  congr 1
  funext c layer
  rw [paintLayer, foldl_filter]

/-- `lgp_surface_manager_composite`, surface by surface. -/
theorem composite_eq (m : SurfaceManager) (cursor : Cursor) (t : Target)
    (buffers : Nat → Nat → UInt8) (dst : Nat → UInt8) :
    composite m cursor t buffers dst =
      if t.accepted then
        (drawSoftwareCursor cursor t ((paintOrder m).foldl
          (fun c p => paintSurface t buffers p.2 p.1 c) (clear t { bytes := dst })), 0)
      else ({ bytes := dst }, einval) := by
  rw [composite, ← foldl_paintLayer, Target.accepted]
  by_cases hrefused : t.width = 0 ∨ t.height = 0 ∨ t.pitch < t.width * 4
  · rw [if_pos hrefused, decide_eq_true hrefused]
    rfl
  · rw [if_neg hrefused, decide_eq_false hrefused]
    rfl

/-! ## What is written -/

section Writes

variable {α : Type} {o n : Nat}

theorem write_mem_foldl {f : Canvas → α → Canvas} {W : α → Prop}
    (hf : ∀ c a, .write o n ∈ (f c a).accesses ↔ .write o n ∈ c.accesses ∨ W a) (l : List α)
    (c : Canvas) :
    .write o n ∈ (l.foldl f c).accesses ↔ .write o n ∈ c.accesses ∨ ∃ a ∈ l, W a := by
  induction l generalizing c with
  | nil => simp
  | cons a l ih => rw [foldl_cons, ih, hf, or_assoc, exists_mem_cons_iff]

/-- The alpha of a pixel of a buffer. -/
def alphaAt (buffers : Nat → Nat → UInt8) (slot src : Nat) : UInt32 :=
  readU32Le ((range 4).map fun k => buffers slot (src + k)) 0 >>> 24

theorem write_mem_paintPixel (buffers : Nat → Nat → UInt8) (slot src dst : Nat) (c : Canvas) :
    .write o n ∈ (paintPixel buffers slot src dst c).accesses ↔
      .write o n ∈ c.accesses ∨ (alphaAt buffers slot src ≠ 0 ∧ o = dst ∧ n = 4) := by
  have halpha : readU32Le (c.fetch buffers slot src 4).1 0 >>> 24 = alphaAt buffers slot src := rfl
  rw [paintPixel]
  dsimp only
  rw [halpha]
  split
  · next hfull => simp [Canvas.write, Canvas.fetch, length_writeU32Le, hfull]
  · split
    · next hpos =>
      have hne : alphaAt buffers slot src ≠ 0 := (UInt32.pos_iff_ne_zero).1 hpos
      simp [Canvas.write, Canvas.fetch, Canvas.readPixel, length_writeU32Le, hne]
    · next hzero =>
      have hz : alphaAt buffers slot src = 0 := by
        by_contra hne
        exact hzero (UInt32.pos_iff_ne_zero.2 hne)
      simp [Canvas.fetch, hz]

variable (t : Target) (buffers : Nat → Nat → UInt8) (slot : Nat) (s : Surface)

/-- The offset of the pixel of a surface that is shown at a point. -/
def Surface.sourceOffset (s : Surface) (x y : Int32) : Nat :=
  rowOffset s.stride (sizeT (y - s.y)) + pixelOffset (sizeT (x - s.x))

/-- The writes of a row: a pixel at a time if the surface has alpha, or all at once. -/
def RowWrites (y : Int32) (o n : Nat) : Prop :=
  (s.pixelFormat = pixelFormatArgb8888 ∧
    ∃ x ∈ upTo (clipStart s.x) (clipEnd s.x s.width t.width),
      alphaAt buffers slot (s.sourceOffset x y) ≠ 0 ∧
        o = rowOffset t.pitch (sizeT y) + pixelOffset (sizeT x) ∧ n = 4) ∨
  s.pixelFormat = pixelFormatXrgb8888 ∧
    o = rowOffset t.pitch (sizeT y) + pixelOffset (sizeT (clipStart s.x)) ∧
    n = pixelOffset (sizeT (clipEnd s.x s.width t.width - clipStart s.x))

theorem write_mem_paintRow (c : Canvas) (y : Int32) :
    .write o n ∈ (paintRow t buffers slot s c y).accesses ↔
      .write o n ∈ c.accesses ∨ RowWrites t buffers slot s y o n := by
  have hformats : pixelFormatArgb8888 ≠ pixelFormatXrgb8888 := by decide
  rw [paintRow, RowWrites]
  split
  · next hargb =>
    rw [write_mem_foldl fun c x => write_mem_paintPixel buffers slot
      (rowOffset s.stride (sizeT (y - s.y)) + pixelOffset (sizeT (x - s.x)))
      (rowOffset t.pitch (sizeT y) + pixelOffset (sizeT x)) c]
    simp only [hargb, hformats, true_and, false_and, or_false, Surface.sourceOffset]
  · next hargb =>
    split
    · next hxrgb =>
      simp [Canvas.write, Canvas.fetch, hxrgb, hformats.symm]
    · next hxrgb => simp [hargb, hxrgb]

theorem write_mem_paintSurface (c : Canvas) :
    .write o n ∈ (paintSurface t buffers slot s c).accesses ↔
      .write o n ∈ c.accesses ∨ (clipStart s.x < clipEnd s.x s.width t.width ∧
        ∃ y ∈ upTo (clipStart s.y) (clipEnd s.y s.height t.height),
          RowWrites t buffers slot s y o n) := by
  rw [paintSurface]
  split
  · next hclip =>
    refine (or_iff_left ?_).symm
    rintro ⟨hx, y, hy, -⟩
    obtain ⟨hstart, hend⟩ := mem_upTo hy
    rcases hclip with hclip | hclip
    · exact absurd hx (Int32.not_lt.2 hclip)
    · rw [ge_iff_le, Int32.le_iff_toInt_le] at hclip
      omega
  · next hclip =>
    rw [not_or, Int32.not_le] at hclip
    rw [write_mem_foldl (write_mem_paintRow t buffers slot s), and_iff_right hclip.1]

end Writes

/-! ## Which pixels are painted -/

/-- What remains of an interval after clipping. -/
theorem mem_clip {pos v : Int32} {size limit : UInt32} :
    v ∈ upTo (clipStart pos) (clipEnd pos size limit) ↔
      (v ≥ 0 ∧ v < limit.toInt32) ∧ v ≥ pos ∧ v < pos + size.toInt32 := by
  rw [mem_upTo_iff, clipStart, clipEnd]
  simp only [le_iff_toInt_le, lt_iff_toInt_lt]
  split <;> split <;> constructor <;> intro h <;> simp_all <;> omega

theorem mem_clip_bounds {pos v : Int32} {size limit : UInt32}
    (h : v ∈ upTo (clipStart pos) (clipEnd pos size limit)) :
    0 ≤ v.toInt ∧ v.toInt < limit.toNat := by
  obtain ⟨⟨hzero, hlimit⟩, -⟩ := mem_clip.1 h
  have hle := toInt_toInt32_le limit
  rw [ge_iff_le, le_iff_toInt_le, toInt_zero] at hzero
  rw [lt_iff_toInt_lt] at hlimit
  omega

theorem Target.rows_of_accepted {t : Target} (hwidth : t.width.toNat < 2 ^ 30)
    (h : t.accepted = true) : 4 * t.width.toNat ≤ t.pitch.toNat := by
  rw [Target.accepted, Bool.not_eq_true', decide_eq_false_iff_not, not_or, not_or] at h
  have hpitch := UInt32.le_iff_toNat_le.1 (UInt32.not_lt.1 h.2.2)
  change t.width.toNat * 4 % 2 ^ 32 ≤ t.pitch.toNat at hpitch
  omega

/-- A byte belongs to one row only. -/
theorem row_unique {pitch a b k : Nat} (hk : k < pitch) (hle : a * pitch ≤ b * pitch + k)
    (hlt : b * pitch + k < (a + 1) * pitch) : a = b := by
  have ha : (b * pitch + k) / pitch = a := Nat.div_eq_of_lt_le hle hlt
  have hb : (b * pitch + k) / pitch = b := by
    rw [Nat.mul_comm, Nat.mul_add_div (by omega), Nat.div_eq_of_lt hk, Nat.add_zero]
  rw [← ha, hb]

/-- The pixel of the surface at the point is not transparent. -/
def Surface.visibleAt (buffers : Nat → Nat → UInt8) (slot : Nat) (s : Surface) (x y : Int32) :
    Bool :=
  s.pixelFormat == pixelFormatXrgb8888 ||
    s.pixelFormat == pixelFormatArgb8888 && alphaAt buffers slot (s.sourceOffset x y) != 0

section Paint

variable {t : Target} {buffers : Nat → Nat → UInt8} {slot : Nat} {s : Surface} {x y y' : Int32}

/-- The pixels that a part of a row covers. -/
theorem span_covers (hrows : 4 * t.width.toNat ≤ t.pitch.toNat) (hy : 0 ≤ y.toInt)
    (hy' : 0 ≤ y'.toInt) (hwidth : x.toInt.toNat < t.width.toNat) {a b : Nat}
    (hb : b ≤ t.width.toNat) :
    (y'.toInt.toNat * t.pitch.toNat + a * 4 ≤ t.offset x y ∧
        t.offset x y < y'.toInt.toNat * t.pitch.toNat + b * 4) ↔
      y' = y ∧ a ≤ x.toInt.toNat ∧ x.toInt.toNat < b := by
  rw [Target.offset]
  constructor
  · rintro ⟨hle, hlt⟩
    have hinside : x.toInt.toNat * 4 < t.pitch.toNat := by omega
    have hrow : y'.toInt.toNat = y.toInt.toNat := by
      refine row_unique hinside (by omega) ?_
      rw [Nat.succ_mul]
      omega
    rw [hrow] at hle hlt
    exact ⟨toInt_inj.1 (by omega), by omega, by omega⟩
  · rintro ⟨rfl, ha, hlt⟩
    omega

/-- The number of bytes of a row that remains after clipping. -/
theorem pixelOffset_clip {pos : Int32} {size limit : UInt32}
    (hends : (clipStart pos).toInt < (clipEnd pos size limit).toInt) :
    pixelOffset (sizeT (clipEnd pos size limit - clipStart pos)) =
      ((clipEnd pos size limit).toInt.toNat - (clipStart pos).toInt.toNat) * 4 := by
  have hstart := (clipStart_bounds pos).1
  have hbound := (clipEnd pos size limit).toInt_lt
  have hsub := toInt_sub_of_le (le_of_lt hends) (by omega)
  rw [pixelOffset_sizeT (by omega), hsub]
  omega

/-- The pixels that a row writes to. -/
theorem rowWrites_covers (hrows : 4 * t.width.toNat ≤ t.pitch.toNat) (hx : 0 ≤ x.toInt)
    (hwidth : x.toInt < t.width.toNat) (hy : 0 ≤ y.toInt) (hy' : 0 ≤ y'.toInt)
    (hclip : clipStart s.x < clipEnd s.x s.width t.width) :
    (∃ o n, RowWrites t buffers slot s y' o n ∧ o ≤ t.offset x y ∧ t.offset x y < o + n) ↔
      y' = y ∧ x ∈ upTo (clipStart s.x) (clipEnd s.x s.width t.width) ∧
        s.visibleAt buffers slot x y = true := by
  have hends := lt_iff_toInt_lt.1 hclip
  have hstart := (clipStart_bounds s.x).1
  have hlast := le_trans (clipEnd_bounds s.x s.width t.width).2 (toInt_toInt32_le t.width)
  have hlength := pixelOffset_clip hends
  have hspan {a b : Nat} (hb : b ≤ t.width.toNat) :=
    span_covers (a := a) hrows hy hy' (by omega : x.toInt.toNat < t.width.toNat) hb
  simp only [RowWrites, rowOffset_sizeT _ hy', Surface.visibleAt, Bool.or_eq_true,
    Bool.and_eq_true, beq_iff_eq, bne_iff_ne]
  constructor
  · rintro ⟨o, n, ⟨hargb, x', hx', halpha, rfl, rfl⟩ | ⟨hxrgb, rfl, rfl⟩, hcovers⟩
    · obtain ⟨hzero, hlimit⟩ := mem_clip_bounds hx'
      rw [pixelOffset_sizeT hzero, Nat.add_assoc _ _ 4, ← Nat.succ_mul, hspan (by omega)] at hcovers
      obtain ⟨rfl, hle, hlt⟩ := hcovers
      obtain rfl : x' = x := toInt_inj.1 (by omega)
      exact ⟨rfl, hx', .inr ⟨hargb, halpha⟩⟩
    · rw [pixelOffset_sizeT hstart, hlength, Nat.add_assoc, ← Nat.add_mul, hspan (by omega)]
        at hcovers
      obtain ⟨rfl, hle, hlt⟩ := hcovers
      exact ⟨rfl, mem_upTo_iff.2 (by omega), .inl hxrgb⟩
  · rintro ⟨rfl, hmem, hxrgb | ⟨hargb, halpha⟩⟩
    · refine ⟨_, _, .inr ⟨hxrgb, rfl, rfl⟩, ?_⟩
      rw [pixelOffset_sizeT hstart, hlength, Nat.add_assoc, ← Nat.add_mul, hspan (by omega)]
      obtain ⟨hle, hlt⟩ := mem_upTo hmem
      exact ⟨rfl, by omega, by omega⟩
    · refine ⟨_, _, .inl ⟨hargb, x, hmem, halpha, rfl, rfl⟩, ?_⟩
      rw [pixelOffset_sizeT hx, Nat.add_assoc _ _ 4, ← Nat.succ_mul, hspan (by omega)]
      exact ⟨rfl, le_refl _, Nat.lt_succ_self _⟩

theorem Target.shows_iff : t.shows x y = true ↔
    (x ≥ 0 ∧ x < t.width.toInt32) ∧ y ≥ 0 ∧ y < t.height.toInt32 := by
  simp only [Target.shows, Bool.and_eq_true, decide_eq_true_eq, and_assoc]

theorem Target.bounds_of_shows (h : t.shows x y = true) :
    0 ≤ x.toInt ∧ x.toInt < t.width.toNat ∧ 0 ≤ y.toInt := by
  obtain ⟨⟨hx, hwidth⟩, hy, -⟩ := Target.shows_iff.1 h
  rw [ge_iff_le, le_iff_toInt_le] at hx hy
  exact ⟨hx, lt_of_lt_of_le (lt_iff_toInt_lt.1 hwidth) (toInt_toInt32_le _), hy⟩

theorem Surface.contains_iff : s.contains x y = true ↔
    (x ≥ s.x ∧ x < s.x + s.width.toInt32) ∧ y ≥ s.y ∧ y < s.y + s.height.toInt32 := by
  simp only [Surface.contains, Bool.and_eq_true, decide_eq_true_eq, and_assoc]

theorem any_writesTo {l : List Access} {i : Nat} :
    l.any (Access.writesTo i) = true ↔ ∃ o n, .write o n ∈ l ∧ o ≤ i ∧ i < o + n := by
  rw [any_eq_true]
  constructor
  · rintro ⟨a, ha, hwrites⟩
    cases a with
    | write o n =>
      rw [Access.writesTo, Bool.and_eq_true, decide_eq_true_eq, decide_eq_true_eq] at hwrites
      exact ⟨o, n, ha, hwrites⟩
    | read => cases hwrites
    | fetch => cases hwrites
  · rintro ⟨o, n, ha, hle, hlt⟩
    exact ⟨_, ha, by rw [Access.writesTo, decide_eq_true hle, decide_eq_true hlt]; rfl⟩

/-- The pixels that are painted: those on the display and on the surface that are visible. -/
theorem paintsAt_iff (hwidth : t.width.toNat < 2 ^ 30) :
    paintsAt t buffers x y (s, slot) = true ↔
      t.accepted = true ∧ t.shows x y = true ∧ s.contains x y = true ∧
        s.visibleAt buffers slot x y = true := by
  rw [paintsAt, Bool.and_eq_true, Bool.and_eq_true, and_assoc]
  refine and_congr_right fun hacc => and_congr_right fun hshows => ?_
  have hrows := Target.rows_of_accepted hwidth hacc
  obtain ⟨hx, hlimit, hy⟩ := Target.bounds_of_shows hshows
  rw [any_writesTo]
  constructor
  · rintro ⟨o, n, hwrite, hcovers⟩
    rcases (write_mem_paintSurface t buffers slot s _).1 hwrite with hnil | ⟨hclip, y', hy', hrow⟩
    · cases hnil
    · have hy0 := (mem_clip_bounds hy').1
      obtain ⟨rfl, hmem, hvisible⟩ :=
        (rowWrites_covers hrows hx hlimit hy hy0 hclip).1 ⟨o, n, hrow, hcovers⟩
      exact ⟨Surface.contains_iff.2 ⟨(mem_clip.1 hmem).2, (mem_clip.1 hy').2⟩, hvisible⟩
  · rintro ⟨hcontains, hvisible⟩
    obtain ⟨hxs, hys⟩ := Surface.contains_iff.1 hcontains
    obtain ⟨hxt, hyt⟩ := Target.shows_iff.1 hshows
    have hmem := mem_clip.2 ⟨hxt, hxs⟩
    have hclip : clipStart s.x < clipEnd s.x s.width t.width :=
      lt_iff_toInt_lt.2 (lt_of_le_of_lt (mem_upTo hmem).1 (mem_upTo hmem).2)
    obtain ⟨o, n, hrow, hcovers⟩ :=
      (rowWrites_covers hrows hx hlimit hy hy hclip).2 ⟨rfl, hmem, hvisible⟩
    refine ⟨o, n, (write_mem_paintSurface t buffers slot s _).2 (.inr ?_), hcovers⟩
    exact ⟨hclip, y, mem_clip.2 ⟨hyt, hys⟩, hrow⟩

end Paint

/-! ## Layers -/

/-- The surface has a buffer, and is neither minimized nor hidden. -/
def Surface.Shown (s : Surface) : Prop :=
  s.inUse = true ∧ s.bufferMap.isSome = true ∧ s.wmState ≠ WmState.minimized ∧
    s.wmState ≠ WmState.hidden

instance (s : Surface) : Decidable s.Shown := inferInstanceAs (Decidable (_ ∧ _))

/-- **A shown surface is painted**, with its visible pixels at every point of the display that it
covers, iff its layer is one of those that are composed. -/
theorem painted_iff_layer {m : SurfaceManager} {t : Target} {buffers : Nat → Nat → UInt8}
    {p : Surface × Nat} (hwidth : t.width.toNat < 2 ^ 30) (hacc : t.accepted = true)
    (hp : p ∈ m.slots.zipIdx) (hshown : p.1.Shown) :
    (p ∈ paintOrder m ∧ ∀ x y, t.shows x y = true → p.1.contains x y = true →
        paintsAt t buffers x y p = p.1.visibleAt buffers p.2 x y) ↔ p.1.layer ∈ layerOrder := by
  obtain ⟨huse, hmap, hmin, hhidden⟩ := hshown
  have horder : p ∈ paintOrder m ↔ p.1.layer ∈ layerOrder := by
    simp [paintOrder, Surface.isPainted, hp, huse, hmap, hmin, hhidden]
  rw [horder]
  refine and_iff_left fun x y hshows hcontains => ?_
  rw [Bool.eq_iff_iff, paintsAt_iff hwidth]
  exact ⟨fun h => h.2.2.2, fun h => ⟨hacc, hshows, hcontains, h⟩⟩

theorem painted_iff_layer_sample : ∃ p ∈ sampleWindow.surfaceManager.slots.zipIdx,
    p.1.contains 1 0 = true ∧ p.1.visibleAt (fun _ _ => 255) p.2 1 0 = true ∧
      paintsAt ⟨2, 1, 8⟩ (fun _ _ => 255) 1 0 p = true := by
  obtain ⟨p, hp, hshown, hlayer, hcontains, hvisible⟩ :
      ∃ p ∈ sampleWindow.surfaceManager.slots.zipIdx, p.1.Shown ∧ p.1.layer ∈ layerOrder ∧
        p.1.contains 1 0 = true ∧ p.1.visibleAt (fun _ _ => 255) p.2 1 0 = true := by
    decide +kernel
  refine ⟨p, hp, hcontains, hvisible, .trans ?_ hvisible⟩
  exact ((painted_iff_layer (by decide) (by decide) hp hshown).2 hlayer).2 1 0 (by decide) hcontains

/-- A surface of the shell on the layer 250 can be created and committed, and is not painted. -/
theorem layer_not_painted :
    let client : Client := { fd := 4, uid := 0, sessionId := 1, capsGranted := Cap.layerShell }
    let created := SurfaceManager.init.create client ⟨SurfaceType.shellSurface, 0, 0, 2, 1, 250⟩
    let committed := created.1.commit client ⟨1, 2, 1, 8, pixelFormatXrgb8888, 8⟩ (some 9) some
    created.2 = (.ok, 1) ∧ committed.2 = .ok ∧ paintOrder committed.1 = [] := by
  decide +kernel

/-! ## The last surface painted -/

/-- The surface is painted at the point. -/
def shownAt (t : Target) (buffers : Nat → Nat → UInt8) (x y : Int32) (p : Surface × Nat) : Bool :=
  p.1.layer == Layer.application && p.1.bufferMap.isSome && paintsAt t buffers x y p

section Last

variable {t : Target} {buffers : Nat → Nat → UInt8} {x y : Int32} {p r : Surface × Nat}
  {l : List (Surface × Nat)}

/-- What is painted of the application range: it has a single layer. -/
theorem painted_eq (hwidth : t.width.toNat < 2 ^ 30) (st : State) :
    painted st t buffers x y = (underPointer st x y).filter (shownAt t buffers x y) := by
  have hother (layer : UInt32) (hlayer : ¬(layer ≥ Layer.application ∧ layer < Layer.shell)) :
      (st.surfaceManager.slots.zipIdx.filter fun p => p.1.isPainted layer).filter (fun p =>
        p.1.isApplication st.wmSessionId && paintsAt t buffers x y p) = [] := by
    rw [filter_filter, filter_eq_nil_iff]
    intro p _ hp
    simp only [Surface.isApplication, Surface.isPainted, Bool.and_eq_true, beq_iff_eq,
      decide_eq_true_eq] at hp
    obtain ⟨⟨⟨⟨-, hge⟩, hlt⟩, -⟩, ⟨⟨⟨-, rfl⟩, -⟩, -⟩, -⟩ := hp
    exact hlayer ⟨hge, hlt⟩
  rw [painted, paintOrder, filter_flatMap, layerOrder]
  simp only [flatMap_cons, flatMap_nil]
  rw [hother Layer.wallpaper (by decide), hother Layer.shell (by decide),
    hother Layer.overlay (by decide), hother Layer.notification (by decide),
    hother Layer.lunaIsland (by decide), hother Layer.systemModal (by decide),
    hother Layer.cursor (by decide), underPointer, filter_filter, filter_filter]
  simp only [append_nil]
  refine filter_congr fun p _ => ?_
  have hcontains (h : paintsAt t buffers x y p = true) : p.1.contains x y = true :=
    ((paintsAt_iff hwidth).1 h).2.2.1
  rw [Bool.eq_iff_iff]
  simp only [Surface.isApplication, Surface.isPainted, shownAt, Surface.takesPointer,
    Bool.and_eq_true]
  tauto

/-- A target stays if nothing is on a higher layer. -/
theorem foldl_higherSlot_eq (h : ∀ q ∈ l, q.1.layer ≤ p.1.layer) :
    l.foldl higherSlot (some p) = some p := by
  induction l with
  | nil => rfl
  | cons q l ih =>
    have hq := h q mem_cons_self
    rw [foldl_cons, higherSlot, if_neg (UInt32.not_lt.2 hq)]
    exact ih fun q hq => h q (mem_cons_of_mem _ hq)

/-- The target is on the highest layer. -/
theorem layer_le_of_foldl (h : l.foldl higherSlot (some p) = some r) :
    p.1.layer ≤ r.1.layer ∧ ∀ q ∈ l, q.1.layer ≤ r.1.layer := by
  induction l generalizing p with
  | nil =>
    obtain rfl := Option.some.inj h
    exact ⟨UInt32.le_refl _, fun q hq => by cases hq⟩
  | cons q l ih =>
    rw [foldl_cons, higherSlot] at h
    split at h
    · next hlt =>
      obtain ⟨hle, hall⟩ := ih h
      exact ⟨UInt32.le_trans (UInt32.le_of_lt hlt) hle, forall_mem_cons.2 ⟨hle, hall⟩⟩
    · next hge =>
      obtain ⟨hle, hall⟩ := ih h
      refine ⟨hle, forall_mem_cons.2 ⟨?_, hall⟩⟩
      exact UInt32.le_trans (UInt32.not_lt.1 hge) hle

theorem foldl_higherSlot_isSome (p : Surface × Nat) (l : List (Surface × Nat)) :
    ∃ r, l.foldl higherSlot (some p) = some r := by
  induction l generalizing p with
  | nil => exact ⟨p, rfl⟩
  | cons q l ih =>
    rw [foldl_cons, higherSlot]
    split
    · exact ih q
    · exact ih p

theorem nodup_underPointer (st : State) (x y : Int32) : (underPointer st x y).Nodup := by
  refine .sublist filter_sublist (.of_map snd ?_)
  rw [zipIdx_map_snd]
  exact nodup_range'

/-- The surface in the first slot is shown at the point, and no other one is, or is on a higher
layer. -/
def OnlyFirstShown (t : Target) (buffers : Nat → Nat → UInt8) (x y : Int32) :
    List (Surface × Nat) → Prop
  | [] => True
  | p :: rest => shownAt t buffers x y p = true ∧
      ∀ q ∈ rest, shownAt t buffers x y q = false ∧ q.1.layer ≤ Layer.application

instance (t : Target) (buffers : Nat → Nat → UInt8) (x y : Int32) :
    DecidablePred (OnlyFirstShown t buffers x y)
  | [] => .isTrue trivial
  | _ :: _ => inferInstanceAs (Decidable (_ ∧ _))

theorem layer_of_underPointer {st : State} (h : p ∈ underPointer st x y) :
    Layer.application ≤ p.1.layer := by
  rw [underPointer, mem_filter, Bool.and_eq_true] at h
  have htakes := h.2.1
  simp only [Surface.takesPointer, Bool.and_eq_true, decide_eq_true_eq] at htakes
  exact htakes.1.1.1.2

/-- The target is the surface that is shown last. -/
theorem foldl_eq_getLast_iff (hnodup : l.Nodup) (hlayer : ∀ q ∈ l, Layer.application ≤ q.1.layer) :
    l.foldl higherSlot none = (l.filter (shownAt t buffers x y)).getLast? ↔
      OnlyFirstShown t buffers x y l := by
  rcases l with - | ⟨p, rest⟩
  · exact ⟨fun _ => trivial, fun _ => rfl⟩
  · obtain ⟨hfirst, -⟩ := forall_mem_cons.1 hlayer
    rw [foldl_cons]
    constructor
    · intro hlast
      obtain ⟨r, hr⟩ := foldl_higherSlot_isSome p rest
      have hlast : (filter (shownAt t buffers x y) (p :: rest)).getLast? = some r :=
        hlast.symm.trans hr
      have hshown := (mem_filter.1 (mem_of_getLast? hlast)).2
      obtain ⟨-, hmax⟩ := layer_le_of_foldl hr
      have hlayer := hshown
      rw [shownAt, Bool.and_eq_true, Bool.and_eq_true, beq_iff_eq] at hlayer
      rw [hlayer.1.1] at hmax
      have hp : some p = some r :=
        (foldl_higherSlot_eq fun q hq => UInt32.le_trans (hmax q hq) hfirst).symm.trans hr
      obtain rfl := Option.some.inj hp
      refine ⟨hshown, fun q hq => ⟨?_, hmax q hq⟩⟩
      -- a later surface that is shown would be the last one
      by_contra hq'
      have hne : rest.filter (shownAt t buffers x y) ≠ [] :=
        ne_nil_of_mem (mem_filter.2 ⟨hq, Bool.not_eq_false _ ▸ hq'⟩)
      rw [filter_cons_of_pos hshown, getLast?_cons_of_ne_nil hne] at hlast
      exact (nodup_cons.1 hnodup).1 (mem_of_mem_filter (mem_of_getLast? hlast))
    · rintro ⟨hshown, hothers⟩
      have hnone : rest.filter (shownAt t buffers x y) = [] :=
        filter_eq_nil_iff.2 fun q hq => by simp [(hothers q hq).1]
      rw [filter_cons_of_pos hshown, hnone, higherSlot]
      exact foldl_higherSlot_eq fun q hq => UInt32.le_trans (hothers q hq).2 hfirst

/-- **The pointer goes to the surface that is painted last** exactly if the first slot under it is
the only one that is shown. -/
theorem pointer_target_iff (st : State) (t : Target) (hwidth : t.width.toNat < 2 ^ 30)
    (buffers : Nat → Nat → UInt8) (x y : Int32) :
    findPointerTarget st x y = (pointerSlot st x y).map Prod.fst ∧
      (pointerSlot st x y = (painted st t buffers x y).getLast? ↔
        OnlyFirstShown t buffers x y (underPointer st x y)) := by
  refine ⟨(map_pointerSlot st x y).symm, ?_⟩
  rw [painted_eq hwidth]
  exact foldl_eq_getLast_iff (nodup_underPointer st x y) fun q hq => layer_of_underPointer hq

end Last

theorem pointer_target_window :
    (Target.mk 2 1 8).width.toNat < 2 ^ 30 ∧
      OnlyFirstShown ⟨2, 1, 8⟩ (fun _ _ => 128) 1 0 (underPointer sampleWindow 1 0) ∧
      pointerSlot sampleWindow 1 0 =
        (painted sampleWindow ⟨2, 1, 8⟩ (fun _ _ => 128) 1 0).getLast? := by
  have honly : OnlyFirstShown ⟨2, 1, 8⟩ (fun _ _ => 128) 1 0 (underPointer sampleWindow 1 0) := by
    decide +kernel
  have hiff := pointer_target_iff sampleWindow ⟨2, 1, 8⟩ (by decide) (fun _ _ => 128) 1 0
  exact ⟨by decide, honly, hiff.2.2 honly⟩

/-- The client shows a second window at the same place. -/
def sampleWindows : State :=
  step ⟨1920, 1080⟩ sampleWindow
    (.read 4 ⟨newWindow.encode ++ (newBuffer 2).encode, [8], false⟩ fun _ => {})

/-- Of two windows at the same place, the second is painted last, and the pointer goes to the
first. -/
theorem pointer_goes_below :
    Reachable ⟨1920, 1080⟩ sampleWindows ∧
      (pointerSlot sampleWindows 1 0).map Prod.snd = some 0 ∧
      (painted sampleWindows ⟨2, 1, 8⟩ (fun _ _ => 255) 1 0).map Prod.snd = [0, 1] := by
  refine ⟨?_, by decide +kernel, by decide +kernel⟩
  exact .turn (.turn (.turn .init _) _) _

end Compositor
