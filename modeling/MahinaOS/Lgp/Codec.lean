import MahinaOS.Compositor.Composite
import MahinaOS.Compositor.Framing
import MahinaOS.Lgp.Protocol

/-!
# One protocol, written twice

The payloads are laid out by hand in the client library (`lgp-rs`) and again in the compositor
(`lgp-compositor/protocol`).  This file compares the two descriptions.

* Both sides agree about bytes: a message has the same frame on both (`LgpMessage.encode_eq`), and
  either side reads the frames back (`tlvDecode_encode`, `recvFrom_encode`).
* **`decode_agrees_iff`**: when the decoders of the two sides agree on a buffer.
* A payload of words is `words`, and a word is read back where it stands (`readU32Le_words`).  The
  payloads that the client writes field by field into zeros are of this form.
* **`payloads_agree`**: every request and every message about a surface is decoded to the values
  that were put in.
* **`sent_delivered`**: the messages of a client arrive, however its frames are cut.
-/

namespace Lgp

open List Compositor Nat

/-! ## Words -/

def words (ws : List UInt32) : Bytes := ws.flatMap toLeBytes

theorem length_words (ws : List UInt32) : (words ws).length = 4 * ws.length := by
  induction ws with
  | nil => rfl
  | cons w ws ih =>
    change (toLeBytes w ++ words ws).length = 4 * (ws.length + 1)
    rw [length_append, ih, add_comm]
    rfl

variable {ws : List UInt32}

theorem readU32Le_words {v : UInt32} (k : Nat) (h : ws[k]? = some v) :
    readU32Le (words ws) (4 * k) = v := by
  obtain ⟨hk, rfl⟩ := List.getElem?_eq_some_iff.1 h
  have hlen : (words (ws.take k)).length = 4 * k := by
    rw [length_words, length_take_of_le (le_of_lt hk)]
  have hsplit : words ws = words (ws.take k) ++ (toLeBytes ws[k] ++ words (ws.drop (k + 1))) := by
    conv_lhs => rw [← take_append_drop k ws, drop_eq_getElem_cons hk]
    exact flatMap_append
  rw [hsplit, ← hlen]
  exact readU32Le_writeU32Le _ _ _

theorem readI32Le_words {v : Int32} (k : Nat) (h : ws[k]? = some v.toUInt32) :
    Compositor.readI32Le (words ws) (4 * k) = v := by
  have hword : Compositor.readU32Le (words ws) (4 * k) = v.toUInt32 := readU32Le_words k h
  rw [Compositor.readI32Le, hword, Int32.toInt32_toUInt32]

/-! ## Frames -/

variable (msg : LgpMessage) (surfaceId : UInt32)

/-- A message has one frame. -/
theorem LgpMessage.encode_eq : msg.encode = Msg.encode ⟨msg.msgType, msg.payload⟩ := rfl

theorem readU16Le_toLeBytes16 (v : UInt16) (q : Bytes) : readU16Le (toLeBytes16 v ++ q) 0 = v := by
  have hlt := v.toNat_lt
  have hnat : (v.toNat % 2 ^ 8 ||| (v.toNat >>> 8 % 2 ^ 8) <<< 8 % 2 ^ 32) % 2 ^ 16 = v.toNat := by
    rw [mod_eq_of_lt (b := 2 ^ 32) (by rw [shiftLeft_eq]; omega), or_shiftLeft (by omega)]
    omega
  apply UInt16.toNat.inj
  exact hnat

def LgpMessage.header (msg : LgpMessage) : Bytes :=
  toLeBytes16 msg.msgType ++ toLeBytes (UInt32.ofNat (headerSize + msg.payload.length))

theorem LgpMessage.length_encode : msg.encode.length = headerSize + msg.payload.length := by
  rw [LgpMessage.encode, length_append]
  rfl

theorem totalLen_header {msg : LgpMessage} (h : headerSize + msg.payload.length < 2 ^ 32)
    (q : Bytes) : (readU32Le (msg.header ++ q) 2).toNat = headerSize + msg.payload.length := by
  have hfield : readU32Le (msg.header ++ q) 2 = UInt32.ofNat (headerSize + msg.payload.length) := by
    exact readU32Le_writeU32Le (toLeBytes16 msg.msgType) _ _
  rw [hfield, UInt32.toNat_ofNat_of_lt' h]

theorem msgType_header (q : Bytes) : readU16Le (msg.header ++ q) 0 = msg.msgType := by
  exact readU16Le_toLeBytes16 _ _

theorem tlvDecode_encode (h : headerSize + msg.payload.length < 2 ^ 32) :
    tlvDecode msg.encode = some ⟨msg.msgType, msg.payload⟩ := by
  have htotal : (readU32Le msg.encode 2).toNat = _ := totalLen_header h msg.payload
  have htype : readU16Le msg.encode 0 = _ := msgType_header msg msg.payload
  have hlen : (readU32Le msg.encode 2).toNat = msg.encode.length :=
    htotal.trans msg.length_encode.symm
  have hmin : headerSize ≤ (readU32Le msg.encode 2).toNat := by
    rw [htotal]
    exact le_add_right _ _
  have hread := tlvDecode_take hmin (le_of_eq hlen)
  have hall : msg.encode.take (readU32Le msg.encode 2).toNat = msg.encode := by
    rw [hlen, take_length]
  exact (congrArg tlvDecode hall.symm).trans (hread.trans
    (congrArg₂ (fun type frame => some (Msg.mk type (drop headerSize frame))) htype hall))

/-- **The two decoders** agree on a buffer unless it declares less than a header, and then the one
in the client library panics.  A message is read back from its frame. -/
theorem decode_agrees_iff (data : Bytes) :
    (LgpMessage.decode data = .ok ((tlvDecode data).map fun msg => ⟨msg.type, msg.payload⟩) ↔
      (headerSize ≤ data.length → headerSize ≤ (readU32Le data 2).toNat)) ∧
    ∀ msg : LgpMessage, msg.payload.length < 2 ^ 32 - 6 →
      LgpMessage.decode msg.encode = .ok (some msg) := by
  have hiff (data : Bytes) :
      LgpMessage.decode data = .ok ((tlvDecode data).map fun msg => ⟨msg.type, msg.payload⟩) ↔
        (headerSize ≤ data.length → headerSize ≤ (readU32Le data 2).toNat) := by
    have hpeek : tlvPeekHeader data = if data.length < headerSize then none
        else some (readU16Le data 0, readU32Le data 2) := rfl
    rw [LgpMessage.decode, tlvDecode, hpeek]
    by_cases hshort : data.length < headerSize
    · rw [if_pos hshort, if_pos hshort]
      exact iff_of_true rfl fun h => absurd hshort (not_lt.2 h)
    · rw [if_neg hshort, if_neg hshort, forall_prop_of_true (not_lt.1 hshort)]
      dsimp only
      generalize (readU32Le data 2).toNat = totalLen
      by_cases hmin : totalLen < headerSize
      · rw [if_neg (by omega), if_pos hmin, if_pos (.inl hmin)]
        exact iff_of_false (by simp) (by omega)
      · rw [if_neg hmin]
        refine iff_of_true ?_ (not_lt.1 hmin)
        by_cases hlen : data.length < totalLen
        · rw [if_pos hlen, if_pos (.inr hlen)]
          rfl
        · rw [if_neg hlen, if_neg (by exact not_or.2 ⟨hmin, hlen⟩)]
          rfl
  refine ⟨hiff data, fun msg hmsg => ?_⟩
  have hlt : headerSize + msg.payload.length < 2 ^ 32 := by
    change 6 + _ < _
    omega
  have hdecode := tlvDecode_encode msg hlt
  rw [(hiff msg.encode).2, hdecode]
  · rfl
  · intro _
    have htotal : (readU32Le msg.encode 2).toNat = _ := totalLen_header hlt msg.payload
    rw [htotal]
    exact le_add_right _ _

theorem decode_panics :
    LgpMessage.decode [1, 0, 5, 0, 0, 0] = .error () ∧ tlvDecode [1, 0, 5, 0, 0, 0] = none := by
  decide

theorem readExact_append (p q : Bytes) (closed : Bool) :
    Socket.readExact ⟨p ++ q, closed⟩ p.length = some (.ok p, ⟨q, closed⟩) := by
  rw [Socket.readExact, if_pos (by rw [length_append]; omega), take_left, drop_left]

/-- The client reads the frame of a message off the socket, and no more. -/
theorem recvFrom_encode (h : headerSize + msg.payload.length ≤ maxMsgSize)
    (q : Bytes) (closed : Bool) :
    recvFrom ⟨msg.encode ++ q, closed⟩ = some (.ok msg, ⟨q, closed⟩) := by
  have hmax : maxMsgSize < 2 ^ 32 := by decide
  have htotal := totalLen_header (Nat.lt_of_le_of_lt h hmax) []
  have htype := msgType_header msg []
  rw [append_nil] at htotal htype
  have hread : Socket.readExact ⟨msg.encode ++ q, closed⟩ headerSize =
      some (.ok msg.header, ⟨msg.payload ++ q, closed⟩) := by
    rfl
  rw [recvFrom, hread]
  dsimp only
  rw [htotal, if_neg (by omega), Nat.add_sub_cancel_left, readExact_append, htype]

theorem recvFrom_msgEncode (msg : Msg) (h : headerSize + msg.payload.length ≤ maxMsgSize) :
    recvFrom ⟨msg.encode, false⟩ = some (.ok ⟨msg.type, msg.payload⟩, ⟨[], false⟩) := by
  have hread := recvFrom_encode ⟨msg.type, msg.payload⟩ h [] false
  rw [append_nil] at hread
  exact hread

/-! ## Requests -/

/-- What a decoder of the compositor makes of the bytes of a client. -/
def decoded {α : Type} (decode : Msg → Option α) (frame : Bytes) : Option α :=
  (tlvDecode frame).bind decode

theorem decoded_new {α : Type} (decode : Msg → Option α) (type : LgpMessageType)
    (h : ws.length ≤ 6) :
    decoded decode (LgpMessage.new type (words ws)).encode = decode ⟨type.toU16, words ws⟩ := by
  have hshort : headerSize + (LgpMessage.new type (words ws)).payload.length < 2 ^ 32 := by
    have hlen : (LgpMessage.new type (words ws)).payload.length = 4 * ws.length := length_words ws
    rw [hlen, headerSize]
    omega
  rw [decoded, tlvDecode_encode _ hshort]
  rfl

theorem decoded_words {α : Type} {decode : Msg → Option α} {msg : LgpMessage} {v : α}
    (type : LgpMessageType) (ws : List UInt32) (hmsg : msg = .new type (words ws))
    (h : ws.length ≤ 6) (hdecode : decode ⟨type.toU16, words ws⟩ = some v) :
    decoded decode msg.encode = some v := by
  rw [hmsg, decoded_new decode type h, hdecode]

theorem decoded_create (surfaceType : UInt32) (x y : Int32) (width height layer : UInt32) :
    decoded decodeCreate
      (LgpSurface.createRequest surfaceType x y width height layer).encode =
      some ⟨surfaceType, x, y, width, height, layer⟩ := by
  refine decoded_words .createSurface
    [surfaceType, x.toUInt32, y.toUInt32, width, height, layer] rfl (by simp) ?_
  rw [decodeCreate, if_neg (by rintro (h | h) <;> exact h rfl)]
  simp only [Option.some.injEq, CreatePayload.mk.injEq]
  exact ⟨readU32Le_words 0 rfl, readI32Le_words 1 rfl, readI32Le_words 2 rfl,
    readU32Le_words 3 rfl, readU32Le_words 4 rfl, readU32Le_words 5 rfl⟩

theorem decoded_destroy (s : LgpSurface) :
    decoded decodeDestroy s.destroyRequest.encode = some s.id := by
  refine decoded_words .destroySurface [s.id] rfl (by simp) ?_
  exact congrArg some (readU32Le_words 0 rfl)

/-- What a commit says. -/
def LgpSurface.commitPayload (s : LgpSurface) : CommitPayload where
  surfaceId := s.id
  width := s.width
  height := s.height
  stride := s.width * 4
  pixelFormat := if s.argb then pixelFormatArgb8888 else pixelFormatXrgb8888
  byteSize := UInt32.ofNat s.bufferSize

theorem decoded_commit (s : LgpSurface) :
    decoded decodeCommit s.commitFrame = some s.commitPayload := by
  have hmsg : s.commitFrame = (LgpMessage.new .commitBuffer (words [s.id, s.width, s.height,
      s.width * 4, if s.argb then pixelFormatArgb8888 else pixelFormatXrgb8888,
      UInt32.ofNat s.bufferSize])).encode := rfl
  rw [hmsg, decoded_new _ _ (by simp), decodeCommit, if_neg (by rintro (h | h) <;> exact h rfl)]
  simp only [Option.some.injEq, LgpSurface.commitPayload, CommitPayload.mk.injEq]
  exact ⟨readU32Le_words 0 rfl, readU32Le_words 1 rfl, readU32Le_words 2 rfl,
    readU32Le_words 3 rfl, readU32Le_words 4 rfl, readU32Le_words 5 rfl⟩

theorem decoded_setPosition (s : LgpSurface) (x y : Int32) :
    decoded decodeSetPosition (s.setPosition x y).encode = some ⟨s.id, x, y⟩ := by
  refine decoded_words .wmSetSurfacePosition [s.id, x.toUInt32, y.toUInt32] rfl (by simp) ?_
  rw [decodeSetPosition, if_neg (by rintro (h | h); exacts [h rfl, lt_irrefl _ h])]
  simp only [Option.some.injEq, SetPositionPayload.mk.injEq]
  exact ⟨readU32Le_words 0 rfl, readI32Le_words 1 rfl, readI32Le_words 2 rfl⟩

theorem decoded_setFocus :
    decoded decodeSetFocus (WmState.setFocus surfaceId).encode = some surfaceId := by
  refine decoded_words .wmSetFocus [surfaceId] rfl (by simp) ?_
  exact congrArg some (readU32Le_words 0 rfl)

theorem decoded_setState (state : UInt32) :
    decoded decodeSetState (WmState.setState surfaceId state).encode =
      some (surfaceId, state) := by
  refine decoded_words .wmSetState [surfaceId, state] rfl (by simp) ?_
  exact congrArg₂ (fun a b => some (a, b)) (readU32Le_words 0 rfl) (readU32Le_words 1 rfl)

theorem decoded_grabKey (key modifiers : UInt32) :
    decoded decodeGrabKey (WmState.grabKey key modifiers).encode =
      some (key, modifiers) := by
  refine decoded_words .wmGrabKey [key, modifiers] rfl (by simp) ?_
  exact congrArg₂ (fun a b => some (a, b)) (readU32Le_words 0 rfl) (readU32Le_words 1 rfl)

variable {s : LgpSurface}

/-- For a size that the compositor accepts, nothing in a commit overflows. -/
theorem commitPayload_size {client : Client} {p : CreatePayload}
    (hok : surfaceValidateRequest client p = .ok) (hwidth : s.width = p.width)
    (hsize : s.bufferSize = p.width.toNat * p.height.toNat * 4 % 2 ^ 64) :
    s.commitPayload.stride.toNat = 4 * p.width.toNat ∧
      s.commitPayload.byteSize.toNat = s.commitPayload.stride.toNat * p.height.toNat ∧
      s.commitPayload.byteSize.toNat = s.bufferSize := by
  obtain ⟨hw, hh⟩ := size_of_validate hok
  have harea : p.width.toNat * p.height.toNat ≤ 16384 * 16384 := Nat.mul_le_mul hw hh
  have hstride : s.commitPayload.stride.toNat = 4 * p.width.toNat := by
    change (s.width * 4).toNat = _
    have hfour : (4 : UInt32).toNat = 4 := rfl
    rw [hwidth, UInt32.toNat_mul, hfour]
    omega
  have hbytes : s.commitPayload.byteSize.toNat = s.bufferSize := by
    change (UInt32.ofNat s.bufferSize).toNat = _
    rw [UInt32.toNat_ofNat_of_lt' (by rw [hsize, UInt32.size]; omega)]
  refine ⟨hstride, ?_, hbytes⟩
  rw [hbytes, hstride, hsize, Nat.mod_eq_of_lt (by omega), Nat.mul_assoc 4, Nat.mul_comm]

/-! ## Messages of the compositor -/

/-- What the client makes of the bytes of the compositor. -/
def parsed {α : Type} (parse : LgpMessage → α) (msg : Msg) : Option α :=
  match recvFrom ⟨msg.encode, false⟩ with
  | some (.ok msg, ⟨[], _⟩) => some (parse msg)
  | _ => none

theorem parsed_words {α : Type} (parse : LgpMessage → α) (type : UInt16) (h : ws.length ≤ 6) :
    parsed parse ⟨type, words ws⟩ = some (parse ⟨type, words ws⟩) := by
  have hshort : headerSize + (words ws).length ≤ maxMsgSize := by
    rw [length_words, headerSize, maxMsgSize]
    omega
  rw [parsed, recvFrom_msgEncode ⟨type, words ws⟩ hshort]

theorem parsed_surfaceCreated (type w h : UInt32) :
    parsed (fun msg => (msg.msgType, WmState.parseSurfaceCreated msg.payload))
      (encodeSurfaceCreated surfaceId type w h) =
      some (LgpMessageType.wmSurfaceCreated.toU16, some ⟨surfaceId, type, w, h⟩) := by
  have hmsg : encodeSurfaceCreated surfaceId type w h =
      ⟨LgpMessageType.wmSurfaceCreated.toU16, words [surfaceId, type, w, h]⟩ := rfl
  rw [hmsg, parsed_words _ _ (by simp), WmState.parseSurfaceCreated,
    if_neg (by exact fun h => lt_irrefl _ h)]
  simp only [Option.some.injEq, Prod.mk.injEq, true_and, WmSurfaceInfo.mk.injEq]
  exact ⟨readU32Le_words 0 rfl, readU32Le_words 1 rfl, readU32Le_words 2 rfl, readU32Le_words 3 rfl⟩

theorem parsed_surfaceDestroyed :
    parsed (fun msg => (msg.msgType, WmState.parseSurfaceDestroyed msg.payload))
      (encodeSurfaceDestroyed surfaceId) =
      some (LgpMessageType.wmSurfaceDestroyed.toU16, some surfaceId) := by
  have hmsg : encodeSurfaceDestroyed surfaceId =
      ⟨LgpMessageType.wmSurfaceDestroyed.toU16, words [surfaceId]⟩ := rfl
  rw [hmsg, parsed_words _ _ (by simp), WmState.parseSurfaceDestroyed,
    if_neg (by exact fun h => lt_irrefl _ h)]
  simp only [Option.some.injEq, Prod.mk.injEq, true_and]
  exact readU32Le_words 0 rfl

theorem parsed_createReply (status surfaceId : UInt32) :
    parsed LgpSurface.checkReply (encodeCreateReply status surfaceId) =
      some (if status = 0 then .ok surfaceId
        else .error ⟨.permissionDenied,
          "CREATE_SURFACE rejected with status " ++ toString status⟩) := by
  have hmsg : encodeCreateReply status surfaceId =
      ⟨LgpMessageType.createSurfaceReply.toU16, words [status, surfaceId]⟩ := rfl
  have hstatus : readU32Le (words [status, surfaceId]) 0 = status := readU32Le_words 0 rfl
  have hid : readU32Le (words [status, surfaceId]) 4 = surfaceId := readU32Le_words 1 rfl
  rw [hmsg, parsed_words _ _ (by simp), LgpSurface.checkReply, if_neg (fun h => h rfl),
    if_neg (by exact fun h => lt_irrefl _ h)]
  rw [hstatus, hid, ite_not]

/-! ## Both directions -/

/-- What `LgpSurface::create` returns remembers what was asked for. -/
theorem ofReply_eq_ok {width height layer : UInt32} {argb : Bool}
    {memory : Except String (Nat × Nat)} {reply : LgpMessage}
    (h : LgpSurface.ofReply width height layer argb memory reply = .ok s) :
    LgpSurface.checkReply reply = .ok s.id ∧ s.width = width ∧ s.height = height ∧ s.argb = argb ∧
      s.bufferSize = width.toNat * height.toNat * 4 % 2 ^ 64 := by
  rw [LgpSurface.ofReply] at h
  split at h
  · cases h
  · next hid =>
    split at h
    · cases h
    · cases h
      exact ⟨hid, rfl, rfl, rfl, rfl⟩

/-- **The two sides agree.**  Whatever values a client passes, the compositor's decoders get them
out of the bytes that the client sends; the commit of a surface whose size was accepted at its
creation has rows without padding and a buffer of exactly these rows; and what the compositor says
about surfaces is parsed to what it put in. -/
theorem payloads_agree :
    (∀ surfaceType x y width height layer,
      decoded decodeCreate
        (LgpSurface.createRequest surfaceType x y width height layer).encode =
        some ⟨surfaceType, x, y, width, height, layer⟩) ∧
    (∀ s : LgpSurface, decoded decodeDestroy s.destroyRequest.encode = some s.id) ∧
    (∀ client p argb memory reply s, surfaceValidateRequest client p = .ok →
      LgpSurface.ofReply p.width p.height p.layer argb memory reply = .ok s →
      ∃ c, decoded decodeCommit s.commitFrame = some c ∧
        LgpSurface.checkReply reply = .ok c.surfaceId ∧ c.width = p.width ∧ c.height = p.height ∧
        c.pixelFormat = (if argb then pixelFormatArgb8888
          else pixelFormatXrgb8888) ∧
        c.stride.toNat = 4 * c.width.toNat ∧
        c.byteSize.toNat = c.stride.toNat * c.height.toNat ∧ c.byteSize.toNat = s.bufferSize) ∧
    (∀ (s : LgpSurface) x y,
      decoded decodeSetPosition (s.setPosition x y).encode = some ⟨s.id, x, y⟩) ∧
    (∀ surfaceId,
      decoded decodeSetFocus (WmState.setFocus surfaceId).encode = some surfaceId) ∧
    (∀ surfaceId state, decoded decodeSetState
      (WmState.setState surfaceId state).encode = some (surfaceId, state)) ∧
    (∀ key modifiers, decoded decodeGrabKey
      (WmState.grabKey key modifiers).encode = some (key, modifiers)) ∧
    (∀ surfaceId type w h,
      parsed (fun msg => (msg.msgType, WmState.parseSurfaceCreated msg.payload))
        (encodeSurfaceCreated surfaceId type w h) =
        some (LgpMessageType.wmSurfaceCreated.toU16, some ⟨surfaceId, type, w, h⟩)) ∧
    (∀ surfaceId,
      parsed (fun msg => (msg.msgType, WmState.parseSurfaceDestroyed msg.payload))
        (encodeSurfaceDestroyed surfaceId) =
        some (LgpMessageType.wmSurfaceDestroyed.toU16, some surfaceId)) ∧
    ∀ status surfaceId,
      parsed LgpSurface.checkReply (encodeCreateReply status surfaceId) =
        some (if status = 0 then .ok surfaceId
          else .error ⟨.permissionDenied,
            "CREATE_SURFACE rejected with status " ++ toString status⟩) := by
  refine ⟨decoded_create, decoded_destroy, ?_, decoded_setPosition, decoded_setFocus,
    decoded_setState, decoded_grabKey, parsed_surfaceCreated, parsed_surfaceDestroyed,
    parsed_createReply⟩
  intro client p argb memory reply s hok hreply
  obtain ⟨hid, hwidth, hheight, hargb, hsize⟩ := ofReply_eq_ok hreply
  obtain ⟨hstride, hbytes, hbuffer⟩ := commitPayload_size hok hwidth hsize
  refine ⟨s.commitPayload, decoded_commit s, hid, hwidth, hheight, ?_, ?_, ?_, hbuffer⟩
  · rw [← hargb]
    rfl
  · rw [hstride, ← hwidth]
    rfl
  · rw [hbytes, ← hheight]
    rfl

/-- A window of 640 × 480, created with the reply of the compositor. -/
theorem payloads_agree_window :
    ∃ c, decoded decodeCommit
        (LgpSurface.mk 7 640 480 100 true 5 1228800 4096).commitFrame = some c ∧
      c.stride.toNat = 2560 ∧ c.byteSize.toNat = 1228800 := by
  obtain ⟨c, hdecoded, -, hwidth, -, -, hstride, -, hbuffer⟩ :=
    payloads_agree.2.2.1 { fd := 3, uid := 0, sessionId := 1 } ⟨4, 20, -5, 640, 480, 100⟩ true
      (.ok (5, 4096)) ⟨0x0101, words [0, 7]⟩ _ (by decide) rfl
  refine ⟨c, hdecoded, ?_, hbuffer⟩
  rw [hstride, hwidth]
  rfl

/-! ## From the client to the compositor -/

/-- Messages that arrive as such: they are handled in order, up to the first that is refused. -/
def deliver {σ : Type} (handle : σ → Msg → σ × Bool) : σ → List LgpMessage → σ × Bool
  | s, [] => (s, true)
  | s, msg :: msgs =>
    match handle s ⟨msg.msgType, msg.payload⟩ with
    | (s, false) => (s, false)
    | (s, true) => deliver handle s msgs

theorem frame_encode {msg : LgpMessage} (h : headerSize + msg.payload.length ≤ rxBufferSize)
    (q : Bytes) :
    nextFrame (msg.encode ++ q) = .frame ⟨msg.msgType, msg.payload⟩ msg.encode.length := by
  have hlen := msg.length_encode
  have hlt : headerSize + msg.payload.length < 2 ^ 32 := Nat.lt_of_le_of_lt h (by decide)
  have htotal : (Compositor.readU32Le msg.encode 2).toNat = msg.encode.length :=
    (totalLen_header hlt msg.payload).trans hlen.symm
  have hmin : ¬ msg.encode.length < Compositor.headerSize := by
    rw [hlen]
    exact not_lt.2 (Nat.le_add_right ..)
  have hframe : nextFrame msg.encode = .frame ⟨msg.msgType, msg.payload⟩ msg.encode.length := by
    rw [nextFrame, tlvPeekHeader, if_neg hmin]
    dsimp only
    rw [htotal, if_neg (not_or.2 ⟨hmin, not_lt.2 (hlen ▸ h)⟩), if_neg (Nat.lt_irrefl _),
      take_length, tlvDecode_encode msg hlt]
  rw [nextFrame_append (by simp [hframe]), hframe]

/-- **What a client sends is what the compositor handles.**  However the frames of the client
library are cut into reads, the compositor handles the messages that were put in, in order and each
once, up to the first that it refuses; and if it refuses none, nothing is left. -/
theorem sent_delivered {σ : Type} {handle : σ → Msg → σ × Bool} {s : σ} {msgs : List LgpMessage}
    (hlen : ∀ msg ∈ msgs, headerSize + msg.payload.length ≤ rxBufferSize)
    {chunks : List Bytes} (hsent : chunks.flatten = msgs.flatMap LgpMessage.encode)
    (hfits : Run.Along (receive handle) Received.Fits ⟨s, [], false⟩ chunks) :
    let c := Run.run (receive handle) ⟨s, [], false⟩ chunks
    (c.state, !c.dropped) = deliver handle s msgs ∧ (c.dropped = false → c.rx = []) := by
  have hall : ∀ s, let r := Framing.drain tlvFormat handle s (msgs.flatMap LgpMessage.encode)
      (r.1, r.2.2) = deliver handle s msgs ∧ (r.2.2 = true → r.2.1 = []) := by
    clear hsent
    induction msgs with
    | nil => exact fun _ => ⟨rfl, fun _ => rfl⟩
    | cons msg msgs ih =>
      rw [forall_mem_cons] at hlen
      intro s
      rw [flatMap_cons, Framing.drain_eq, tlvFormat_next, frame_encode hlen.1, deliver]
      dsimp only
      rw [drop_left]
      rcases handle s ⟨msg.msgType, msg.payload⟩ with ⟨s', - | -⟩
      · exact ⟨rfl, nofun⟩
      · exact ih hlen.2 s'
  have hstart : (⟨s, [], false⟩ : Framing.Conn σ UInt8).Settled tlvFormat := fun _ => rfl
  have hsame := Framing.run_feed tlvFormat handle hstart chunks
  rw [← run_receive hstart hfits, hsent] at hsame
  have hdropped := hsame.dropped
  refine ⟨?_, fun hstays => (hsame.rx hstays).trans ((hall s).2 ?_)⟩
  · rw [hsame.state, hdropped, ← (hall s).1]
    exact congrArg _ (Bool.not_not _)
  · simpa [Framing.Conn.feed, hstays] using hdropped

/-- A greeting and a message without a payload, in three reads. -/
theorem sent_delivered_two :
    let c := Run.run (receive (logged fun _ => true)) ⟨[], [], false⟩
      [[1, 0, 7], [0, 0, 0, 7, 16, 0, 6], [0, 0, 0]]
    (c.state, !c.dropped) = deliver (logged fun _ => true) [] [⟨1, [7]⟩, ⟨16, []⟩] ∧
      (c.dropped = false → c.rx = []) :=
  sent_delivered (by decide) (by decide) (by decide)

end Lgp
