import MahinaOS.Lgp.Codec

/-!
# Two readers of one stream

A client of the compositor reads its socket in two ways.  `LgpConnection::recv` reads as much as
there is and keeps what follows the first frame in `rx_buf`; `LgpSurface::create` sends its request
and reads exactly one frame off the socket, past that buffer, and takes whatever it finds for the
reply.

* `LgpConnection.recv` and `LgpConnection.create` are the two, with the sizes of the reads chosen by
  the system.  A call that still waits has no result, and leaves everything as it is.
* What the calls should do is `idealRecv`, which takes the next of the frames that the compositor
  has sent, and `idealCreate`, which takes the first reply and leaves the others.  A `Receiver`
  keeps the connection together with those frames, and a call is `Faithful` if it does the same.
* `recv` is always faithful (`faithful_recv`), because the framing does not look ahead.
* **`calls_faithful`**: `create` is faithful if the buffer holds exactly the frames before the reply
  (`Aligned`), and runs of such calls lose nothing.  At the start of a frame the condition is exact.
  **`reply_missed`** shows what happens otherwise.
-/

namespace Lgp

open Run Framing List

/-! ## The connection -/

/-- The receiving side of `LgpConnection`. -/
structure LgpConnection where
  socket : Socket
  rxBuf : Bytes := []
  deriving DecidableEq, Repr

/-- The length field in the first bytes. -/
def totalLen (rx : Bytes) : Nat := (readU32Le rx 2).toNat

/-- What `recv` finds at the front of its buffer. -/
def nextFrame (rx : Bytes) : Next LgpMessage :=
  if headerSize ≤ rx.length then
    if totalLen rx < headerSize ∨ totalLen rx > maxMsgSize then .bad
    else if totalLen rx ≤ rx.length then
      .frame ⟨readU16Le (rx.take (totalLen rx)) 0, (rx.take (totalLen rx)).drop headerSize⟩
        (totalLen rx)
    else .more
  else .more

namespace LgpConnection

/-- `stream.read` of at most 4096 bytes; the system decides how many of those that have arrived it
gives. -/
def read (c : LgpConnection) (n : Nat) : LgpConnection where
  socket := { c.socket with bytes := c.socket.bytes.drop (min (n + 1) 4096) }
  rxBuf := c.rxBuf ++ c.socket.bytes.take (min (n + 1) 4096)

/-- The loop of `recv`; `reads` are the sizes of the reads, and the result is `none` while it waits
for more bytes. -/
def recvLoop : Nat → (Nat → Nat) → LgpConnection →
    Option (Except IoError LgpMessage × LgpConnection)
  | 0, _, _ => none
  | fuel + 1, reads, c =>
    match nextFrame c.rxBuf with
    | .bad =>
      some (.error ⟨.invalidData, "invalid LGP total_len " ++ toString (totalLen c.rxBuf)⟩, c)
    | .frame msg size => some (.ok msg, { c with rxBuf := c.rxBuf.drop size })
    | .more =>
      if c.socket.bytes = [] then
        if c.socket.closed then some (.error ⟨.unexpectedEof, "connection closed"⟩, c) else none
      else recvLoop fuel (fun k => reads (k + 1)) (c.read (reads 0))

/-- `LgpConnection::recv`.  Every read gives at least one byte. -/
def recv (reads : Nat → Nat) (c : LgpConnection) :
    Option (Except IoError LgpMessage × LgpConnection) :=
  recvLoop (c.socket.bytes.length + 1) reads c

end LgpConnection

/-- The arguments of `LgpSurface::create` that matter after the request was sent, and the memory
that the system gives. -/
structure CreateCall where
  width : UInt32
  height : UInt32
  layer : UInt32
  argb : Bool
  memory : Except String (Nat × Nat)

/-- What `LgpSurface::create` makes of the reply. -/
def CreateCall.result (call : CreateCall) (reply : LgpMessage) : Except IoError LgpSurface :=
  LgpSurface.ofReply call.width call.height call.layer call.argb call.memory reply

/-- `LgpSurface::create`, which reads the reply off the socket; `none` while it waits. -/
def LgpConnection.create (call : CreateCall) (c : LgpConnection) :
    Option (Except IoError LgpSurface × LgpConnection) :=
  match recvFrom c.socket with
  | none => none
  | some (.error e, socket) => some (.error e, { c with socket := socket })
  | some (.ok reply, socket) => some (call.result reply, { c with socket := socket })

/-! ## Frames in the buffer -/

theorem totalLen_append {p : Bytes} (h : headerSize ≤ p.length) (q : Bytes) :
    totalLen (p ++ q) = totalLen p :=
  congrArg UInt32.toNat (Compositor.readU32Le_append h q)

/-- The framing of the client. -/
def lgpFormat : Format UInt8 LgpMessage :=
  Format.headed headerSize maxMsgSize (by decide) totalLen
    (fun frame => ⟨readU16Le frame 0, frame.drop headerSize⟩) fun _ q h => totalLen_append h q

/-- A message that is not longer than the client accepts. -/
structure Frame where
  msg : LgpMessage
  fits : headerSize + msg.payload.length ≤ maxMsgSize

/-- The bytes of a sequence of frames. -/
def encodeAll (frames : List Frame) : Bytes := frames.flatMap (·.msg.encode)

theorem encodeAll_cons (f : Frame) (frames : List Frame) :
    encodeAll (f :: frames) = f.msg.encode ++ encodeAll frames := flatMap_cons

theorem encodeAll_append (frames frames' : List Frame) :
    encodeAll (frames ++ frames') = encodeAll frames ++ encodeAll frames' := flatMap_append

theorem nextFrame_encode (f : Frame) (q : Bytes) :
    nextFrame (f.msg.encode ++ q) = .frame f.msg f.msg.encode.length := by
  have hmax : maxMsgSize < 2 ^ 32 := by decide
  have hfits := f.fits
  have hlen := f.msg.length_encode
  have htotal : totalLen f.msg.encode = f.msg.encode.length := by
    rw [hlen]
    exact totalLen_header (Nat.lt_of_le_of_lt hfits hmax) f.msg.payload
  have htype : readU16Le f.msg.encode 0 = f.msg.msgType := msgType_header f.msg f.msg.payload
  have happend := totalLen_append (p := f.msg.encode) (by omega) q
  rw [nextFrame, if_pos (by rw [length_append]; omega), happend, htotal, if_neg (by omega),
    if_pos (by rw [length_append]; omega), take_left, htype]
  rfl

/-! ## What `recv` does -/

namespace LgpConnection

/-- The bytes that the client has not handled. -/
def unread (c : LgpConnection) : Bytes := c.rxBuf ++ c.socket.bytes

theorem unread_read (c : LgpConnection) (n : Nat) : (c.read n).unread = c.unread := by
  rw [unread, read, append_assoc, take_append_drop]
  rfl

variable {fuel : Nat} {c : LgpConnection} {msg : LgpMessage} {reads : Nat → Nat}

/-- However its reads cut the stream, `recv` returns the next frame and keeps what follows. -/
theorem recvLoop_frame (reads : Nat → Nat) (hfuel : c.socket.bytes.length < fuel) {size : Nat}
    (h : nextFrame c.unread = .frame msg size) :
    ∃ c', recvLoop fuel reads c = some (.ok msg, c') ∧ c'.unread = c.unread.drop size ∧
      c'.socket.closed = c.socket.closed := by
  induction fuel generalizing reads c with
  | zero => exact absurd hfuel (Nat.not_lt_zero _)
  | succ fuel ih =>
    rw [recvLoop]
    cases hnext : nextFrame c.rxBuf with
    | bad =>
      have hbad : nextFrame c.unread = .bad := lgpFormat.bad_append hnext _
      rw [hbad] at h
      cases h
    | frame msg' size' =>
      have hframe : nextFrame c.unread = .frame msg' size' := lgpFormat.frame_append hnext _
      rw [hframe] at h
      cases h
      exact ⟨_, rfl, (drop_append_of_le_length (lgpFormat.size_le hnext)).symm, rfl⟩
    | more =>
      dsimp only
      split
      · next hempty =>
        rw [unread, hempty, append_nil, hnext] at h
        cases h
      · next hsome =>
        have hpos : 0 < c.socket.bytes.length := length_pos_iff.2 hsome
        have hless : (c.read (reads 0)).socket.bytes.length < fuel := by
          rw [read, length_drop]
          omega
        obtain ⟨c', hloop, hunread, hclosed⟩ :=
          ih _ hless (by rw [unread_read]; exact h)
        exact ⟨c', hloop, hunread.trans (by rw [unread_read]), hclosed⟩

/-- What `recv` returns was at the front of the bytes, and the others are left. -/
theorem recvLoop_ok {c' : LgpConnection} (h : recvLoop fuel reads c = some (.ok msg, c')) :
    ∃ size, nextFrame c.unread = .frame msg size ∧ c'.unread = c.unread.drop size := by
  induction fuel generalizing reads c with
  | zero => cases h
  | succ fuel ih =>
    rw [recvLoop] at h
    split at h
    · cases h
    · next size hnext =>
      cases h
      exact ⟨size, lgpFormat.frame_append hnext _,
        (drop_append_of_le_length (lgpFormat.size_le hnext)).symm⟩
    · split at h
      · split at h <;> cases h
      · rw [← c.unread_read (reads 0)]
        exact ih h

/-- `recv` only fails when its buffer has no frame. -/
theorem recvLoop_error {c' : LgpConnection} {e : IoError}
    (h : recvLoop fuel reads c = some (.error e, c')) {size : Nat} :
    nextFrame c'.rxBuf ≠ .frame msg size := by
  induction fuel generalizing reads c with
  | zero => cases h
  | succ fuel ih =>
    rw [recvLoop] at h
    split at h
    · next hnext =>
      cases h
      rw [hnext]
      exact fun heq => by cases heq
    · cases h
    · next hnext =>
      split at h
      · split at h
        · cases h
          rw [hnext]
          exact fun heq => by cases heq
        · cases h
      · exact ih h

theorem recv_nil (reads : Nat → Nat) (h : c.unread = []) :
    c.recv reads =
      if c.socket.closed then some (.error ⟨.unexpectedEof, "connection closed"⟩, c) else none := by
  obtain ⟨hrx, hbytes⟩ := append_eq_nil_iff.1 h
  rw [recv, recvLoop, hrx, hbytes]
  rfl

end LgpConnection

/-! ## What the calls should do -/

/-- The replies that `LgpSurface::create` waits for. -/
def Frame.isReply (f : Frame) : Bool := f.msg.msgType == LgpMessageType.createSurfaceReply.toU16

/-- The next frame, if there is one. -/
def idealRecv (pending : List Frame) (closed : Bool) :
    Option (Except IoError LgpMessage × List Frame) :=
  match pending with
  | f :: pending => some (.ok f.msg, pending)
  | [] => if closed then some (.error ⟨.unexpectedEof, "connection closed"⟩, []) else none

/-- The first reply, if there is one; the other frames stay. -/
def idealCreate (call : CreateCall) (pending : List Frame) (closed : Bool) :
    Option (Except IoError LgpSurface × List Frame) :=
  match pending.find? Frame.isReply with
  | some reply => some (call.result reply.msg, pending.eraseP Frame.isReply)
  | none =>
    if closed then some (.error ⟨.unexpectedEof, "failed to fill whole buffer"⟩, pending) else none

/-- A client: its connection, and the frames that the compositor has sent and that no call has
taken. -/
structure Receiver where
  conn : LgpConnection
  pending : List Frame

/-- What happens to a client. -/
inductive Call where
  | arrive (frames : List Frame)
  | close
  | recv (reads : Nat → Nat)
  | create (call : CreateCall)

/-- What a call leaves; one that still waits leaves everything as it is. -/
def afterCall {α β : Type} (outcome : Option (α × β)) (before : β) : β :=
  (outcome.map Prod.snd).getD before

def Receiver.step (s : Receiver) : Call → Receiver
  | .arrive frames =>
    ⟨{ s.conn with socket := ⟨s.conn.socket.bytes ++ encodeAll frames, s.conn.socket.closed⟩ },
      s.pending ++ frames⟩
  | .close => { s with conn := { s.conn with socket := ⟨s.conn.socket.bytes, true⟩ } }
  | .recv reads =>
    ⟨afterCall (s.conn.recv reads) s.conn,
      afterCall (idealRecv s.pending s.conn.socket.closed) s.pending⟩
  | .create call =>
    ⟨afterCall (s.conn.create call) s.conn,
      afterCall (idealCreate call s.pending s.conn.socket.closed) s.pending⟩

/-- A call waits or returns as it should, and what it leaves unread are the frames that nobody has
taken. -/
def Matches {α : Type} : Option (Except IoError α × LgpConnection) →
    Option (Except IoError α × List Frame) → Prop
  | none, none => True
  | some (got, c), some (want, pending) => got = want ∧ c.unread = encodeAll pending
  | _, _ => False

namespace Receiver

/-- No frame is lost or split: the client has yet to read exactly those that nobody has taken. -/
def Intact (s : Receiver) : Prop := s.conn.unread = encodeAll s.pending

def Faithful (s : Receiver) : Call → Prop
  | .recv reads => Matches (s.conn.recv reads) (idealRecv s.pending s.conn.socket.closed)
  | .create call =>
    Matches (s.conn.create call) (idealCreate call s.pending s.conn.socket.closed)
  | _ => True

/-- `LgpSurface::create` is called when the buffer of `recv` holds the frames before the reply, all
of them and nothing else. -/
def Aligned (s : Receiver) : Call → Prop
  | .create _ => s.conn.rxBuf = encodeAll (s.pending.takeWhile fun f => !f.isReply)
  | _ => True

/-! ## One call -/

variable {c : LgpConnection} {pending : List Frame} {s : Receiver} {f : Frame} {call : CreateCall}

variable {α : Type} {got : Option (Except IoError α × LgpConnection)} {rest : List Frame}

theorem unread_afterCall {want : Option (Except IoError α × List Frame)}
    (h : c.unread = encodeAll pending) (hmatch : Matches got want) :
    (afterCall got c).unread = encodeAll (afterCall want pending) := by
  match got, want, hmatch with
  | none, none, _ => exact h
  | some (_, _), some (_, _), hmatch => exact hmatch.2

/-- A call that does what it should loses nothing. -/
theorem intact_step (h : s.Intact) {call : Call} (hfaithful : s.Faithful call) :
    (s.step call).Intact := by
  cases call with
  | arrive frames =>
    have happend : s.conn.rxBuf ++ (s.conn.socket.bytes ++ encodeAll frames) =
        encodeAll s.pending ++ encodeAll frames := by
      rw [← append_assoc]
      exact congrArg (· ++ encodeAll frames) h
    exact happend.trans (encodeAll_append _ _).symm
  | close => exact h
  | recv | create => exact unread_afterCall h hfaithful

/-- `recv` does what it should, however the stream is cut. -/
theorem faithful_recv (h : s.Intact) (reads : Nat → Nat) : s.Faithful (.recv reads) := by
  rw [Faithful]
  rcases hpending : s.pending with - | ⟨f, rest⟩
  · have hnil : s.conn.unread = [] := by
      rw [h, hpending]
      rfl
    rw [LgpConnection.recv_nil reads hnil]
    rcases s.conn.socket.closed with - | -
    · trivial
    · exact ⟨rfl, hnil⟩
  · have hunread : s.conn.unread = f.msg.encode ++ encodeAll rest := by
      rw [h, hpending, encodeAll_cons]
    have hnext : nextFrame s.conn.unread = .frame f.msg f.msg.encode.length := by
      rw [hunread, nextFrame_encode]
    obtain ⟨c', hrecv, hrest, -⟩ :=
      LgpConnection.recvLoop_frame reads (Nat.lt_succ_self _) hnext
    rw [LgpConnection.recv, hrecv]
    exact ⟨rfl, by rw [hrest, hunread, drop_left]⟩

theorem create_cons (call : CreateCall) {frames : List Frame}
    (h : c.socket.bytes = encodeAll (f :: frames)) :
    c.create call =
      some (call.result f.msg, ⟨⟨encodeAll frames, c.socket.closed⟩, c.rxBuf⟩) := by
  have hread : recvFrom c.socket = some (.ok f.msg, ⟨encodeAll frames, c.socket.closed⟩) := by
    rw [← recvFrom_encode f.msg f.fits, ← encodeAll_cons, ← h]
  rw [LgpConnection.create, hread]

theorem create_nil (call : CreateCall) (h : c.socket.bytes = []) :
    c.create call =
      if c.socket.closed then some (.error ⟨.unexpectedEof, "failed to fill whole buffer"⟩, c)
      else none := by
  obtain ⟨⟨bytes, closed⟩, rxBuf⟩ := c
  subst h
  cases closed <;> rfl

theorem bytes_eq (h : s.Intact) {buffered : List Frame}
    (hpending : s.pending = buffered ++ rest) (hrx : s.conn.rxBuf = encodeAll buffered) :
    s.conn.socket.bytes = encodeAll rest := by
  have hsplit : s.conn.rxBuf ++ s.conn.socket.bytes = encodeAll buffered ++ encodeAll rest := by
    rw [← encodeAll_append, ← hpending]
    exact h
  rw [hrx] at hsplit
  exact append_cancel_left hsplit

theorem idealCreate_append (call : CreateCall) {before : List Frame}
    (hbefore : ∀ f ∈ before, f.isReply = false) {reply : Frame} (hreply : reply.isReply = true)
    (after : List Frame) (closed : Bool) :
    idealCreate call (before ++ reply :: after) closed =
      some (call.result reply.msg, before ++ after) := by
  have hfind : (before ++ reply :: after).find? Frame.isReply = some reply := by
    rw [find?_append, find?_eq_none.2 fun f hf => by simp [hbefore f hf], Option.none_or,
      find?_cons_of_pos hreply]
  have herase : (before ++ reply :: after).eraseP Frame.isReply = before ++ after := by
    rw [eraseP_append_right _ fun f hf => by simp [hbefore f hf], eraseP_cons_of_pos hreply]
  rw [idealCreate, hfind, herase]

theorem idealCreate_none (call : CreateCall) (h : ∀ f ∈ pending, f.isReply = false)
    (closed : Bool) :
    idealCreate call pending closed =
      if closed then some (.error ⟨.unexpectedEof, "failed to fill whole buffer"⟩, pending)
      else none := by
  rw [idealCreate, find?_eq_none.2 fun f hf => by simp [h f hf]]

theorem split_reply (pending : List Frame) :
    (∀ f ∈ pending.takeWhile fun f => !f.isReply, f.isReply = false) ∧
      (pending.takeWhile (fun f => !f.isReply) = pending ∨
        ∃ reply after, reply.isReply = true ∧
          pending = pending.takeWhile (fun f => !f.isReply) ++ reply :: after) := by
  induction pending with
  | nil => exact ⟨fun f hf => by simp at hf, .inl rfl⟩
  | cons f pending ih =>
    cases hf : f.isReply with
    | true => exact ⟨fun g hg => by simp [hf] at hg, .inr ⟨f, pending, hf, by simp [hf]⟩⟩
    | false =>
      have htake : (f :: pending).takeWhile (fun f => !f.isReply) =
          f :: pending.takeWhile fun f => !f.isReply := takeWhile_cons_of_pos (by simp [hf])
      rw [htake]
      refine ⟨fun g hg => ?_, ih.2.imp (congrArg (f :: ·)) ?_⟩
      · rcases mem_cons.1 hg with rfl | hg
        · exact hf
        · exact ih.1 g hg
      · rintro ⟨reply, after, hreply, hpending⟩
        exact ⟨reply, after, hreply, congrArg (f :: ·) hpending⟩

/-- With the frames before the reply in the buffer, `create` does what it should. -/
theorem faithful_create (h : s.Intact) (call : CreateCall) (haligned : s.Aligned (.create call)) :
    s.Faithful (.create call) := by
  rw [Faithful]
  obtain ⟨hbefore, hall | ⟨reply, after, hreply, hpending⟩⟩ := split_reply s.pending
  · -- there is no reply, and nothing on the socket
    rw [Aligned, hall] at haligned
    have hbytes := bytes_eq h (append_nil s.pending).symm haligned
    rw [hall] at hbefore
    rw [create_nil call hbytes, idealCreate_none call hbefore]
    rcases s.conn.socket.closed with - | -
    · trivial
    · exact ⟨rfl, h⟩
  · have hbytes := bytes_eq h hpending haligned
    rw [create_cons call hbytes, hpending, idealCreate_append call hbefore hreply]
    refine ⟨rfl, ?_⟩
    rw [encodeAll_append]
    exact congrArg (· ++ encodeAll after) haligned

theorem result_of_not_isReply (call : CreateCall) (h : f.isReply = false) :
    call.result f.msg =
      .error ⟨.invalidData, "expected CREATE_SURFACE_REPLY, got 0x" ++ hex f.msg.msgType⟩ := by
  have htype : f.msg.msgType ≠ LgpMessageType.createSurfaceReply.toU16 := fun heq => by
    rw [Frame.isReply, heq] at h
    cases h
  rw [CreateCall.result, LgpSurface.ofReply, LgpSurface.checkReply, if_pos htype]

theorem result_of_isReply (call : CreateCall) (h : f.isReply = true) (text : String) :
    call.result f.msg ≠
      .error ⟨.invalidData, "expected CREATE_SURFACE_REPLY, got 0x" ++ text⟩ := by
  have htype : ¬f.msg.msgType ≠ LgpMessageType.createSurfaceReply.toU16 :=
    not_not.2 (beq_iff_eq.1 h)
  rw [CreateCall.result, LgpSurface.ofReply, LgpSurface.checkReply, if_neg htype]
  intro heq
  split at heq
  · next e he =>
    cases heq
    split at he
    · have htext : "CREATE_SURFACE_REPLY payload too short" =
          "expected CREATE_SURFACE_REPLY, got 0x" ++ text := by
        injection he with he
        injection he
      have hfirst := congrArg (fun t : String => t.toList.head?) htext
      simp at hfirst
    · dsimp only at he
      split at he
      · cases he
      · cases he
  · split at heq
    · cases heq
    · cases heq

/-- When everything is in the buffer, a `create` that does what it should has no reply there, for it
would not look. -/
theorem aligned_of_buffered (h : s.Intact) (hrx : s.conn.rxBuf = encodeAll s.pending)
    (hfaithful : s.Faithful (.create call)) : s.Aligned (.create call) := by
  have hbytes := bytes_eq h (append_nil s.pending).symm hrx
  rw [Faithful] at hfaithful
  obtain ⟨hbefore, hsplit⟩ := split_reply s.pending
  rcases hsplit with hall | ⟨reply, after, hreply, hsplit⟩
  · rw [Aligned, hall]
    exact hrx
  · rw [create_nil call hbytes, hsplit, idealCreate_append call hbefore hreply] at hfaithful
    rcases hclosed : s.conn.socket.closed with - | -
    · rw [hclosed] at hfaithful
      exact hfaithful.elim
    -- the stream has ended, and the reply would have to be gone
    · rw [hclosed] at hfaithful
      have hunread : encodeAll (s.pending.takeWhile (fun f => !f.isReply) ++ after) = _ :=
        hfaithful.2.symm.trans (h.trans (congrArg encodeAll hsplit))
      have hlen := congrArg length hunread
      have hpos : 0 < reply.msg.encode.length := by
        rw [LgpMessage.length_encode, headerSize]
        omega
      rw [encodeAll_append, encodeAll_append, encodeAll_cons] at hlen
      simp only [length_append] at hlen
      omega

/-- A `create` that does what it should does not find an event on the socket. -/
theorem isReply_of_faithful (hbytes : s.conn.socket.bytes = encodeAll (f :: rest))
    (hfaithful : s.Faithful (.create call)) : f.isReply = true := by
  by_contra hf
  rw [Bool.not_eq_true] at hf
  rw [Faithful, create_cons call hbytes, result_of_not_isReply call hf] at hfaithful
  obtain ⟨hbefore, hsplit⟩ := split_reply s.pending
  rcases hsplit with hall | ⟨reply, after, hreply, hsplit⟩
  · rw [hall] at hbefore
    rw [idealCreate_none call hbefore] at hfaithful
    rcases hclosed : s.conn.socket.closed with - | -
    · rw [hclosed] at hfaithful
      exact hfaithful.elim
    · rw [hclosed] at hfaithful
      cases hfaithful.1
  · rw [hsplit, idealCreate_append call hbefore hreply] at hfaithful
    exact absurd hfaithful.1.symm (result_of_isReply call hreply _)

/-- **Where the socket is at the start of a frame**, and one reply at most is on its way, the frames
before the reply must be in the buffer for `create` to do what it should. -/
theorem faithful_create_iff (h : s.Intact) (call : CreateCall) {buffered : List Frame}
    (hpending : s.pending = buffered ++ rest) (hrx : s.conn.rxBuf = encodeAll buffered)
    (hone : s.pending.countP Frame.isReply ≤ 1) :
    s.Faithful (.create call) ↔ s.Aligned (.create call) := by
  refine ⟨fun hfaithful => ?_, faithful_create h call⟩
  rcases rest with - | ⟨f, rest⟩
  · rw [append_nil] at hpending
    exact aligned_of_buffered h (hpending ▸ hrx) hfaithful
  · have hf := isReply_of_faithful (bytes_eq h hpending hrx) hfaithful
    -- it is the only one, so that there is none in the buffer
    have hnone : ∀ g ∈ buffered, (!g.isReply) = true := fun g hg => by
      rw [hpending, countP_append, countP_cons_of_pos hf] at hone
      have hzero : buffered.countP Frame.isReply = 0 := by omega
      have := countP_eq_zero.1 hzero g hg
      simpa using this
    have htake : s.pending.takeWhile (fun f => !f.isReply) = buffered := by
      rw [hpending, takeWhile_append_of_pos hnone, takeWhile_cons_of_neg (by simp [hf]), append_nil]
    rw [Aligned, htake]
    exact hrx

/-! ## Every run -/

theorem faithful_of_aligned (h : s.Intact) {call : Call} (haligned : s.Aligned call) :
    s.Faithful call := by
  cases call with
  | arrive frames => trivial
  | close => trivial
  | recv reads => exact faithful_recv h reads
  | create call => exact faithful_create h call haligned

theorem eq_some_of_matches {r : Except IoError α} (h : Matches got (some (r, pending))) :
    ∃ c, got = some (r, c) := by
  match got, h with
  | some (_, c), h => exact ⟨c, congrArg (fun r => some (r, c)) h.1⟩

theorem result_ok (call : CreateCall) (hreply : f.isReply = true) {surfaceId : UInt32}
    (hpayload : f.msg.payload = (Compositor.encodeCreateReply 0 surfaceId).payload)
    {mem : Nat × Nat} (hmem : call.memory = .ok mem) :
    ∃ surface, call.result f.msg = .ok surface ∧ surface.id = surfaceId := by
  have hmsg : f.msg = ⟨LgpMessageType.createSurfaceReply.toU16, words [0, surfaceId]⟩ := by
    exact congrArg₂ LgpMessage.mk (beq_iff_eq.1 hreply) hpayload
  have hcheck : LgpSurface.checkReply f.msg = .ok surfaceId := by
    have hparsed := parsed_createReply 0 surfaceId
    rw [hmsg]
    exact Option.some.inj ((parsed_words _ _ (by simp)).symm.trans hparsed)
  rw [CreateCall.result, LgpSurface.ofReply, hcheck, hmem]
  exact ⟨_, rfl, rfl⟩

/-- **Nothing is lost between `recv` and `create`** as long as every `create` finds in the buffer
exactly the frames before its reply: every call waits or returns as it should, whatever the
compositor sends and however the stream is cut, and a surface is there once the compositor has
agreed and there is memory for it.  Where the socket is at the start of a frame, and one reply at
most is on its way, this is also needed. -/
theorem calls_faithful {s : Receiver} (h : s.Intact) :
    (∀ calls : List Call, Along step Aligned s calls →
      Along step Faithful s calls ∧ (run step s calls).Intact) ∧
    (∀ (call : CreateCall) (reply : Frame) (surfaceId : UInt32) (mem : Nat × Nat),
      s.Aligned (.create call) → s.pending.find? Frame.isReply = some reply →
      reply.msg.payload = (Compositor.encodeCreateReply 0 surfaceId).payload →
      call.memory = .ok mem →
      ∃ surface c, s.conn.create call = some (.ok surface, c) ∧ surface.id = surfaceId) ∧
    ∀ (call : CreateCall) (buffered rest : List Frame),
      s.pending = buffered ++ rest → s.conn.rxBuf = encodeAll buffered →
      s.pending.countP Frame.isReply ≤ 1 →
      (s.Faithful (.create call) ↔ s.Aligned (.create call)) := by
  have hstep : ∀ (s : Receiver) (call : Call), s.Intact → s.Aligned call → (s.step call).Intact :=
    fun s call h haligned => intact_step h (faithful_of_aligned h haligned)
  refine ⟨fun calls haligned => ⟨?_, inv_run hstep h haligned⟩, ?_,
    fun call buffered rest hpending hrx hone => faithful_create_iff h call hpending hrx hone⟩
  · refine (along_iff (H := Aligned) (I := Intact) (C := fun _ _ => True)
      (fun s call h haligned _ => hstep s call h haligned) (fun s call h haligned => ?_) h
      haligned).2 (along_trivial s calls)
    exact iff_of_true (faithful_of_aligned h haligned) trivial
  · intro call reply surfaceId mem haligned hfind hpayload hmem
    have hfaithful := faithful_create h call haligned
    rw [Faithful, idealCreate, hfind] at hfaithful
    obtain ⟨c, hcreate⟩ := eq_some_of_matches hfaithful
    obtain ⟨surface, hresult, hid⟩ :=
      result_ok call (find?_some hfind) hpayload hmem
    exact ⟨surface, c, hcreate.trans (congrArg (fun r => some (r, c)) hresult), hid⟩

def start : Receiver := ⟨{ socket := ⟨[], false⟩ }, []⟩

def motion : Frame := ⟨.new .pointerMotion (words [5, 6]), by decide⟩

def agreed : Frame := ⟨.new .createSurfaceReply (words [0, 7]), by decide⟩

def smallWindow : CreateCall := ⟨2, 2, 100, true, .ok (5, 4096)⟩

/-- `recv` takes the event first, and the reply stays on the socket. -/
theorem calls_faithful_start :
    Along step Faithful start
      [.arrive [motion], .recv fun _ => 100, .arrive [agreed], .create smallWindow] := by
  refine ((calls_faithful (s := start) rfl).1 _ ?_).1
  exact ⟨trivial, trivial, trivial, rfl, trivial⟩

/-- **Events and replies get mixed up.**  With an event before the reply, `create` fails though the
compositor agreed, and the event is gone.  If `recv` has read both before, `create` waits for a
reply that is in the buffer; and if it has read half of the reply, the other half is no message. -/
theorem reply_missed :
    (start.step (.arrive [motion, agreed])).conn.create smallWindow =
        some (.error ⟨.invalidData, "expected CREATE_SURFACE_REPLY, got 0x0110"⟩,
          ⟨⟨agreed.msg.encode, false⟩, []⟩) ∧
      (run step start [.arrive [motion, agreed], .recv fun _ => 100]).conn.create smallWindow =
        none ∧
      (run step start [.arrive [motion, agreed], .recv fun _ => 19]).conn.create smallWindow =
        some (.error ⟨.invalidData, "invalid or oversized LGP message total_len: 458752"⟩,
          ⟨⟨[0, 0], false⟩, [1, 1, 14, 0, 0, 0]⟩) ∧
      ¬Along step Faithful start [.arrive [motion, agreed], .create smallWindow] := by
  have hfails : (start.step (.arrive [motion, agreed])).conn.create smallWindow =
      some (.error ⟨.invalidData, "expected CREATE_SURFACE_REPLY, got 0x0110"⟩,
        ⟨⟨agreed.msg.encode, false⟩, []⟩) := by rfl
  refine ⟨hfails, by rfl, by rfl, fun h => ?_⟩
  have hmatch : Matches ((start.step (.arrive [motion, agreed])).conn.create smallWindow)
    (some (.ok ⟨7, 2, 2, 100, true, 5, 16, 4096⟩, [motion])) := h.2.1
  cases hmatch.1

end Receiver

end Lgp
