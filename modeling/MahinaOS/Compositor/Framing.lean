import MahinaOS.Compositor.Effects
import MahinaOS.Lib.Framing

/-!
# Reads and frames

A client's bytes arrive in reads of any size.  `lgp_client_read_available` appends them to a buffer
of 4096 bytes, and `lgp_client_process_messages` handles the complete frames in it.  This file is
about what the size of the reads can do: nothing.

* `tlvFormat` is the framing of the protocol as an instance of `Framing.Format`: what is at the
  front of the buffer is known from the header, and the header does not change.
* `processMessages_eq`: the loop of the compositor is `Framing.loop` with the compositor's handler,
  because no handler touches the bytes that are still to be handled.
* `Unfinished` is what may be left in the buffer: a part of one frame, and less than the buffer
  holds.  `AllSettled.step`: between two turns, nothing else is in the buffer of any client, so
  there is always room for the next read.
* **`reads_irrelevant`**: the messages handled, and whether the client is dropped after them, are
  those of all the bytes taken at once.
-/

namespace Compositor

open Run Framing List Clients

/-! ## The framing of the protocol -/

/-- What is at the front of the buffer, as `lgp_client_process_messages` sees it. -/
def nextFrame (rx : Bytes) : Next Msg :=
  match tlvPeekHeader rx with
  | none => .more
  | some (_, length) =>
    if length.toNat < headerSize ∨ length.toNat > rxBufferSize then .bad
    else if rx.length < length.toNat then .more
    else
      match tlvDecode (rx.take length.toNat) with
      | none => .bad
      | some msg => .frame msg length.toNat

variable {p rx : Bytes} {mode : Mode} {fd : Nat} {env : Nat → MsgEnv} {st : State} {client : Client}

theorem byteAt_append {offset : Nat} (h : offset < p.length) (q : Bytes) :
    byteAt (p ++ q) offset = byteAt p offset := by
  rw [byteAt, byteAt, getD_eq_getElem?_getD, getElem?_append_left h, getD_eq_getElem?_getD]

theorem readU32Le_append (h : headerSize ≤ p.length) (q : Bytes) :
    readU32Le (p ++ q) 2 = readU32Le p 2 := by
  rw [headerSize] at h
  rw [readU32Le, readU32Le, byteAt_append (by omega), byteAt_append (by omega),
    byteAt_append (by omega), byteAt_append (by omega)]

theorem readU16Le_append (h : headerSize ≤ p.length) (q : Bytes) :
    readU16Le (p ++ q) 0 = readU16Le p 0 := by
  rw [headerSize] at h
  rw [readU16Le, readU16Le, byteAt_append (by omega), byteAt_append (by omega)]

theorem tlvDecode_take (hmin : headerSize ≤ (readU32Le rx 2).toNat)
    (hlen : (readU32Le rx 2).toNat ≤ rx.length) :
    tlvDecode (rx.take (readU32Le rx 2).toNat) =
      some ⟨readU16Le rx 0, (rx.take (readU32Le rx 2).toNat).drop headerSize⟩ := by
  generalize hsize : (readU32Le rx 2).toNat = size at hmin hlen
  have hframe : (rx.take size).length = size := length_take_of_le hlen
  have hu32 : readU32Le (rx.take size) 2 = readU32Le rx 2 := by
    rw [← readU32Le_append (by omega) (rx.drop size), take_append_drop]
  have hu16 : readU16Le (rx.take size) 0 = readU16Le rx 0 := by
    rw [← readU16Le_append (by omega) (rx.drop size), take_append_drop]
  rw [tlvDecode, tlvPeekHeader, if_neg (by omega)]
  dsimp only
  rw [hu32, hu16, hsize, if_neg (by omega), take_take, Nat.min_self]

theorem nextFrame_short (h : rx.length < headerSize) : nextFrame rx = .more := by
  rw [nextFrame, tlvPeekHeader, if_pos h]

/-- With a whole header in the buffer, its length field decides. -/
theorem nextFrame_eq (h : headerSize ≤ rx.length) :
    nextFrame rx =
      let size := (readU32Le rx 2).toNat
      if size < headerSize ∨ size > rxBufferSize then .bad
      else if rx.length < size then .more
      else .frame ⟨readU16Le rx 0, (rx.take size).drop headerSize⟩ size := by
  rw [nextFrame, tlvPeekHeader, if_neg (Nat.not_lt.2 h)]
  dsimp only
  split
  · rfl
  · next hbad =>
    split
    · rfl
    · next hshort =>
      rw [not_or, Nat.not_lt] at hbad
      rw [tlvDecode_take hbad.1 (Nat.not_lt.1 hshort)]

theorem nextFrame_append (h : nextFrame rx ≠ .more) (bytes : Bytes) :
    nextFrame (rx ++ bytes) = nextFrame rx := by
  have hlen : headerSize ≤ rx.length := Nat.not_lt.1 fun hshort => h (nextFrame_short hshort)
  have hlen' : headerSize ≤ (rx ++ bytes).length := by
    rw [length_append]
    omega
  rw [nextFrame_eq hlen] at h ⊢
  rw [nextFrame_eq hlen', readU32Le_append hlen, readU16Le_append hlen]
  dsimp only at h ⊢
  split at h
  · next hbad => rw [if_pos hbad, if_pos hbad]
  · next hbad =>
    rw [if_neg hbad, if_neg hbad]
    split at h
    · exact absurd rfl h
    · next hshort =>
      rw [if_neg hshort, if_neg (by rw [length_append]; omega),
        take_append_of_le_length (Nat.not_lt.1 hshort)]

/-- A frame has a header and its payload, and all of it is in the buffer. -/
theorem nextFrame_eq_frame {msg : Msg} {size : Nat} (h : nextFrame rx = .frame msg size) :
    size = headerSize + msg.payload.length ∧ size ≤ rx.length := by
  by_cases hlen : rx.length < headerSize
  · rw [nextFrame_short hlen] at h
    cases h
  · rw [nextFrame_eq (Nat.not_lt.1 hlen)] at h
    dsimp only at h
    split at h
    · cases h
    · next hbad =>
      split at h
      · cases h
      · next hshort =>
        cases h
        rw [length_drop, length_take_of_le (Nat.not_lt.1 hshort)]
        omega

def tlvFormat : Format UInt8 Msg where
  next := nextFrame
  next_nil := rfl
  size_pos h := by
    rw [(nextFrame_eq_frame h).1, headerSize]
    omega
  size_le h := (nextFrame_eq_frame h).2
  frame_append h bytes :=
    (nextFrame_append (by rw [h]; exact fun heq => by cases heq) bytes).trans h
  bad_append h bytes := (nextFrame_append (by rw [h]; exact fun heq => by cases heq) bytes).trans h

/-! ## What is left in the buffer -/

/-- A frame: its length field has its length. -/
def IsFrame (frame : Bytes) : Prop :=
  headerSize ≤ frame.length ∧ (readU32Le frame 2).toNat = frame.length

instance (frame : Bytes) : Decidable (IsFrame frame) := inferInstanceAs (Decidable (_ ∧ _))

/-- Some of the bytes of one frame, and fewer than the buffer holds. -/
def Unfinished (rx : Bytes) : Prop :=
  (∃ frame, IsFrame frame ∧ rx <+: frame ∧ rx ≠ frame) ∧ rx.length < rxBufferSize

/-- Any start of a header can become that of some frame. -/
theorem unfinished_of_short (h : rx.length < headerSize) : Unfinished rx := by
  rw [headerSize] at h
  -- the highest byte of the length is still to come: with a 1 there, the frame is long enough
  have hpad : (rx ++ replicate (5 - rx.length) 0).length = 5 := by
    rw [length_append, length_replicate]
    omega
  generalize hhead : rx ++ replicate (5 - rx.length) 0 ++ [1] = head
  have hlen : head.length = headerSize := by
    rw [← hhead, length_append, hpad]
    rfl
  have hbyte : byteAt head 5 = 1 := by
    rw [← hhead, byteAt, getD_eq_getElem?_getD, getElem?_append_right (by omega), hpad]
    rfl
  have hsize : 2 ^ 24 ≤ (readU32Le head 2).toNat := by
    rw [readU32Le, hbyte]
    exact Nat.right_le_or
  have hframe : IsFrame (head ++ replicate ((readU32Le head 2).toNat - headerSize) 0) := by
    have hheader : headerSize = 6 := rfl
    rw [IsFrame, readU32Le_append (by omega), length_append, length_replicate]
    omega
  refine ⟨⟨_, hframe, ?_, fun heq => ?_⟩, by rw [rxBufferSize]; omega⟩
  · rw [← hhead, append_assoc, append_assoc]
    exact prefix_append _ _
  · have := congrArg length heq
    rw [length_append, hlen, headerSize] at this
    omega

theorem unfinished_of_more (h : nextFrame rx = .more) : Unfinished rx := by
  by_cases hlen : rx.length < headerSize
  · exact unfinished_of_short hlen
  · rw [nextFrame_eq (Nat.not_lt.1 hlen)] at h
    dsimp only at h
    split at h
    · cases h
    · next hbad =>
      split at h
      · next hshort =>
        have hframe : IsFrame (rx ++ replicate ((readU32Le rx 2).toNat - rx.length) 0) := by
          rw [IsFrame, readU32Le_append (Nat.not_lt.1 hlen), length_append, length_replicate]
          omega
        refine ⟨⟨_, hframe, prefix_append _ _, fun heq => ?_⟩, by omega⟩
        have := congrArg length heq
        rw [length_append, length_replicate] at this
        omega
      · cases h

/-! ## The loop of the compositor -/

/-- A message of the client behind a descriptor: it is handled, and its frame taken away. -/
def behind (mode : Mode) (fd : Nat) (s : State × (Nat → MsgEnv)) (msg : Msg) :
    (State × (Nat → MsgEnv)) × Bool :=
  match s.1.clients.find fd with
  | none => (s, true)
  | some client =>
    match handleClientMessage mode (s.2 0) s.1 client msg with
    | (st, false) => ((st, s.2), false)
    | (st, true) =>
      ((st.modifyClient fd fun c =>
        { c with rxBuf := c.rxBuf.drop (headerSize + msg.payload.length) }, fun n => s.2 (n + 1)),
        true)

theorem tlvFormat_next (rx : Bytes) : tlvFormat.next rx = nextFrame rx := rfl

/-- Handling a message leaves the clients connected, with the same bytes. -/
theorem forall₂_handleClientMessage {env : MsgEnv} {msg : Msg}
    (hclient : client ∈ st.clients.list) :
    Forall₂ (fun c c' : Client => c'.fd = c.fd ∧ c'.rxBuf = c.rxBuf)
      st.clients.list (handleClientMessage mode env st client msg).1.clients.list := by
  have heffect : Effect client st (handleClientMessage mode env st client msg).1 :=
    effect_handleClientMessage hclient
  exact .mp (fun _ _ hstep hrx => ⟨hstep.fd, hrx⟩) heffect.clients heffect.rxBuf

theorem find_handleClientMessage (mode : Mode) (env : MsgEnv) (msg : Msg)
    (hfind : st.clients.find fd = some client) :
    ∃ c, (handleClientMessage mode env st client msg).1.clients.find fd = some c ∧
      c.rxBuf = client.rxBuf := by
  obtain ⟨hclient, hfd⟩ := find_eq_some.1 hfind
  obtain ⟨c, hc, hcfd, hcrx⟩ :=
    ListUpdate.exists_of_forall₂ (forall₂_handleClientMessage hclient).flip hclient
  exact ⟨c, find_eq_some.2 ⟨hc, hcfd.trans hfd⟩, hcrx⟩

theorem processMessages_succ {fuel : Nat} (hfind : st.clients.find fd = some client) :
    processMessages mode fd (fuel + 1) env st =
      match nextFrame client.rxBuf with
      | .more => (st, true)
      | .bad => (st, false)
      | .frame msg size =>
        match handleClientMessage mode (env 0) st client msg with
        | (st, false) => (st, false)
        | (st, true) =>
          processMessages mode fd fuel (fun n => env (n + 1))
            (st.modifyClient fd fun c => { c with rxBuf := c.rxBuf.drop size }) := by
  rw [processMessages, hfind, nextFrame]
  dsimp only
  rcases tlvPeekHeader client.rxBuf with - | header
  · rfl
  · dsimp only
    split
    · rfl
    · split
      · rfl
      · rcases tlvDecode (client.rxBuf.take header.2.toNat) with - | msg
        · rfl
        · rfl

/-- **The loop of the compositor is the loop of the framing.**  And what it has left is what is in
the client's buffer. -/
theorem processMessages_eq (mode : Mode) (fd fuel : Nat) (env : Nat → MsgEnv)
    (hfind : st.clients.find fd = some client) :
    let r := loop tlvFormat (behind mode fd) fuel (st, env) client.rxBuf
    processMessages mode fd fuel env st = (r.1.1, r.2.2) ∧
      (r.2.2 = true → ∃ c, r.1.1.clients.find fd = some c ∧ c.rxBuf = r.2.1) := by
  -- on the fuel; the loops read the same buffer
  induction fuel generalizing env st client with
  | zero => exact ⟨rfl, fun _ => ⟨client, hfind, rfl⟩⟩
  | succ fuel ih =>
    rw [processMessages_succ hfind, loop, tlvFormat_next]
    cases hnext : nextFrame client.rxBuf with
    | more => exact ⟨rfl, fun _ => ⟨client, hfind, rfl⟩⟩
    | bad => exact ⟨rfl, fun h => by cases h⟩
    | frame msg size =>
      dsimp only
      obtain ⟨hsize, -⟩ := nextFrame_eq_frame hnext
      rw [behind]
      rw [hfind, ← hsize]
      dsimp only
      have hc := find_handleClientMessage mode (env 0) msg hfind
      cases hhandle : handleClientMessage mode (env 0) st client msg with
      | mk st' ok =>
        rw [hhandle] at hc
        obtain ⟨c, hc, hrx⟩ := hc
        rcases ok with - | -
        · exact ⟨rfl, fun h => by cases h⟩
        · have hfind' : (st'.modifyClient fd fun c =>
              { c with rxBuf := c.rxBuf.drop size }).clients.find fd =
                some { c with rxBuf := c.rxBuf.drop size } := find_modify hc _
          rw [← hrx]
          exact ih (fun n => env (n + 1)) hfind'

/-! ## Between two turns -/

/-- The bytes left of every client hold no complete message. -/
def AllSettled (st : State) : Prop := ∀ c ∈ st.clients.list, nextFrame c.rxBuf = .more

theorem allSettled_init : AllSettled {} := fun c hc => by cases hc

/-- The bytes left of every other client hold no complete message. -/
def OthersSettled (fd : Nat) (st : State) : Prop :=
  ∀ c ∈ st.clients.list, c.fd ≠ fd → nextFrame c.rxBuf = .more

theorem OthersSettled.behind {s : State × (Nat → MsgEnv)} (h : OthersSettled fd s.1) (msg : Msg) :
    OthersSettled fd (behind mode fd s msg).1.1 := by
  rw [Compositor.behind]
  split
  · exact h
  · next client hfind =>
    have hhandle : OthersSettled fd
        (handleClientMessage mode (s.2 0) s.1 client msg).1 := fun c hc hne => by
      obtain ⟨d, hd, hfd, hrx⟩ := ListUpdate.exists_of_forall₂
        (forall₂_handleClientMessage (find_eq_some.1 hfind).1) hc
      rw [hrx]
      exact h d hd (hfd ▸ hne)
    split
    · next heq =>
      rw [heq] at hhandle
      exact hhandle
    · next heq =>
      rw [heq] at hhandle
      intro c hc hne
      obtain ⟨d, hd, rfl⟩ := mem_modify.1 hc
      split at hne
      · next hfd => exact absurd hfd hne
      · next hfd =>
        rw [if_neg hfd]
        exact hhandle d hd hfd

theorem OthersSettled.closeFd (h : OthersSettled fd st) : AllSettled (closeFd st fd) := by
  rw [Compositor.closeFd]
  split
  · next client hfind =>
    intro c hc
    obtain ⟨hc, hne⟩ := mem_remove.1 hc
    exact h c hc ((find_eq_some.1 hfind).2 ▸ hne)
  · next hnone =>
    intro c hc
    exact h c hc fun hfd => by
      rw [find_eq_some.2 ⟨hc, hfd⟩] at hnone
      cases hnone

/-- The loop leaves no complete message, if it does not fail. -/
theorem settled_processMessages (mode : Mode) (env : Nat → MsgEnv)
    (hfind : st.clients.find fd = some client) (hothers : OthersSettled fd st) :
    OthersSettled fd (processMessages mode fd client.rxBuf.length env st).1 ∧
      ((processMessages mode fd client.rxBuf.length env st).2 = true →
        AllSettled (processMessages mode fd client.rxBuf.length env st).1) := by
  obtain ⟨heq, hleft⟩ := processMessages_eq mode fd client.rxBuf.length env hfind
  rw [heq]
  have hloop : OthersSettled fd
      (loop tlvFormat (behind mode fd) client.rxBuf.length (st, env) client.rxBuf).1.1 :=
    loop_inv (I := fun s => OthersSettled fd s.1) tlvFormat (behind mode fd)
      (fun _ msg h => .behind h msg) client.rxBuf.length client.rxBuf hothers
  refine ⟨hloop, fun hok c hc => ?_⟩
  by_cases hfd : c.fd = fd
  · obtain ⟨d, hd, hrx⟩ := hleft hok
    have hcd : c = d := by
      obtain ⟨hd, hdfd⟩ := find_eq_some.1 hd
      exact eq_of_fd hc hd (hfd.trans hdfd.symm)
    rw [hcd, hrx]
    exact next_drain tlvFormat (behind mode fd) hok
  · exact hloop c hc hfd

theorem AllSettled.readClient (h : AllSettled st) (fd : Nat) (r : Received) :
    AllSettled (readClient mode env st fd r) := by
  rw [Compositor.readClient]
  split
  · exact h
  · next client hfind =>
    split
    · exact fun c hc => h c (mem_remove.1 hc).1
    · next client' hread =>
      have hfind' : (st.modifyClient fd fun _ => client').clients.find fd =
          some { client' with fd := client.fd } := find_modify hfind _
      have hothers : OthersSettled fd (st.modifyClient fd fun _ => client') := fun c hc hne => by
        obtain ⟨d, hd, rfl⟩ := mem_modify.1 hc
        split at hne
        · next hfd => exact absurd hfd hne
        · next hfd =>
          rw [if_neg hfd]
          exact h d hd
      obtain ⟨hrest, hall⟩ := settled_processMessages mode env hfind' hothers
      dsimp only at hrest hall ⊢
      split
      · next heq =>
        rw [heq] at hall
        exact hall rfl
      · next heq =>
        rw [heq] at hrest
        exact hrest.closeFd

theorem AllSettled.accept (h : AllSettled st) (fd : Nat) (uid : UInt32) (watched : Bool) :
    AllSettled (accept st fd uid watched) := by
  rw [Compositor.accept]
  split
  · exact h
  · dsimp only
    split
    · intro c hc
      rcases mem_cons.1 hc with rfl | hc
      · rfl
      · exact h c hc
    · exact h

/-- **Always room.**  Every turn leaves the buffers of all clients without a complete message. -/
theorem AllSettled.step (h : AllSettled st) (mode : Mode) (e : Event) :
    AllSettled (step mode st e) := by
  refine inv_step (fun _ _ _ h => h) ?_ ?_ ?_ h
  · exact fun fd uid watched _ h => h.accept fd uid watched
  · exact fun fd r _ h => h.readClient fd r
  · exact fun fd h => OthersSettled.closeFd fun c hc _ => h c hc

/-! ## Any reads -/

/-- One read of a client, as far as its bytes go: `lgp_client_read_available` takes at most what the
buffer has room for, and fails if it is full, and `lgp_client_process_messages` handles what is
complete. -/
def receive {σ : Type} (handle : σ → Msg → σ × Bool) (c : Conn σ UInt8) (bytes : Bytes) :
    Conn σ UInt8 :=
  if c.dropped then c
  else
    let available := rxBufferSize - c.rx.length
    if available = 0 then { c with dropped := true }
    else c.feed tlvFormat handle (bytes.take available)

/-- A turn in which a client is read is `receive` with the compositor's handler. -/
theorem readClient_eq (mode : Mode) (env : Nat → MsgEnv) {client' : Client} {r : Received}
    (hfind : st.clients.find fd = some client) (hread : readAvailable client r = some client') :
    let c := receive (behind mode fd)
      ⟨(st.modifyClient fd fun _ => client', env), client.rxBuf, false⟩ r.bytes
    readClient mode env st fd r = if c.dropped then closeFd c.state.1 fd else c.state.1 := by
  have hfind' : (st.modifyClient fd fun _ => client').clients.find fd =
      some { client' with fd := client.fd } := find_modify hfind _
  obtain ⟨hloop, -⟩ := processMessages_eq mode fd client'.rxBuf.length env hfind'
  obtain ⟨hroom, hclient⟩ := readAvailable_eq hread
  have hrx : client'.rxBuf =
      client.rxBuf ++ r.bytes.take (rxBufferSize - client.rxBuf.length) :=
    congrArg Client.rxBuf hclient
  simp only [readClient, hfind, hread, hloop, receive, hroom, Conn.feed, ← hrx, drain]
  cases (loop tlvFormat (behind mode fd) client'.rxBuf.length
    (st.modifyClient fd fun _ => client', env) client'.rxBuf).2.2 <;> rfl

/-- `recvmsg` returns no more bytes than it was asked for. -/
def Received.Fits {σ : Type} (c : Conn σ UInt8) (bytes : Bytes) : Prop :=
  c.dropped = false → c.rx.length + bytes.length ≤ rxBufferSize

instance {σ : Type} (c : Conn σ UInt8) (bytes : Bytes) : Decidable (Received.Fits c bytes) :=
  inferInstanceAs (Decidable (_ → _))

/-- The handler that keeps the messages and decides by the messages so far. -/
def logged (verdict : List Msg → Bool) (log : List Msg) (msg : Msg) : List Msg × Bool :=
  (log ++ [msg], verdict (log ++ [msg]))

section Receive

variable {σ : Type} {handle : σ → Msg → σ × Bool} {c : Conn σ UInt8}

/-- A buffer without a complete message has room, so a read is a read. -/
theorem receive_eq_feed (h : c.Settled tlvFormat) {bytes : Bytes}
    (hfits : Received.Fits c bytes) : receive handle c bytes = c.feed tlvFormat handle bytes := by
  rw [receive]
  split
  · next hdropped => rw [Conn.feed, if_pos hdropped]
  · next hdropped =>
    have hdropped : c.dropped = false := by simpa using hdropped
    have hroom := (unfinished_of_more (h hdropped)).2
    have hlen := hfits hdropped
    rw [if_neg (by omega), take_of_length_le (by omega)]

/-- Reads that fit are reads of a receiver without a limit. -/
theorem run_receive (h : c.Settled tlvFormat) {chunks : List Bytes}
    (hfits : Along (receive handle) Received.Fits c chunks) :
    run (receive handle) c chunks = run (Conn.feed tlvFormat handle) c chunks := by
  induction chunks generalizing c with
  | nil => rfl
  | cons bytes chunks ih =>
    show run (receive handle) (receive handle c bytes) chunks = _
    have hrest := hfits.2
    rw [receive_eq_feed h hfits.1] at hrest ⊢
    exact ih (Conn.settled_feed tlvFormat handle h bytes) hrest

end Receive

/-- **Reads do not matter.**  For every verdict on the messages so far, and however the bytes of a
client are cut into reads, the messages handled and whether the client is dropped after them are
those of all the bytes at once; and as long as it is not dropped, what is left is a part of one
frame and smaller than the buffer.  Between the turns of the compositor, that is so for every
client, so the buffer is never full when a client is read. -/
theorem reads_irrelevant {verdict : List Msg → Bool} {chunks : List Bytes}
    (hfits : Along (receive (logged verdict)) Received.Fits ⟨[], [], false⟩ chunks) :
    let c := run (receive (logged verdict)) ⟨[], [], false⟩ chunks
    let whole := drain tlvFormat (logged verdict) [] chunks.flatten
    c.state = whole.1 ∧ c.dropped = !whole.2.2 ∧
      (c.dropped = false → c.rx = whole.2.1 ∧ Unfinished c.rx) ∧
      ∀ mode events, ∀ client ∈ (run (step mode) {} events).clients.list,
        Unfinished client.rxBuf := by
  have hstart : (⟨[], [], false⟩ : Conn (List Msg) UInt8).Settled tlvFormat := fun _ => rfl
  have hrun := run_receive hstart hfits
  have hsame := run_feed tlvFormat (logged verdict) hstart chunks
  have hsettled : (run (receive (logged verdict)) ⟨[], [], false⟩ chunks).Settled tlvFormat := by
    rw [hrun]
    exact inv_run_of_forall (I := Conn.Settled tlvFormat)
      (fun _ bytes h => Conn.settled_feed tlvFormat (logged verdict) h bytes) hstart chunks
  rw [← hrun] at hsame
  refine ⟨hsame.state, hsame.dropped, fun hstays => ?_, fun mode events client hclient => ?_⟩
  · exact ⟨hsame.rx hstays, unfinished_of_more (hsettled hstays)⟩
  · have hall : AllSettled (run (step mode) {} events) :=
      inv_run_of_forall (I := AllSettled) (fun _ e h => h.step mode e) allSettled_init events
    exact unfinished_of_more (hall client hclient)

/-- Two frames and the first byte of a third, in three reads. -/
def sampleReads : List Bytes := [[1, 0, 8], [0, 0, 0, 7, 7, 16, 0, 6, 0], [0, 0, 5]]

theorem reads_irrelevant_sample :
    let c := run (receive (logged fun _ => true)) ⟨[], [], false⟩ sampleReads
    c.state = [⟨MsgType.hello, [7, 7]⟩, ⟨MsgType.fillRect, []⟩] ∧ c.dropped = false ∧
      c.state = (drain tlvFormat (logged fun _ => true) [] sampleReads.flatten).1 ∧
      Unfinished c.rx := by
  have hfits :
      Along (receive (logged fun _ => true)) Received.Fits ⟨[], [], false⟩ sampleReads := by
    decide +kernel
  obtain ⟨hstate, -, hleft, -⟩ := reads_irrelevant hfits
  have hstays :
      (run (receive (logged fun _ => true)) ⟨[], [], false⟩ sampleReads).dropped = false := by
    decide +kernel
  exact ⟨by decide +kernel, hstays, hstate, (hleft hstays).2⟩

end Compositor
