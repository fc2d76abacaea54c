import MahinaOS.Compositor.Turns

/-!
# Descriptors received from clients

A client attaches the descriptor of a buffer to its `COMMIT_BUFFER` messages.  `recvmsg` puts the
descriptors in a control buffer, `lgp_client_queue_fd` moves them one by one to the client's queue,
and a commit takes one from the queue, maps the buffer and closes it.  What is still in the queue
when the client goes is closed with it.

* `State.buffers` is what the compositor keeps of a client's bytes and descriptors, and
  `buffers_move` says what each move does to it.
* `Move.received`, `Move.closed` and `Move.leaked` are the descriptors that a move receives from a
  client, closes for it, and loses: those of a read whose control data was truncated, and all but
  one of those that find the queue full.
* `balance_run`: in a run, what was received is in the queue, closed or lost.
* **`descriptors_closed_iff`**: every descriptor of a client that is gone has been closed exactly
  once if and only if no read has lost one.  `descriptors_left_open` has two that do.
-/

namespace Compositor

open Run Framing List Option Clients

/-! ## The buffers of a client -/

/-- The bytes and the descriptors of a client that are still to be handled. -/
def State.buffers (st : State) (fd : Nat) : Option (Bytes × List Nat) :=
  (st.clients.find fd).map fun c => (c.rxBuf, c.pendingFds)

/-- `lgp_handle_commit_buffer` gets to `lgp_client_take_fd`. -/
def takesFd (client : Client) (msg : Msg) : Bool := client.helloDone && (decodeCommit msg).isSome

section Buffers

variable {mode : Mode} {env : MsgEnv} {st st' : State} {client : Client} {msg : Msg}

theorem find_modify_eq (cs : Clients) (fd g : Nat) (f : Client → Client) :
    (cs.modify fd f).find g =
      (cs.find g).map fun c => if c.fd = fd then { f c with fd := c.fd } else c := by
  rw [Clients.find, Clients.modify, find?_map]
  congr 2
  funext c
  simp only [Function.comp]
  split <;> rfl

variable {fd : Nat}

theorem find_remove_of_ne {cs : Clients} {g : Nat} (h : g ≠ fd) :
    (cs.remove fd).find g = cs.find g := by
  rw [find, remove, find?_filter]
  congr 1
  funext c
  by_cases hc : c.fd = g
  · simp [hc, h]
  · simp [hc]

theorem buffers_eq_of_clients (h : st'.clients = st.clients) (g : Nat) :
    st'.buffers g = st.buffers g := by
  rw [State.buffers, State.buffers, h]

theorem buffers_modifyClient_same {f : Client → Client} (hrx : ∀ c, (f c).rxBuf = c.rxBuf)
    (hfds : ∀ c, (f c).pendingFds = c.pendingFds) (g : Nat) :
    (st.modifyClient fd f).buffers g = st.buffers g := by
  rw [State.buffers, State.modifyClient, find_modify_eq, Option.map_map]
  congr 1
  funext c
  simp only [Function.comp]
  split
  · rw [hrx, hfds]
  · rfl

theorem buffers_modifyClient (hfind : st.clients.find fd = some client) (f : Client → Client)
    (g : Nat) :
    (st.modifyClient fd f).buffers g =
      if g = fd then some ((f client).rxBuf, (f client).pendingFds) else st.buffers g := by
  rw [State.buffers, State.modifyClient, find_modify_eq]
  split
  · next hg =>
    rw [hg, hfind]
    simp [(find_eq_some.1 hfind).2]
  · next hg =>
    rw [State.buffers]
    rcases hc : st.clients.find g with - | c
    · rfl
    · have hne : c.fd ≠ fd := fun h => hg ((find_eq_some.1 hc).2.symm.trans h)
      simp [hne]

theorem buffers_of_find (hfind : st.clients.find fd = some client) :
    st.buffers fd = some (client.rxBuf, client.pendingFds) := by
  rw [State.buffers, hfind]
  rfl

theorem buffers_registerWm (st : State) (fd g : Nat) :
    (registerWm st fd).buffers g = st.buffers g := by
  rw [registerWm]
  split
  · rfl
  · split
    · split
      · exact buffers_modifyClient_same (fun _ => by rfl) (fun _ => by rfl) g
      · rfl
    · rfl

theorem buffers_handleHello (g : Nat) :
    (handleHello mode env st client msg).1.buffers g = st.buffers g := by
  rw [handleHello]
  rcases helloHandle_cases env st client msg with heq | ⟨requested, done, -, heq⟩
  · rw [heq]
  · have hgranted : (st.granted client (capsNegotiate client.uid requested) done).buffers g =
        st.buffers g := buffers_modifyClient_same (fun _ => by rfl) (fun _ => by rfl) g
    rw [heq]
    rcases done with - | -
    · exact hgranted
    · exact (buffers_registerWm _ client.fd g).trans hgranted

/-- A message other than a commit that is decoded leaves all the queues alone. -/
theorem buffers_handleClientMessage_other (htakes : takesFd client msg = false) (g : Nat) :
    (handleClientMessage mode env st client msg).1.buffers g = st.buffers g := by
  have hhandled := handled_handleClientMessage mode env st client msg
  generalize handleClientMessage mode env st client msg = r at hhandled ⊢
  rcases hhandled with - | - | ⟨hdone, -⟩ | - | ⟨-, -, -, hcalm⟩
  · rfl
  · exact buffers_handleHello g
  · have hdecode : decodeCommit msg = none := by simpa [takesFd, hdone] using htakes
    rw [handleCommitBuffer, hdecode]
  · refine buffers_eq_of_clients ?_ g
    rw [handleWmGrabKey]
    repeat' split
    all_goals rfl
  · exact buffers_eq_of_clients hcalm.clients g

theorem handleClientMessage_commit (hdone : client.helloDone = true)
    (htype : msg.type = MsgType.commitBuffer) :
    handleClientMessage mode env st client msg = handleCommitBuffer env st client msg := by
  have hhello : MsgType.commitBuffer ≠ MsgType.hello := by decide
  have hne : ∀ type, MsgType.commitBuffer ≠ type → msg.type ≠ type := fun type h => htype ▸ h
  rw [handleClientMessage, if_neg (by simp [hdone]), if_neg (by simp [htype, hdone, hhello]),
    if_neg (hne _ (by decide)), if_neg (hne _ (by decide)), if_neg (hne _ (by decide)),
    if_neg (hne _ (by decide)), if_pos htype]

theorem type_of_decodeCommit {p : CommitPayload} (h : decodeCommit msg = some p) :
    msg.type = MsgType.commitBuffer := by
  rw [decodeCommit] at h
  split at h
  · cases h
  · next hok => exact not_not.1 fun hne => hok (.inl hne)

/-- **The queues after a message**: a commit that is decoded takes one descriptor of its sender. -/
theorem buffers_handleClientMessage (mode : Mode) (env : MsgEnv) (msg : Msg)
    (hfind : st.clients.find fd = some client) (g : Nat) :
    (handleClientMessage mode env st client msg).1.buffers g =
      if g = fd then
        some (client.rxBuf,
          if takesFd client msg then client.pendingFds.tail else client.pendingFds)
      else st.buffers g := by
  rcases htakes : takesFd client msg with - | -
  · rw [buffers_handleClientMessage_other htakes]
    split
    · next hg =>
      rw [hg, buffers_of_find hfind]
      rfl
    · rfl
  · rw [takesFd, Bool.and_eq_true] at htakes
    obtain ⟨p, hp⟩ := isSome_iff_exists.1 htakes.2
    obtain ⟨-, hfd⟩ := find_eq_some.1 hfind
    have hclients : (handleCommitBuffer env st client msg).1.clients =
        (st.modifyClient fd fun c => (takeFd c).2).clients := by
      rw [handleCommitBuffer, hp, hfd]
      dsimp only
      split <;> rfl
    rw [handleClientMessage_commit htakes.1 (type_of_decodeCommit hp),
      buffers_eq_of_clients hclients, buffers_modifyClient hfind]
    rfl

theorem buffers_closeFd (st : State) (fd g : Nat) :
    (closeFd st fd).buffers g = if g = fd then none else st.buffers g := by
  split
  · next hg => rw [hg, State.buffers, find_closeFd, map_none]
  · next hg =>
    rw [closeFd]
    rcases hfind : st.clients.find fd with - | client
    · rfl
    · have hne : g ≠ client.fd := (find_eq_some.1 hfind).2 ▸ hg
      exact congrArg (Option.map _) (find_remove_of_ne hne)

theorem buffers_takeFrom (st : State) (fd : Nat) (r : Received) (g : Nat) :
    (takeFrom st fd r).buffers g =
      if g = fd then
        (st.clients.find fd).bind fun c =>
          (readAvailable c r).map fun c' => (c'.rxBuf, c'.pendingFds)
      else st.buffers g := by
  rw [takeFrom]
  rcases hfind : st.clients.find fd with - | client
  · by_cases hg : g = fd
    · rw [if_pos hg, hg, State.buffers, hfind]
      rfl
    · rw [if_neg hg]
  · rcases hread : readAvailable client r with - | client'
    · have hclose := buffers_closeFd st fd g
      rw [closeFd, hfind] at hclose
      simpa [hread] using hclose
    · have hmodify := buffers_modifyClient hfind (fun _ => client') g
      simpa [hread] using hmodify

theorem buffers_handleFirst (mode : Mode) (env : MsgEnv) (st : State) (fd g : Nat) :
    (handleFirst mode env st fd).buffers g =
      if g = fd then
        (st.clients.find fd).bind fun c =>
          match nextFrame c.rxBuf with
          | .more => some (c.rxBuf, c.pendingFds)
          | .bad => none
          | .frame msg size =>
            if (handleClientMessage mode env st c msg).2 then
              some (c.rxBuf.drop size, if takesFd c msg then c.pendingFds.tail else c.pendingFds)
            else none
      else st.buffers g := by
  rw [handleFirst]
  rcases hfind : st.clients.find fd with - | client
  · by_cases hg : g = fd
    · rw [if_pos hg, hg, State.buffers, hfind]
      rfl
    · rw [if_neg hg]
  · rw [bind_some]
    dsimp only
    cases hnext : nextFrame client.rxBuf with
    | more =>
      by_cases hg : g = fd
      · rw [if_pos hg, hg, buffers_of_find hfind]
      · rw [if_neg hg]
    | bad => exact buffers_closeFd st fd g
    | frame msg size =>
      have hbuffers := buffers_handleClientMessage mode env msg hfind
      have hafter := find_handleClientMessage mode env msg hfind
      dsimp only
      cases hhandle : handleClientMessage mode env st client msg with
      | mk st' ok =>
        rw [hhandle] at hbuffers hafter
        rcases ok with - | -
        · rw [buffers_closeFd]
          split
          · rfl
          · next hg => rw [hbuffers, if_neg hg]
        · obtain ⟨c, hc, -⟩ := hafter
          have hfd := hbuffers fd
          rw [if_pos rfl, buffers_of_find hc, some_inj, Prod.mk.injEq] at hfd
          rw [buffers_modifyClient hc]
          split
          · rw [hfd.1, hfd.2]
            rfl
          · next hg => rw [hbuffers, if_neg hg]

theorem buffers_accept (st : State) (fd : Nat) (uid : UInt32) (watched : Bool) (g : Nat) :
    (accept st fd uid watched).buffers g =
      if g = fd ∧ watched = true ∧ st.buffers fd = none then some ([], []) else st.buffers g := by
  have hnone : fd ∉ st.clients.list.map Client.fd ↔ st.buffers fd = none := by
    rw [State.buffers, map_eq_none_iff, find]
    simp
  rw [accept]
  split
  · next hmem => rw [if_neg fun h => hnone.2 h.2.2 hmem]
  · next hmem =>
    dsimp only
    split
    · next hwatched =>
      rw [State.buffers, find, add]
      by_cases hg : g = fd
      · subst hg
        simp [hwatched, hnone.1 hmem]
      · have hne : ¬fd = g := fun h => hg h.symm
        simp [hg, hne, State.buffers, find]
    · next hwatched => simp [hwatched, State.buffers]

/-- The moves that have to do with no client's socket. -/
def Move.isInput : Move → Bool
  | .begin | .key _ _ _ | .motion _ _ | .button _ _ _ _ => true
  | _ => false

theorem clients_move_input {m : Move} (hm : m.isInput = true) (mode : Mode) (st : State) :
    (move mode st m).clients = st.clients := by
  obtain ⟨hkey, hmotion, hbutton⟩ := inv_input (I := fun st' => st'.clients = st.clients)
    (fun _ _ _ h => h) rfl
  cases m with
  | begin => rfl
  | key key keyState modifiers => exact hkey key keyState modifiers
  | motion x y => exact hmotion x y
  | button x y button pressed => exact hbutton x y button pressed
  | accept | take | message | close => cases hm

end Buffers

/-! ## Where a descriptor goes -/

/-- The loop of `lgp_client_read_available` over the descriptors of a control message, with
`lgp_client_queue_fd`: the queue, what was closed, and whether all of them fit. -/
def queueFds : List Nat → List Nat → List Nat × List Nat × Bool
  | pending, [] => (pending, [], true)
  | pending, fd :: fds =>
    if pending.length ≥ maxPendingFds then (pending, [fd], false)
    else queueFds (pending ++ [fd]) fds

/-- What `lgp_surface_manager_commit` closes. -/
def SurfaceManager.commitCloses (m : SurfaceManager) (client : Client) (p : CommitPayload)
    (bufferFd : Option Nat) : List Nat :=
  match bufferFd with
  | none => []
  | some fd =>
    match m.find p.surfaceId with
    | none => [fd]
    | some surface =>
      if surface.ownerSessionId ≠ client.sessionId then [fd]
      else if !commitFits p surface then [fd]
      -- after `mmap`, whether it worked or not
      else [fd]

/-- What handling a message closes. -/
def messageCloses (st : State) (client : Client) (msg : Msg) : List Nat :=
  if client.helloDone then
    match decodeCommit msg with
    | none => []
    | some p => st.surfaceManager.commitCloses client p (takeFd client).1
  else []

/-- The descriptors of a client that are in its queue. -/
def State.pending (st : State) (fd : Nat) : List Nat := (st.buffers fd).elim [] Prod.snd

/-- The descriptors that a read receives; a full buffer is not read into. -/
def readReceived (c : Client) (r : Received) : List Nat :=
  if rxBufferSize - c.rxBuf.length = 0 then [] else r.fds

/-- The descriptors that a read closes, with those in the queue if the client is closed for it. -/
def readClosed (c : Client) (r : Received) : List Nat :=
  if rxBufferSize - c.rxBuf.length = 0 then c.pendingFds
  else if r.ctrunc then c.pendingFds
  else
    match queueFds c.pendingFds r.fds with
    | (_, closed, true) => closed
    | (queue, closed, false) => closed ++ queue

/-- The descriptors that a read receives and neither queues nor closes. -/
def readLeaked (c : Client) (r : Received) : List Nat :=
  if rxBufferSize - c.rxBuf.length = 0 then []
  else if r.ctrunc then r.fds
  else r.fds.drop (maxPendingFds - c.pendingFds.length + 1)

/-- The descriptors that a message of a client closes, with those in the queue if the client is
closed for it. -/
def messageClosed (mode : Mode) (env : MsgEnv) (st : State) (fd : Nat) (c : Client) : List Nat :=
  match nextFrame c.rxBuf with
  | .more => []
  | .bad => c.pendingFds
  | .frame msg _ =>
    match handleClientMessage mode env st c msg with
    | (_, true) => messageCloses st c msg
    | (st', false) => messageCloses st c msg ++ st'.pending fd

/-- The descriptors that a move receives from a client. -/
def Move.received (fd : Nat) (st : State) : Move → List Nat
  | .take f r => if f = fd then (st.clients.find fd).elim [] (readReceived · r) else []
  | _ => []

/-- The descriptors of a client that a move closes; `lgp_client_destroy` closes those in the
queue. -/
def Move.closed (mode : Mode) (fd : Nat) (st : State) : Move → List Nat
  | .take f r => if f = fd then (st.clients.find fd).elim [] (readClosed · r) else []
  | .message f env =>
    if f = fd then (st.clients.find fd).elim [] (messageClosed mode env st fd) else []
  | .close f => if f = fd then st.pending fd else []
  | _ => []

/-- The descriptors of a client that a move loses. -/
def Move.leaked (fd : Nat) (st : State) : Move → List Nat
  | .take f r => if f = fd then (st.clients.find fd).elim [] (readLeaked · r) else []
  | _ => []

/-- A read whose control data is truncated brings no descriptors, and any other brings at most one
more than the queue has room for. -/
def NoLeak (fd : Nat) (st : State) : Move → Prop
  | .take f r =>
    f = fd → ∀ c ∈ st.clients.find fd, c.rxBuf.length < rxBufferSize →
      if r.ctrunc then r.fds = [] else c.pendingFds.length + r.fds.length ≤ maxPendingFds + 1
  | _ => True

instance (fd : Nat) (st : State) (m : Move) : Decidable (NoLeak fd st m) := by
  unfold NoLeak
  split <;> infer_instance

/-! ## Nothing else happens to a descriptor -/

section Balance

variable {mode : Mode} {st : State} {m : Move} {fd : Nat}

theorem queueFds_eq {pending : List Nat} (h : pending.length ≤ maxPendingFds) (fds : List Nat) :
    queueFds pending fds =
      if pending.length + fds.length ≤ maxPendingFds then (pending ++ fds, [], true)
      else
        let room := maxPendingFds - pending.length
        (pending ++ fds.take room, (fds.drop room).take 1, false) := by
  induction fds generalizing pending with
  | nil => simp [queueFds, h]
  | cons fd fds ih =>
    rw [queueFds]
    split
    · next hfull =>
      have hroom : maxPendingFds - pending.length = 0 := by omega
      rw [if_neg (by rw [length_cons]; omega), hroom]
      simp
    · next hroom =>
      have hlen : (pending ++ [fd]).length = pending.length + 1 := by simp
      rw [ih (by omega), hlen]
      simp only [length_cons, append_assoc, singleton_append]
      by_cases hfits : pending.length + (fds.length + 1) ≤ maxPendingFds
      · rw [if_pos (by omega), if_pos hfits]
      · have hsucc : maxPendingFds - pending.length = maxPendingFds - (pending.length + 1) + 1 := by
          omega
        rw [if_neg (by omega), if_neg hfits, hsucc]
        simp

theorem commitCloses_eq (m : SurfaceManager) (client : Client) (p : CommitPayload)
    (bufferFd : Option Nat) : m.commitCloses client p bufferFd = bufferFd.toList := by
  rcases bufferFd with - | fd
  · rfl
  · rw [SurfaceManager.commitCloses]
    repeat' split
    all_goals rfl

theorem messageCloses_eq (st : State) (client : Client) (msg : Msg) :
    messageCloses st client msg =
      if takesFd client msg then client.pendingFds.head?.toList else [] := by
  rw [messageCloses, takesFd]
  rcases client.helloDone with - | -
  · rfl
  · rcases decodeCommit msg with - | p
    · rfl
    · exact commitCloses_eq _ _ _ _

variable {c : Client}

theorem pending_of_find (hfind : st.clients.find fd = some c) : st.pending fd = c.pendingFds := by
  rw [State.pending, buffers_of_find hfind]
  rfl

theorem pending_of_none (hfind : st.clients.find fd = none) : st.pending fd = [] := by
  rw [State.pending, State.buffers, hfind]
  rfl

/-- A message takes from the queue what it closes. -/
theorem head_append_tail (client : Client) (msg : Msg) (st : State) :
    client.pendingFds = messageCloses st client msg ++
      if takesFd client msg then client.pendingFds.tail else client.pendingFds := by
  rw [messageCloses_eq]
  rcases takesFd client msg with - | -
  · rfl
  · cases client.pendingFds <;> rfl

/-- What a move has to do with the descriptors of a client: the queue before it and what it receives
are the queue after it, what it closes and what it loses; and the queue does not get too long. -/
structure Balanced (mode : Mode) (fd : Nat) (st : State) (m : Move) : Prop where
  length : ((move mode st m).pending fd).length ≤ maxPendingFds
  count : ∀ d, (st.pending fd).count d + (m.received fd st).count d =
    ((move mode st m).pending fd).count d + (m.closed mode fd st).count d +
      (m.leaked fd st).count d

theorem balanced_of_same (hlen : (st.pending fd).length ≤ maxPendingFds)
    (hbuffers : (move mode st m).pending fd = st.pending fd) (hreceived : m.received fd st = [])
    (hclosed : m.closed mode fd st = []) (hleaked : m.leaked fd st = []) :
    Balanced mode fd st m := by
  refine ⟨by rwa [hbuffers], fun d => ?_⟩
  rw [hbuffers, hreceived, hclosed, hleaked]
  rfl

theorem length_pending_readAvailable (c : Client) (r : Received) :
    (((readAvailable c r).map Client.pendingFds).getD []).length ≤ maxPendingFds := by
  rw [readAvailable]
  split
  · exact Nat.zero_le _
  · split
    · exact Nat.zero_le _
    · split
      · exact Nat.zero_le _
      · next hfits =>
        show (c.pendingFds ++ r.fds).length ≤ maxPendingFds
        rw [length_append]
        omega

theorem count_readAvailable (hlen : c.pendingFds.length ≤ maxPendingFds) (r : Received) (d : Nat) :
    c.pendingFds.count d + (readReceived c r).count d =
      (((readAvailable c r).map Client.pendingFds).getD []).count d + (readClosed c r).count d +
        (readLeaked c r).count d := by
  rw [readAvailable, readReceived, readClosed, readLeaked]
  by_cases hroom : rxBufferSize - c.rxBuf.length = 0
  · simp [hroom]
  · by_cases hctrunc : r.ctrunc = true
    · simp [hroom, hctrunc]
    · rw [queueFds_eq hlen]
      simp only [if_neg hroom, if_neg hctrunc]
      by_cases hfits : c.pendingFds.length + r.fds.length ≤ maxPendingFds
      · have hdrop : r.fds.drop (maxPendingFds - c.pendingFds.length + 1) = [] :=
          drop_eq_nil_of_le (by omega)
        rw [if_pos hfits, if_neg (by omega), hdrop]
        simp
      · -- as many as there is room for, the one that is closed, and the others
        have hsplit : r.fds = r.fds.take (maxPendingFds - c.pendingFds.length) ++
            ((r.fds.drop (maxPendingFds - c.pendingFds.length)).take 1 ++
              r.fds.drop (maxPendingFds - c.pendingFds.length + 1)) := by
          rw [← drop_drop, take_append_drop, take_append_drop]
        have hcount := congrArg (count d) hsplit
        rw [if_neg hfits, if_pos (by omega)]
        simp only [count_append, map_none, getD_none, count_nil] at hcount ⊢
        omega

theorem balanced_take (hlen : (st.pending fd).length ≤ maxPendingFds) (f : Nat) (r : Received) :
    Balanced mode fd st (.take f r) := by
  have hbuffers := buffers_takeFrom st f r fd
  by_cases hf : f = fd
  · subst hf
    rw [if_pos rfl] at hbuffers
    rcases hfind : st.clients.find f with - | c
    · refine balanced_of_same hlen ?_ ?_ ?_ ?_
      · rw [pending_of_none hfind, State.pending, move, hbuffers, hfind]
        rfl
      · simp [Move.received, hfind]
      · simp [Move.closed, hfind]
      · simp [Move.leaked, hfind]
    · rw [pending_of_find hfind] at hlen
      rw [hfind, bind_some] at hbuffers
      have hpending : (move mode st (.take f r)).pending f =
          ((readAvailable c r).map Client.pendingFds).getD [] := by
        rw [State.pending, move, hbuffers]
        cases readAvailable c r <;> rfl
      constructor
      · rw [hpending]
        exact length_pending_readAvailable c r
      · intro d
        rw [pending_of_find hfind, hpending]
        simpa [Move.received, Move.closed, Move.leaked, hfind] using count_readAvailable hlen r d
  · refine balanced_of_same hlen ?_ ?_ ?_ ?_
    · rw [State.pending, move, hbuffers, if_neg (Ne.symm hf)]
      rfl
    · simp [Move.received, hf]
    · simp [Move.closed, hf]
    · simp [Move.leaked, hf]

/-- A complete message is handled: it takes the first descriptor out of the queue or leaves the
queue alone, and a refused one ends with the queue closed. -/
theorem balanced_frame (hfind : st.clients.find fd = some c)
    (hlen : c.pendingFds.length ≤ maxPendingFds) {msg : Msg} {size : Nat}
    (hnext : nextFrame c.rxBuf = .frame msg size) (env : MsgEnv) :
    Balanced mode fd st (.message fd env) := by
  have hsplit := congrArg length (head_append_tail c msg st)
  have hafter := buffers_handleClientMessage mode env msg hfind fd
  have hpending : (move mode st (.message fd env)).pending fd =
      ((handleFirst mode env st fd).buffers fd).elim [] Prod.snd := rfl
  rw [buffers_handleFirst, if_pos rfl, hfind, bind_some, hnext] at hpending
  rw [if_pos rfl] at hafter
  dsimp only at hpending
  rw [length_append] at hsplit
  cases hhandle : handleClientMessage mode env st c msg with
  | mk st' ok =>
    rw [hhandle] at hpending hafter
    have hcount := fun d => congrArg (count d) (head_append_tail c msg st)
    simp only [count_append] at hcount
    cases ok with
    | true =>
      have hqueue : (move mode st (.message fd env)).pending fd =
          if takesFd c msg then c.pendingFds.tail else c.pendingFds := hpending
      refine ⟨by rw [hqueue]; omega, fun d => ?_⟩
      rw [hqueue, pending_of_find hfind]
      simp only [Move.received, Move.closed, Move.leaked, messageClosed, hfind, hnext, hhandle,
        if_true, elim_some]
      have := hcount d
      omega
    | false =>
      have hnil : (move mode st (.message fd env)).pending fd = [] := hpending
      have hqueue : st'.pending fd =
          if takesFd c msg then c.pendingFds.tail else c.pendingFds := by
        rw [State.pending, hafter]
        rfl
      refine ⟨by rw [hnil]; exact Nat.zero_le _, fun d => ?_⟩
      rw [hnil, pending_of_find hfind]
      simp only [Move.received, Move.closed, Move.leaked, messageClosed, hfind, hnext, hhandle,
        if_true, elim_some, count_nil, count_append, hqueue]
      have := hcount d
      omega

theorem balanced_message (hlen : (st.pending fd).length ≤ maxPendingFds) (f : Nat) (env : MsgEnv) :
    Balanced mode fd st (.message f env) := by
  have hbuffers := buffers_handleFirst mode env st f fd
  by_cases hf : f = fd
  · subst hf
    rw [if_pos rfl] at hbuffers
    rcases hfind : st.clients.find f with - | c
    · refine balanced_of_same hlen ?_ rfl ?_ rfl
      · rw [pending_of_none hfind, State.pending, move, hbuffers, hfind]
        rfl
      · simp [Move.closed, hfind]
    · rw [hfind, bind_some] at hbuffers
      have hpending : (move mode st (.message f env)).pending f =
          ((handleFirst mode env st f).buffers f).elim [] Prod.snd := rfl
      rw [hbuffers] at hpending
      cases hnext : nextFrame c.rxBuf with
      | more =>
        refine balanced_of_same hlen ?_ rfl ?_ rfl
        · rw [hpending, hnext, pending_of_find hfind]
          rfl
        · simp [Move.closed, messageClosed, hfind, hnext]
      | bad =>
        have hnil : (move mode st (.message f env)).pending f = [] := by
          rw [hpending, hnext]
          rfl
        refine ⟨by rw [hnil]; exact Nat.zero_le _, fun d => ?_⟩
        rw [hnil, pending_of_find hfind]
        simp [Move.received, Move.closed, Move.leaked, messageClosed, hfind, hnext]
      | frame msg size => exact balanced_frame hfind (pending_of_find hfind ▸ hlen) hnext env
  · refine balanced_of_same hlen ?_ rfl ?_ rfl
    · rw [State.pending, move, hbuffers, if_neg (Ne.symm hf)]
      rfl
    · simp [Move.closed, hf]

theorem balanced_move (mode : Mode) (hlen : (st.pending fd).length ≤ maxPendingFds) (m : Move) :
    Balanced mode fd st m := by
  have hinput : m.isInput = true → (move mode st m).pending fd = st.pending fd := fun hm => by
    rw [State.pending, buffers_eq_of_clients (clients_move_input hm mode st), State.pending]
  cases m with
  | take f r => exact balanced_take hlen f r
  | message f env => exact balanced_message hlen f env
  | accept f uid watched =>
    refine balanced_of_same hlen ?_ rfl rfl rfl
    rw [State.pending, move, buffers_accept, State.pending]
    split
    · next h => rw [h.1, h.2.2]; rfl
    · rfl
  | close f =>
    have hbuffers := buffers_closeFd st f fd
    by_cases hf : f = fd
    · subst hf
      have hnil : (move mode st (.close f)).pending f = [] := by
        rw [State.pending, move, hbuffers, if_pos rfl]
        rfl
      refine ⟨by rw [hnil]; exact Nat.zero_le _, fun d => ?_⟩
      rw [hnil]
      simp [Move.received, Move.closed, Move.leaked]
    · refine balanced_of_same hlen ?_ rfl (by simp [Move.closed, hf]) rfl
      rw [State.pending, move, hbuffers, if_neg (Ne.symm hf)]
      rfl
  | begin | key | motion | button => exact balanced_of_same hlen (hinput rfl) rfl rfl rfl

/-- **A run.**  What was received is in the queue, closed or lost. -/
theorem balance_run (mode : Mode) (fd : Nat) {st : State}
    (hlen : (st.pending fd).length ≤ maxPendingFds) (ms : List Move) (d : Nat) :
    (st.pending fd).count d + (trace (move mode) (Move.received fd) st ms).count d =
      ((run (move mode) st ms).pending fd).count d +
        (trace (move mode) (Move.closed mode fd) st ms).count d +
        (trace (move mode) (Move.leaked fd) st ms).count d := by
  induction ms generalizing st with
  | nil => simp [run, trace]
  | cons m ms ih =>
    have hmove := balanced_move mode hlen m
    have hrest := ih hmove.length
    have hcount := hmove.count d
    simp only [run, trace, count_append]
    omega

theorem leaked_eq_nil_iff (hlen : (st.pending fd).length ≤ maxPendingFds) :
    m.leaked fd st = [] ↔ NoLeak fd st m := by
  cases m with
  | take f r =>
    rw [Move.leaked, NoLeak]
    by_cases hf : f = fd
    · subst hf
      rcases hfind : st.clients.find f with - | c
      · simp
      · rw [pending_of_find hfind] at hlen
        rw [if_pos rfl, elim_some, readLeaked]
        by_cases hroom : rxBufferSize - c.rxBuf.length = 0
        · have hfull : ¬c.rxBuf.length < rxBufferSize := by omega
          simp [hroom, hfull]
        · have hfull : c.rxBuf.length < rxBufferSize := by omega
          cases hctrunc : r.ctrunc with
          | true => simp [hroom, hfull]
          | false =>
            simp only [if_neg hroom, Bool.false_eq_true, if_false, drop_eq_nil_iff]
            constructor
            · rintro h - c' hc' -
              obtain rfl := some.inj hc'
              omega
            · intro h
              have := h trivial c rfl hfull
              omega
    · simp [hf]
  | begin | accept | message | close | key | motion | button => exact iff_of_true rfl trivial

end Balance

theorem pending_init (fd : Nat) : State.pending {} fd = [] := rfl

/-- **Every descriptor is closed exactly once, unless a read loses some.**  For every run after
which a client is gone, the descriptors received from it and those closed for it are the same, each
as many times, exactly when none of its reads has truncated control data with descriptors in it, or
more descriptors than the queue has room for and one. -/
theorem descriptors_closed_iff (mode : Mode) {fd : Nat} {ms : List Move}
    (hgone : (run (move mode) {} ms).clients.find fd = none) :
    (trace (move mode) (Move.received fd) {} ms).Perm
        (trace (move mode) (Move.closed mode fd) {} ms) ↔
      Along (move mode) (NoLeak fd) {} ms := by
  have hempty : (State.pending {} fd).length ≤ maxPendingFds := Nat.zero_le _
  have hbalance := balance_run mode fd hempty ms
  rw [pending_of_none hgone, pending_init] at hbalance
  have hleaks : trace (move mode) (Move.leaked fd) {} ms = [] ↔
      Along (move mode) (NoLeak fd) {} ms := by
    rw [trace_eq_nil]
    exact along_iff (I := fun st => (st.pending fd).length ≤ maxPendingFds)
      (fun _ m hlen _ _ => (balanced_move mode hlen m).length)
      (fun _ _ hlen _ => leaked_eq_nil_iff hlen) (Nat.zero_le _) (along_trivial _ _)
  rw [← hleaks, perm_iff_count]
  constructor
  · intro hcount
    refine eq_nil_iff_forall_not_mem.2 fun d hd => ?_
    have hpos := count_pos_iff.2 hd
    have := hbalance d
    have := hcount d
    omega
  · intro hnil d
    have := hbalance d
    rw [hnil] at this
    simpa using this

/-- A client sends two descriptors, and leaves. -/
def twoDescriptors : List Move :=
  [.accept 4 1000 true, .take 4 ⟨(greeting 0).encode, [10], false⟩, .message 4 {},
    .take 4 ⟨[1], [11], false⟩, .close 4]

theorem descriptors_closed_iff_sample :
    let mode : Mode := ⟨1920, 1080⟩
    (run (move mode) {} twoDescriptors).clients.find 4 = none ∧
      (trace (move mode) (Move.received 4) {} twoDescriptors).Perm
        (trace (move mode) (Move.closed mode 4) {} twoDescriptors) :=
  have hgone : (run (move ⟨1920, 1080⟩) {} twoDescriptors).clients.find 4 = none := by
    decide +kernel
  ⟨hgone, (descriptors_closed_iff ⟨1920, 1080⟩ hgone).2 (by decide +kernel)⟩

/-- Two clients that leave descriptors open.  The first sends more than the control buffer holds:
the eight that fit are received and none is closed.  The second sends eight when two are queued: of
the two that do not fit, one is closed. -/
theorem descriptors_left_open :
    let mode : Mode := ⟨1920, 1080⟩
    let truncated : List Move :=
      [.accept 4 1000 true, .take 4 ⟨[1], [10, 11, 12, 13, 14, 15, 16, 17], true⟩]
    let crowded : List Move :=
      [.accept 4 1000 true, .take 4 ⟨[1], [10, 11], false⟩,
        .take 4 ⟨[0], [12, 13, 14, 15, 16, 17, 18, 19], false⟩]
    let received := trace (move mode) (Move.received 4) {}
    let closed := trace (move mode) (Move.closed mode 4) {}
    (run (move mode) {} truncated).clients.find 4 = none ∧
      received truncated = [10, 11, 12, 13, 14, 15, 16, 17] ∧ closed truncated = [] ∧
      (run (move mode) {} crowded).clients.find 4 = none ∧
      received crowded = [10, 11, 12, 13, 14, 15, 16, 17, 18, 19] ∧
      closed crowded = [18, 10, 11, 12, 13, 14, 15, 16, 17] := by
  decide +kernel

end Compositor
