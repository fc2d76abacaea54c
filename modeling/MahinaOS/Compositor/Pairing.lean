import MahinaOS.Compositor.Descriptors

/-!
# Commits and their descriptors

The buffer of a commit travels in two pieces: the frame in the byte stream of the socket, and the
descriptor beside it.  The compositor queues descriptors as they arrive and takes the oldest one for
each commit it handles, so a commit gets its own buffer only if both pieces stay in step, whatever
the reads look like.

* `Frame` is a frame as a client sends it, with a descriptor if it is a commit, and `Frame.tagged`
  its bytes, the first of which carries the descriptor.
* `Delivery` is what is assumed of the kernel: reads bring the bytes of the stream in order, a
  descriptor comes with the first byte of its frame, and no read brings more than one.  Between the
  reads, anything else may happen to the compositor.
* `Paired` is the invariant: what is in the buffer of the client and what is in its queue are the
  bytes and the descriptors of the same part of the stream.
* `Commit` is a commit as it has been handled: the descriptor it took, and the buffer that its
  surface then has.
* **`commits_paired`**: commits use the descriptors that were sent with them, and no read fails.
-/

namespace Compositor

open Run Framing List Option Prod

/-! ## The stream of a client -/

/-- A byte, and the descriptor that comes with it. -/
abbrev Tagged := UInt8 × Option Nat

variable {B R : List Tagged}

/-- A frame of a client that attaches one descriptor to a commit, and none to other messages. -/
structure Frame where
  bytes : Bytes
  fd : Option Nat
  isFrame : IsFrame bytes
  paired : fd.isSome = (readU16Le bytes 0 == MsgType.commitBuffer)

/-- Bytes, the first of which comes with a descriptor. -/
def tagFirst (d : Option Nat) : Bytes → List Tagged
  | [] => []
  | b :: bytes => (b, d) :: bytes.map fun b => (b, none)

def Frame.tagged (f : Frame) : List Tagged := tagFirst f.fd f.bytes

/-- The byte stream of a client, with its descriptors. -/
def stream (frames : List Frame) : List Tagged := frames.flatMap Frame.tagged

def descriptors (frames : List Frame) : List Nat := frames.filterMap Frame.fd

theorem map_fst_tagFirst (d : Option Nat) (bytes : Bytes) : (tagFirst d bytes).map fst = bytes := by
  rcases bytes with - | ⟨b, bytes⟩
  · rfl
  · simp [tagFirst, Function.comp_def]

theorem Frame.map_fst_tagged (f : Frame) : f.tagged.map fst = f.bytes :=
  map_fst_tagFirst f.fd f.bytes

theorem Frame.filterMap_tagged (f : Frame) : f.tagged.filterMap snd = f.fd.toList := by
  have hlen := f.isFrame.1
  rw [Frame.tagged]
  rcases hbytes : f.bytes with - | ⟨b, -⟩
  · rw [hbytes, headerSize] at hlen
    cases hlen
  · cases f.fd <;> simp [tagFirst]

/-- A part of one frame has at most one descriptor. -/
theorem Frame.tags_le_one {f : Frame} (h : B <+: f.tagged) : (B.filterMap snd).length ≤ 1 := by
  have hle := (h.filterMap snd).length_le
  rw [f.filterMap_tagged] at hle
  rcases hfd : f.fd with - | d
  · rw [hfd] at hle
    exact Nat.le_succ_of_le hle
  · rw [hfd] at hle
    exact hle

/-- What is at the front of a stream that starts with a whole frame. -/
theorem Frame.nextFrame_eq (f : Frame) (bytes : Bytes) :
    nextFrame (f.bytes ++ bytes) = .bad ∨
      ∃ payload, nextFrame (f.bytes ++ bytes) =
        .frame ⟨readU16Le f.bytes 0, payload⟩ f.bytes.length := by
  obtain ⟨hmin, hlen⟩ := f.isFrame
  rw [Compositor.nextFrame_eq (by rw [length_append]; omega), readU32Le_append hmin,
    readU16Le_append hmin, hlen]
  dsimp only
  split
  · exact .inl rfl
  · rw [if_neg (by rw [length_append]; omega)]
    exact .inr ⟨_, rfl⟩

/-- A strict part of a frame is not a message. -/
theorem Frame.nextFrame_part {f : Frame} {c : List Tagged} (h : f.tagged = B ++ c) (hc : c ≠ [])
    (msg : Msg) (size : Nat) :
    nextFrame (B.map fst) ≠ .frame msg size := by
  intro hnext
  have hbytes : f.bytes = B.map fst ++ c.map fst := by
    rw [← f.map_fst_tagged, h, map_append]
  have hshort : (B.map fst).length < f.bytes.length := by
    have := length_pos_of_ne_nil hc
    rw [hbytes, length_append, length_map, length_map]
    omega
  have happend := nextFrame_append (by rw [hnext]; exact fun h => by cases h) (c.map fst)
  rw [← hbytes, hnext] at happend
  have hle := (nextFrame_eq_frame hnext).2
  rcases f.nextFrame_eq [] with hbad | ⟨payload, hframe⟩
  · rw [append_nil, happend] at hbad
    cases hbad
  · rw [append_nil, happend] at hframe
    cases hframe
    omega

/-- The front of a stream is a whole frame, or a part of one that has at most one descriptor and is
not a message. -/
theorem stream_front {frames : List Frame} (h : stream frames = B ++ R) :
    ((B.filterMap snd).length ≤ 1 ∧ ∀ msg size, nextFrame (B.map fst) ≠ .frame msg size) ∨
    ∃ f rest B', frames = f :: rest ∧ B = f.tagged ++ B' ∧ stream rest = B' ++ R := by
  rcases frames with - | ⟨f, rest⟩
  · obtain ⟨rfl, -⟩ := append_eq_nil_iff.1 h.symm
    exact .inl ⟨Nat.zero_le _, fun msg size hnext => by cases hnext⟩
  · rw [stream, flatMap_cons] at h
    rcases append_eq_append_iff.1 h with ⟨B', hB, hrest⟩ | ⟨c, hf, -⟩
    · exact .inr ⟨f, rest, B', rfl, hB, hrest⟩
    · by_cases hc : c = []
      · subst hc
        rw [append_nil] at hf
        refine .inr ⟨f, rest, [], rfl, by rw [hf, append_nil], ?_⟩
        rw [hf] at h
        exact append_cancel_left h
      · exact .inl ⟨f.tags_le_one ⟨c, hf.symm⟩, f.nextFrame_part hf hc⟩

/-! ## What a handled commit uses -/

/-- A commit that has been handled: the descriptor it has taken, where `mmap` maps descriptors, if
it was accepted, and the buffer that its surface has then. -/
structure Commit where
  fd : Option Nat
  mmap : Nat → Option Nat
  accepted : Bool
  buffer : Option Nat

/-- The commit has taken the descriptor, and if it is accepted, its surface has the buffer that is
mapped from it. -/
def Commit.Uses (h : Commit) (d : Nat) : Prop :=
  h.fd = some d ∧ (h.accepted = true → h.buffer = h.mmap d ∧ (h.mmap d).isSome = true)

/-- The commit that a message is, if it gets to `lgp_client_take_fd`. -/
def handledCommit (mode : Mode) (env : MsgEnv) (st : State) (client : Client) (msg : Msg) :
    List Commit :=
  if client.helloDone then
    (decodeCommit msg).toList.map fun p =>
      let r := handleClientMessage mode env st client msg
      ⟨(takeFd client).1, env.mmap, r.2,
        (r.1.surfaceManager.find p.surfaceId).bind Surface.bufferMap⟩
  else []

/-- The commits of the client that a move handles. -/
def Move.commits (mode : Mode) (fd : Nat) (st : State) : Move → List Commit
  | .message f env =>
    if f = fd then
      (st.clients.find fd).elim [] fun c =>
        match nextFrame c.rxBuf with
        | .frame msg _ => handledCommit mode env st c msg
        | _ => []
    else []
  | _ => []

/-- The commits handled so far have used the first descriptors of the stream; and if the client is
still connected, its buffer and its queue hold the same part of the rest, with at most two
descriptors. -/
structure Paired (fd : Nat) (frames : List Frame) (used : List Commit) (R : List Tagged)
    (st : State) : Prop where
  order : ∃ ds, ds <+: descriptors frames ∧ Forall₂ Commit.Uses used ds
  buffers : ∀ rx pend, st.buffers fd = some (rx, pend) →
    ∃ done todo B, frames = done ++ todo ∧ Forall₂ Commit.Uses used (descriptors done) ∧
      stream todo = B ++ R ∧ rx = B.map Prod.fst ∧ pend = B.filterMap Prod.snd ∧ pend.length ≤ 2

section Moves

variable {mode : Mode} {fd : Nat} {frames : List Frame} {used : List Commit}
  {st : State}

theorem Paired.of_same (h : Paired fd frames used R st) {st' : State}
    (hsame : st'.buffers fd = st.buffers fd ∨ st'.buffers fd = none) :
    Paired fd frames used R st' := by
  refine ⟨h.order, fun rx pend hbuf => ?_⟩
  rcases hsame with hsame | hnone
  · exact h.buffers rx pend (hsame ▸ hbuf)
  · rw [hnone] at hbuf
    cases hbuf

/-- What `Paired` says once the client has been through some moves. -/
def PairedAfter (mode : Mode) (fd : Nat) (frames : List Frame) (used : List Commit)
    (R : List Tagged) (st : State) (ms : List Move) : Prop :=
  Paired fd frames (used ++ trace (move mode) (Move.commits mode fd) st ms) R
    (run (move mode) st ms)

theorem Paired.after_nil (h : Paired fd frames used R st) (mode : Mode) :
    PairedAfter mode fd frames used R st [] := by
  rw [PairedAfter, trace, append_nil]
  exact h

theorem descriptors_append (fs gs : List Frame) :
    descriptors (fs ++ gs) = descriptors fs ++ descriptors gs := filterMap_append

theorem descriptors_cons (f : Frame) (fs : List Frame) :
    descriptors (f :: fs) = f.fd.toList ++ descriptors fs := by
  cases hfd : f.fd <;> simp [descriptors, hfd]

variable {env : MsgEnv} {client c : Client} {msg : Msg}

/-- Accepted commits have taken a descriptor. -/
theorem takesFd_of_accepted (htype : msg.type = MsgType.commitBuffer)
    (hok : (handleClientMessage mode env st client msg).2 = true) : takesFd client msg = true := by
  have hdone : client.helloDone = true := by
    by_contra hdone
    have hfalse : client.helloDone = false := by simpa using hdone
    rw [handleClientMessage, if_pos (by rw [hfalse, htype]; decide)] at hok
    cases hok
  rw [handleClientMessage_commit hdone htype, handleCommitBuffer] at hok
  rcases hdecode : decodeCommit msg with - | p
  · rw [hdecode] at hok
    cases hok
  · simp [takesFd, hdone, hdecode]

/-- Only commits take a descriptor. -/
theorem type_of_takesFd (h : takesFd client msg = true) : msg.type = MsgType.commitBuffer := by
  rw [takesFd, Bool.and_eq_true] at h
  obtain ⟨p, hp⟩ := isSome_iff_exists.1 h.2
  exact type_of_decodeCommit hp

theorem handledCommit_of_not (h : takesFd client msg = false) :
    handledCommit mode env st client msg = [] := by
  rw [handledCommit]
  split
  · next hdone =>
    have hdecode : decodeCommit msg = none := by simpa [takesFd, hdone] using h
    rw [hdecode]
    rfl
  · rfl

/-- An accepted commit leaves the buffer that `mmap` gives for its descriptor. -/
theorem buffer_of_commit {m : SurfaceManager} {p : CommitPayload} {d : Nat}
    {mmap : Nat → Option Nat} (h : (m.commit client p (some d) mmap).2 = .ok) :
    ((m.commit client p (some d) mmap).1.find p.surfaceId).bind Surface.bufferMap = mmap d ∧
      (mmap d).isSome = true := by
  simp only [SurfaceManager.commit] at h ⊢
  rcases hfind : m.find p.surfaceId with - | surface
  · rw [hfind] at h
    cases h
  · simp only [hfind] at h ⊢
    split at h
    · cases h
    · next howner =>
      split at h
      · cases h
      · next hfits =>
        rcases hmap : mmap d with - | a
        · rw [hmap] at h
          cases h
        · have hattach := ListUpdate.find?_modifyFirst (p := Surface.hasId p.surfaceId)
            (f := SurfaceManager.attach p a) (fun _ => rfl) m.slots
          rw [if_neg howner, if_neg hfits]
          refine ⟨?_, rfl⟩
          rw [SurfaceManager.find] at hfind ⊢
          simp only [SurfaceManager.modify, hattach, hfind]
          rfl

/-- A message that takes a descriptor is a commit that uses it. -/
theorem uses_of_takesFd {own : Option Nat} {others : List Nat}
    (hpaired : own.isSome = (msg.type == MsgType.commitBuffer))
    (hfds : client.pendingFds = own.toList ++ others) (htakes : takesFd client msg = true) :
    Forall₂ Commit.Uses (handledCommit mode env st client msg) own.toList := by
  have htype := type_of_takesFd htakes
  rw [htype] at hpaired
  obtain ⟨d, rfl⟩ := isSome_iff_exists.1 (hpaired.trans (by decide))
  have hhead : (takeFd client).1 = some d := by
    rw [takeFd, hfds]
    rfl
  rw [takesFd, Bool.and_eq_true] at htakes
  obtain ⟨p, hp⟩ := isSome_iff_exists.1 htakes.2
  rw [handledCommit, if_pos htakes.1, hp, handleClientMessage_commit htakes.1 htype]
  refine .cons ⟨hhead, fun hok => ?_⟩ .nil
  dsimp only at hok ⊢
  rw [handleCommitBuffer, hp] at hok ⊢
  rw [hhead] at hok ⊢
  dsimp only at hok ⊢
  split at hok
  · cases hok
  · next hstatus =>
    rw [if_neg hstatus]
    exact buffer_of_commit (not_not.1 hstatus)

/-- An accepted message uses the descriptor it was sent with, if there is one, and leaves the
others. -/
theorem uses_of_accepted {own : Option Nat} {others : List Nat}
    (hpaired : own.isSome = (msg.type == MsgType.commitBuffer))
    (hfds : client.pendingFds = own.toList ++ others)
    (hok : (handleClientMessage mode env st client msg).2 = true) :
    Forall₂ Commit.Uses (handledCommit mode env st client msg) own.toList ∧
      (if takesFd client msg then client.pendingFds.tail else client.pendingFds) = others := by
  rcases own with - | d
  · have htype : msg.type ≠ MsgType.commitBuffer := by simpa using hpaired.symm
    have htakes : takesFd client msg = false := by
      simpa using fun htakes => htype (type_of_takesFd htakes)
    rw [handledCommit_of_not htakes, htakes]
    exact ⟨.nil, hfds⟩
  · have htype : msg.type = MsgType.commitBuffer := by simpa using hpaired.symm
    have htakes := takesFd_of_accepted htype hok
    refine ⟨uses_of_takesFd hpaired hfds htakes, ?_⟩
    rw [htakes, hfds]
    rfl

section

variable (h : Paired fd frames used R st)

include h

/-- The first complete message in the buffer is the next frame of the stream, and its descriptor is
the first in the queue. -/
theorem Paired.next_frame (hfind : st.clients.find fd = some c)
    {size : Nat} (hnext : nextFrame c.rxBuf = .frame msg size) :
    ∃ done f rest B, frames = done ++ f :: rest ∧
      Forall₂ Commit.Uses used (descriptors done) ∧
      stream rest = B ++ R ∧ c.rxBuf.drop size = B.map fst ∧
      c.pendingFds = f.fd.toList ++ B.filterMap snd ∧ c.pendingFds.length ≤ 2 ∧
      f.fd.isSome = (msg.type == MsgType.commitBuffer) := by
  obtain ⟨done, todo, B, hframes, hused, hstream, hrx, hpend, hle⟩ :=
    h.buffers _ _ (buffers_of_find hfind)
  rcases stream_front hstream with ⟨-, hpart⟩ | ⟨f, rest, B', rfl, rfl, hrest⟩
  · exact absurd (hrx ▸ hnext) (hpart msg size)
  have hbytes : c.rxBuf = f.bytes ++ B'.map fst := by
    rw [hrx, map_append, f.map_fst_tagged]
  have hfds : c.pendingFds = f.fd.toList ++ B'.filterMap snd := by
    rw [hpend, filterMap_append, f.filterMap_tagged]
  obtain ⟨htype, hsize⟩ : msg.type = readU16Le f.bytes 0 ∧ size = f.bytes.length := by
    rcases f.nextFrame_eq (B'.map fst) with hbad | ⟨payload, hframe⟩
    · rw [← hbytes, hnext] at hbad
      cases hbad
    · rw [← hbytes, hnext] at hframe
      cases hframe
      exact ⟨rfl, rfl⟩
  refine ⟨done, f, rest, B', hframes, hused, hrest, ?_, hfds, hle, htype ▸ f.paired⟩
  rw [hbytes, hsize, drop_left]

theorem Paired.frame (hfind : st.clients.find fd = some c)
    {size : Nat} (hnext : nextFrame c.rxBuf = .frame msg size) {st' : State}
    (hbuffers : st'.buffers fd =
      if (handleClientMessage mode env st c msg).2 then
        some (c.rxBuf.drop size, if takesFd c msg then c.pendingFds.tail else c.pendingFds)
      else none) :
    Paired fd frames (used ++ handledCommit mode env st c msg) R st' := by
  obtain ⟨done, f, rest, B, hframes, hused, hrest, hdrop, hfds, hle, hpaired⟩ :=
    h.next_frame hfind hnext
  have hone (huse : Forall₂ Commit.Uses (handledCommit mode env st c msg) f.fd.toList) :
      Forall₂ Commit.Uses (used ++ handledCommit mode env st c msg)
        (descriptors (done ++ [f])) := by
    have hsnoc : descriptors (done ++ [f]) = descriptors done ++ f.fd.toList := by
      rw [descriptors_append, descriptors_cons]
      exact congrArg _ (append_nil _)
    rw [hsnoc]
    exact rel_append hused huse
  constructor
  · rcases htakes : takesFd c msg with - | -
    · rw [handledCommit_of_not htakes, append_nil]
      exact h.order
    · refine ⟨_, ⟨descriptors rest, ?_⟩, hone (uses_of_takesFd hpaired hfds htakes)⟩
      rw [← descriptors_append, hframes, append_assoc, singleton_append]
  · intro rx pend hbuf
    rw [hbuffers] at hbuf
    split at hbuf
    · next hok =>
      obtain ⟨huse, hqueue⟩ := uses_of_accepted hpaired hfds hok
      rw [hqueue, hdrop] at hbuf
      cases hbuf
      refine ⟨done ++ [f], rest, B, by rw [hframes]; simp, hone huse, hrest, rfl, rfl, ?_⟩
      rw [hfds, length_append] at hle
      omega
    · cases hbuf

/-- A message of the client: the front of the buffer is a frame with its descriptor. -/
theorem Paired.message (env : MsgEnv) :
    Paired fd frames (used ++ Move.commits mode fd st (.message fd env)) R
      (handleFirst mode env st fd) := by
  have hbuffers := buffers_handleFirst mode env st fd fd
  rw [if_pos rfl] at hbuffers
  rw [Move.commits, if_pos rfl]
  rcases hfind : st.clients.find fd with - | c
  · rw [elim_none, append_nil]
    rw [hfind] at hbuffers
    exact h.of_same (.inr hbuffers)
  · rw [hfind, bind_some] at hbuffers
    rw [elim_some]
    cases hnext : nextFrame c.rxBuf with
    | more =>
      rw [hnext] at hbuffers
      rw [append_nil]
      exact h.of_same (.inl (hbuffers.trans (buffers_of_find hfind).symm))
    | bad =>
      rw [hnext] at hbuffers
      rw [append_nil]
      exact h.of_same (.inr hbuffers)
    | frame msg size =>
      rw [hnext] at hbuffers
      exact h.frame hfind hnext hbuffers

/-- The moves that neither connect the client nor read from it. -/
def Move.bystander (fd : Nat) : Move → Bool
  | .accept f _ _ => f ≠ fd
  | .take f _ => f ≠ fd
  | _ => true

theorem Paired.move (mode : Mode) {m : Move} (hm : m.bystander fd = true) :
    Paired fd frames (used ++ m.commits mode fd st) R (move mode st m) := by
  have hinput : m.isInput = true → m.commits mode fd st = [] →
      Paired fd frames (used ++ m.commits mode fd st) R (Compositor.move mode st m) := by
    intro hin hnone
    rw [hnone, append_nil]
    exact h.of_same (.inl (buffers_eq_of_clients (clients_move_input hin mode st) fd))
  cases m with
  | message f env =>
    by_cases hf : f = fd
    · subst hf
      exact h.message env
    · rw [Move.commits, if_neg hf, append_nil]
      refine h.of_same (.inl ?_)
      exact (buffers_handleFirst mode env st f fd).trans (if_neg (Ne.symm hf))
  | take f r =>
    have hf : f ≠ fd := by simpa [Move.bystander] using hm
    show Paired fd frames (used ++ []) R _
    rw [append_nil]
    exact h.of_same (.inl ((buffers_takeFrom st f r fd).trans (if_neg (Ne.symm hf))))
  | accept f uid watched =>
    have hf : f ≠ fd := by simpa [Move.bystander] using hm
    show Paired fd frames (used ++ []) R _
    rw [append_nil]
    refine h.of_same (.inl ((buffers_accept st f uid watched fd).trans (if_neg ?_)))
    exact fun heq => hf heq.1.symm
  | close f =>
    show Paired fd frames (used ++ []) R _
    rw [append_nil]
    refine h.of_same ?_
    show (closeFd st f).buffers fd = _ ∨ (closeFd st f).buffers fd = none
    rw [buffers_closeFd]
    split
    · exact .inr rfl
    · exact .inl rfl
  | begin | key | motion | button => exact hinput rfl rfl

theorem Paired.run (mode : Mode) {ms : List Move} (hms : ∀ m ∈ ms, m.bystander fd = true) :
    PairedAfter mode fd frames used R st ms := by
  induction ms generalizing used st with
  | nil => exact h.after_nil mode
  | cons m ms ih =>
    have hrest := ih (h.move mode (hms m mem_cons_self)) fun m' hm' =>
      hms m' (mem_cons_of_mem _ hm')
    rw [PairedAfter, append_assoc] at hrest
    exact hrest

end

/-- What a read brings: some of the bytes of the stream, with their descriptors. -/
def received (chunk : List Tagged) : Received :=
  ⟨chunk.map Prod.fst, chunk.filterMap Prod.snd, false⟩

/-- A buffer without a complete message holds a part of one frame. -/
theorem Paired.tags_of_more {todo : List Frame}
    (hstream : stream todo = B ++ R) (hmore : nextFrame (B.map fst) = .more) :
    (B.filterMap snd).length ≤ 1 := by
  rcases stream_front hstream with ⟨hone, -⟩ | ⟨f, -, B', rfl, rfl, -⟩
  · exact hone
  · rw [map_append, f.map_fst_tagged] at hmore
    rcases f.nextFrame_eq (B'.map fst) with hbad | ⟨payload, hframe⟩
    · rw [hmore] at hbad
      cases hbad
    · rw [hmore] at hframe
      cases hframe

theorem readAvailable_eq_some {r : Received} (hroom : c.rxBuf.length < rxBufferSize)
    (hctrunc : r.ctrunc = false) (hqueue : c.pendingFds.length + r.fds.length ≤ maxPendingFds)
    (hfits : c.rxBuf.length + r.bytes.length ≤ rxBufferSize) :
    readAvailable c r = some { c with
      rxBuf := c.rxBuf ++ r.bytes, pendingFds := c.pendingFds ++ r.fds } := by
  rw [readAvailable, if_neg (by omega), if_neg (by rw [hctrunc]; exact Bool.false_ne_true),
    if_neg (by omega), take_of_length_le (by omega)]

/-- A read of the client works, and brings the next part of the stream. -/
theorem Paired.take {chunk : List Tagged}
    (h : Paired fd frames used (chunk ++ R) st)
    (hmore : ∀ c ∈ st.clients.find fd, nextFrame c.rxBuf = .more)
    (hone : (chunk.filterMap snd).length ≤ 1)
    (hfits : ∀ c ∈ st.clients.find fd, c.rxBuf.length + chunk.length ≤ rxBufferSize) :
    Paired fd frames used R (takeFrom st fd (received chunk)) ∧
      ∀ c ∈ st.clients.find fd, (readAvailable c (received chunk)).isSome = true := by
  have hbuffers := buffers_takeFrom st fd (received chunk) fd
  rw [if_pos rfl] at hbuffers
  rcases hfind : st.clients.find fd with - | c
  · rw [hfind] at hbuffers
    refine ⟨⟨h.order, fun rx pend hbuf => ?_⟩, by simp⟩
    rw [hbuffers] at hbuf
    cases hbuf
  · rw [hfind] at hbuffers
    obtain ⟨done, todo, B, hframes, hused, hstream, hrx, hpend, -⟩ :=
      h.buffers _ _ (buffers_of_find hfind)
    have hsettled := hmore c hfind
    have hroom := (unfinished_of_more hsettled).2
    have htags := Paired.tags_of_more hstream (hrx ▸ hsettled)
    have hlen := hfits c hfind
    have hread : readAvailable c (received chunk) = some { c with
        rxBuf := (B ++ chunk).map fst, pendingFds := (B ++ chunk).filterMap snd } := by
      have hqueue : c.pendingFds.length + (chunk.filterMap snd).length ≤ maxPendingFds := by
        rw [hpend, maxPendingFds]
        omega
      have hbytes : c.rxBuf.length + (chunk.map fst).length ≤ rxBufferSize := by
        rw [length_map]
        exact hlen
      rw [readAvailable_eq_some hroom rfl hqueue hbytes, map_append, filterMap_append,
        ← hrx, ← hpend]
      rfl
    refine ⟨⟨h.order, fun rx pend hbuf => ?_⟩, ?_⟩
    · rw [hbuffers, bind_some, hread, map_some, some_inj, mk.injEq] at hbuf
      obtain ⟨rfl, rfl⟩ := hbuf
      refine ⟨done, todo, B ++ chunk, hframes, hused, by rw [hstream, append_assoc], rfl, rfl, ?_⟩
      rw [filterMap_append, length_append]
      omega
    · intro c' hc'
      obtain rfl := some.inj hc'
      rw [hread]
      rfl

theorem Paired.pending_le (h : Paired fd frames used R st) : (st.pending fd).length ≤ 2 := by
  rw [State.pending]
  rcases hbuf : st.buffers fd with - | p
  · exact Nat.zero_le _
  · obtain ⟨-, -, -, -, -, -, -, -, hle⟩ := h.buffers p.1 p.2 hbuf
    exact hle

end Moves

/-! ## Arrivals -/

/-- What happens to the compositor, from the point of view of one client: some of the client's bytes
arrive, or something else happens. -/
inductive Arrival where
  | chunk (bytes : List Tagged) (env : Nat → MsgEnv)
  | other (e : Event)

def Arrival.bytes : Arrival → List Tagged
  | .chunk bytes _ => bytes
  | .other _ => []

/-- The turn of the event loop in which it happens. -/
def Arrival.event (fd : Nat) : Arrival → Event
  | .chunk bytes env => .read fd (received bytes) env
  | .other e => e

/-- Turns in which the client is neither connected nor read. -/
def Event.spares (fd : Nat) : Event → Bool
  | .accept f _ _ => f ≠ fd
  | .read f _ _ => f ≠ fd
  | _ => true

/-- The kernel delivers the stream of a client in order, each descriptor with the first byte of its
frame and at most one a read; whatever else happens is not a read of this client. -/
structure Delivery (fd : Nat) (frames : List Frame) (arrivals : List Arrival) : Prop where
  stream : arrivals.flatMap Arrival.bytes <+: stream frames
  one : ∀ a ∈ arrivals, (a.bytes.filterMap Prod.snd).length ≤ 1
  others : ∀ e, Arrival.other e ∈ arrivals → e.spares fd = true

/-- `recvmsg` returns no more bytes than it was asked for. -/
def ReadFits (fd : Nat) (st : State) : Event → Prop
  | .read f r _ => f = fd → ∀ c ∈ st.clients.find fd, c.rxBuf.length + r.bytes.length ≤ rxBufferSize
  | _ => True

instance (fd : Nat) (st : State) (e : Event) : Decidable (ReadFits fd st e) := by
  unfold ReadFits
  split <;> infer_instance

/-- No read of the client fails. -/
def ReadWorks (fd : Nat) (st : State) : Move → Prop
  | .take f r => f = fd → ∀ c ∈ st.clients.find fd, (readAvailable c r).isSome = true
  | _ => True

theorem bystander_of_spares {fd : Nat} {e : Event} (he : e.spares fd = true) :
    ∀ m ∈ e.moves, m.bystander fd = true := by
  intro m hm
  cases e with
  | accept f uid watched =>
    rw [Event.moves, mem_cons, mem_singleton] at hm
    rcases hm with rfl | rfl
    · rfl
    · exact he
  | read f r env =>
    rw [Event.moves, mem_cons, mem_cons] at hm
    rcases hm with rfl | rfl | hm
    · rfl
    · exact he
    · obtain ⟨k, -, rfl⟩ := List.mem_map.1 hm
      rfl
  | hangup | key | motion | button =>
    rw [Event.moves, mem_cons, mem_singleton] at hm
    rcases hm with rfl | rfl <;> rfl

theorem readWorks_of_bystander {fd : Nat} {m : Move} (hm : m.bystander fd = true) (st : State) :
    ReadWorks fd st m := by
  cases m with
  | take f r =>
    intro hf
    simp [Move.bystander, hf] at hm
  | begin | accept | message | close | key | motion | button => trivial

/-- Through all of the moves the descriptors stay paired, and no read of the client fails. -/
def StaysPaired (mode : Mode) (fd : Nat) (frames : List Frame) (used : List Commit) (st : State)
    (ms : List Move) : Prop :=
  (∀ pre, pre <+: ms → ∃ R, PairedAfter mode fd frames used R st pre) ∧
    Along (move mode) (ReadWorks fd) st ms

section Arrivals

variable {mode : Mode} {fd : Nat} {frames : List Frame} {used : List Commit}
  {st : State} {ms : List Move}

/-- Moves that the client is a bystander of. -/
theorem along_readWorks (hms : ∀ m ∈ ms, m.bystander fd = true) (st : State) :
    Along (move mode) (ReadWorks fd) st ms := by
  induction ms generalizing st with
  | nil => trivial
  | cons m ms ih =>
    exact ⟨readWorks_of_bystander (hms m mem_cons_self) st,
      ih (fun m' hm' => hms m' (mem_cons_of_mem _ hm')) _⟩

/-- A read of the client and the messages after it, and every state on the way. -/
theorem Paired.read (mode : Mode) {bytes : List Tagged}
    (h : Paired fd frames used (bytes ++ R) st) (hsettled : AllSettled st)
    (hone : (bytes.filterMap snd).length ≤ 1)
    (hfits : ∀ c ∈ st.clients.find fd, c.rxBuf.length + bytes.length ≤ rxBufferSize)
    (hms : ∀ m ∈ ms, m.bystander fd = true) :
    let all := Move.begin :: .take fd (received bytes) :: ms
    StaysPaired mode fd frames used st all ∧ PairedAfter mode fd frames used R st all := by
  -- the state in which the socket is read is the one before, with nothing written yet
  have hbegin : Paired fd frames used (bytes ++ R) { st with sent := [] } :=
    h.of_same (.inl (buffers_eq_of_clients rfl fd))
  have hmore : ∀ c ∈ st.clients.find fd, nextFrame c.rxBuf = .more := fun c hc =>
    hsettled c (Clients.find_eq_some.1 hc).1
  obtain ⟨htake, hworks⟩ := hbegin.take hmore hone hfits
  refine ⟨⟨fun pre hpre => ?_, trivial, fun _ => hworks, along_readWorks hms _⟩, htake.run mode hms⟩
  rcases pre with - | ⟨m, pre⟩
  · exact ⟨_, h.after_nil mode⟩
  · obtain ⟨rfl, hpre'⟩ := cons_prefix_cons.1 hpre
    rcases pre with - | ⟨m, pre⟩
    · exact ⟨_, hbegin.after_nil mode⟩
    · obtain ⟨rfl, hpre''⟩ := cons_prefix_cons.1 hpre'
      exact ⟨R, htake.run mode fun m hm => hms m (hpre''.subset hm)⟩

theorem Paired.turn (mode : Mode) {a : Arrival} (h : Paired fd frames used (a.bytes ++ R) st)
    (hsettled : AllSettled st) (hone : (a.bytes.filterMap snd).length ≤ 1)
    (hother : ∀ e, a = .other e → e.spares fd = true) (hfits : ReadFits fd st (a.event fd)) :
    StaysPaired mode fd frames used st (a.event fd).moves ∧
      PairedAfter mode fd frames used R st (a.event fd).moves := by
  cases a with
  | other e =>
    have hms := bystander_of_spares (hother e rfl)
    exact ⟨⟨fun pre hpre => ⟨R, h.run mode fun m hm => hms m (hpre.subset hm)⟩,
      along_readWorks hms st⟩, h.run mode hms⟩
  | chunk bytes env =>
    have hmessages : ∀ m ∈ messageMoves fd env rxBufferSize, m.bystander fd = true := fun m hm => by
      obtain ⟨k, -, rfl⟩ := List.mem_map.1 hm
      rfl
    refine h.read mode hsettled hone (fun c hc => ?_) hmessages
    have hle := hfits rfl c hc
    rw [received, length_map] at hle
    exact hle

theorem Paired.turns (mode : Mode) {arrivals : List Arrival}
    (h : Paired fd frames used (arrivals.flatMap Arrival.bytes ++ R) st) (hsettled : AllSettled st)
    (hone : ∀ a ∈ arrivals, (a.bytes.filterMap snd).length ≤ 1)
    (hother : ∀ e, Arrival.other e ∈ arrivals → e.spares fd = true)
    (hfits : Along (step mode) (ReadFits fd) st (arrivals.map (Arrival.event fd))) :
    StaysPaired mode fd frames used st
      ((arrivals.map (Arrival.event fd)).flatMap Event.moves) := by
  induction arrivals generalizing used st with
  | nil =>
    refine ⟨fun pre hpre => ?_, trivial⟩
    rw [prefix_nil.1 hpre]
    exact ⟨_, h.after_nil mode⟩
  | cons a arrivals ih =>
    rw [flatMap_cons, append_assoc] at h
    obtain ⟨⟨hpre, hworks⟩, hturn⟩ := h.turn mode hsettled (hone a mem_cons_self)
      (fun e he => hother e (he ▸ mem_cons_self)) hfits.1
    rw [PairedAfter, ← step_eq_run_moves] at hturn
    obtain ⟨hpres, hworks'⟩ := ih hturn (hsettled.step mode _)
      (fun a' ha' => hone a' (mem_cons_of_mem _ ha'))
      (fun e he => hother e (mem_cons_of_mem _ he)) hfits.2
    rw [map_cons, flatMap_cons]
    constructor
    · intro pre hpre'
      rcases prefix_or_prefix_of_prefix hpre' (prefix_append _ _) with
        hshort | ⟨rest, rfl⟩
      · exact hpre pre hshort
      · obtain ⟨R', hR'⟩ := hpres rest ((prefix_append_right_inj _).1 hpre')
        refine ⟨R', ?_⟩
        rw [PairedAfter, trace_append, run_append, ← step_eq_run_moves, ← append_assoc]
        exact hR'
    · rw [along_append, ← step_eq_run_moves]
      exact ⟨hworks, hworks'⟩

end Arrivals

/-- **Commits use their own descriptors.**  Let a client be connected to a compositor that has been
running for a while, and let it send any frames, with one descriptor for each commit.  However the
kernel cuts its stream into reads, and whatever other clients do meanwhile: the commits that are
handled use the descriptors in the order they were sent, the queue never holds more than two, and no
read of the client fails. -/
theorem commits_paired (mode : Mode) {before : List Event} {fd : Nat}
    (hfresh : (run (step mode) {} before).buffers fd = some ([], [])) {frames : List Frame}
    {arrivals : List Arrival} (hdelivery : Delivery fd frames arrivals)
    (hfits : Along (step mode) (ReadFits fd) (run (step mode) {} before)
      (arrivals.map (Arrival.event fd))) :
    let st := run (step mode) {} before
    let ms := (arrivals.map (Arrival.event fd)).flatMap Event.moves
    (∀ pre, pre <+: ms →
      (∃ ds, ds <+: descriptors frames ∧
        Forall₂ Commit.Uses (trace (move mode) (Move.commits mode fd) st pre) ds) ∧
          ((run (move mode) st pre).pending fd).length ≤ 2) ∧
      Along (move mode) (ReadWorks fd) st ms := by
  intro st ms
  obtain ⟨R, hR⟩ := hdelivery.stream
  have hsettled : AllSettled st :=
    inv_run_of_forall (I := AllSettled) (fun _ e h => h.step mode e) allSettled_init before
  have hstart : Paired fd frames [] (arrivals.flatMap Arrival.bytes ++ R) st := by
    refine ⟨⟨[], nil_prefix, .nil⟩, fun rx pend hbuf => ?_⟩
    obtain ⟨rfl, rfl⟩ := mk.inj (some.inj (hfresh.symm.trans hbuf))
    exact ⟨[], frames, [], rfl, .nil, hR.symm, rfl, rfl, Nat.zero_le _⟩
  obtain ⟨hpre, hworks⟩ := hstart.turns mode hsettled hdelivery.one hdelivery.others hfits
  refine ⟨fun pre h => ?_, hworks⟩
  obtain ⟨R', hR'⟩ := hpre pre h
  exact ⟨hR'.order, hR'.pending_le⟩

/-- A greeting, a window and its first buffer. -/
def sampleFrames : List Frame :=
  [⟨(greeting 0).encode, none, by decide +kernel, by decide +kernel⟩,
    ⟨newWindow.encode, none, by decide +kernel, by decide +kernel⟩,
    ⟨(newBuffer 1).encode, some 10, by decide +kernel, by decide +kernel⟩]

/-- The stream in three reads, with a key pressed between two of them. -/
def sampleArrivals : List Arrival :=
  [.chunk ((stream sampleFrames).take 20) fun _ => {}, .other (.key 30 1 0),
    .chunk (((stream sampleFrames).drop 20).take 30) fun _ => {},
    .chunk ((stream sampleFrames).drop 50) fun _ => { mmap := fun d => some (d + 7) }]

theorem commits_paired_sample :
    let st := run (step ⟨1920, 1080⟩) {} [.accept 4 1000 true]
    st.buffers 4 = some ([], []) ∧
      ((run (step ⟨1920, 1080⟩) st (sampleArrivals.map (Arrival.event 4))).surfaceManager.find
        1).bind Surface.bufferMap = some 17 ∧
      ∀ pre, pre <+: (sampleArrivals.map (Arrival.event 4)).flatMap Event.moves →
        (∃ ds, ds <+: [10] ∧
          Forall₂ Commit.Uses (trace (move ⟨1920, 1080⟩) (Move.commits ⟨1920, 1080⟩ 4) st pre) ds) ∧
            ((run (move ⟨1920, 1080⟩) st pre).pending 4).length ≤ 2 :=
  have hfresh : (run (step ⟨1920, 1080⟩) {} [.accept 4 1000 true]).buffers 4 = some ([], []) := by
    decide +kernel
  have hdelivery : Delivery 4 sampleFrames sampleArrivals :=
    { stream := by decide +kernel
      one := by decide +kernel
      others := fun e he => by
        simp only [sampleArrivals, mem_cons, reduceCtorEq, Arrival.other.injEq, false_or,
          not_mem_nil, or_false] at he
        subst he
        rfl }
  ⟨hfresh, by decide +kernel,
    (commits_paired ⟨1920, 1080⟩ hfresh hdelivery (by decide +kernel)).1⟩

end Compositor
