import MahinaOS.Compositor.Turns
import MahinaOS.Lib.Run

/-!
# Whose surfaces are whose

A surface belongs to a session, and two things depend on that.  A client that is not the window
manager must not be able to change what other sessions own, and a client that is not root must not
come to own anything above the application layers.

* **`others_untouched`**: a client without `LGP_CAP_WINDOW_MANAGER` leaves the surfaces of others
  alone.
* `Confined` is what is promised about clients that are not root and about the window manager, and
  **`confined_run`** is the promise over runs of the event loop.  It needs session ids to be handed
  out to one client at a time: `Fresh`.
* **`layer_inherited`**: the counter of session ids wraps, and then a client of any user can be
  given the surfaces of one that runs as root.
-/

namespace Compositor

open Run List ListUpdate Clients

/-! ## Surfaces of other sessions -/

/-- The next message of the client behind a descriptor.  A client whose message is refused is
dropped. -/
def handleNext (mode : Mode) (fd : Nat) (st : State) (m : MsgEnv × Msg) : State :=
  match st.clients.find fd with
  | none => st
  | some client =>
    match handleClientMessage mode m.1 st client m.2 with
    | (st, true) => st
    | (st, false) => closeFd st fd

/-- A surface of another session stays as it is. -/
def Untouched (sessionId : UInt32) (s s' : Surface) : Prop :=
  s.inUse = true → s.ownerSessionId ≠ sessionId → s' = s

variable {sessionId : UInt32} {client : Client} {st : State} {fd : Nat}

theorem Untouched.trans {s s' s'' : Surface} (h : Untouched sessionId s s')
    (h' : Untouched sessionId s' s'') : Untouched sessionId s s'' := by
  intro huse howner
  obtain rfl := h huse howner
  exact h' huse howner

theorem SlotStep.untouched {s s' : Surface} (h : SlotStep client s s')
    (hcap : client.hasCap Cap.windowManager = false) : Untouched client.sessionId s s' := by
  intro huse hother
  cases h with
  | keep => rfl
  | create id hfree hok => cases huse.symm.trans hfree
  | destroy _ howner | commit _ _ howner => exact absurd howner hother
  | place _ _ _ hcap' | setState _ _ hcap' => cases hcap.symm.trans hcap'

theorem untouched_closeFd (hid : ∀ c ∈ st.clients.list, c.fd = fd → c.sessionId = sessionId) :
    Forall₂ (Untouched sessionId) st.surfaceManager.slots
      (closeFd st fd).surfaceManager.slots := by
  rw [closeFd]
  split
  · next client hfind =>
    obtain ⟨hclient, hfd⟩ := find_eq_some.1 hfind
    refine forall₂_map_right_iff.2 (forall₂_same.2 fun s _ huse hother => if_neg ?_)
    rw [huse, Bool.true_and, beq_iff_eq, hid client hclient hfd]
    exact hother
  · exact forall₂_same.2 fun s _ _ _ => rfl

/-- The client behind a descriptor does not hold `LGP_CAP_WINDOW_MANAGER`. -/
def NotWm (fd : Nat) (st : State) : Prop :=
  (st.clients.find fd).any (·.hasCap Cap.windowManager) = false

instance (fd : Nat) (st : State) : Decidable (NotWm fd st) := inferInstanceAs (Decidable (_ = _))

/-- What the messages of a client leave alone: its session, and the surfaces of all others. -/
structure Alone (fd : Nat) (sessionId : UInt32) (st st' : State) : Prop where
  session : ∀ c ∈ st'.clients.list, c.fd = fd → c.sessionId = sessionId
  slots : Forall₂ (Untouched sessionId) st.surfaceManager.slots st'.surfaceManager.slots

theorem Alone.closeFd {st' : State} (h : Alone fd sessionId st st') :
    Alone fd sessionId st (closeFd st' fd) where
  session c hc := by
    rw [Compositor.closeFd] at hc
    split at hc
    · exact h.session c (mem_remove.1 hc).1
    · exact h.session c hc
  slots := forall₂_trans h.slots (untouched_closeFd h.session) fun _ _ _ => Untouched.trans

theorem Alone.handleNext {mode : Mode} {st' : State} (h : Alone fd sessionId st st')
    (hcap : NotWm fd st') (m : MsgEnv × Msg) :
    Alone fd sessionId st (handleNext mode fd st' m) := by
  rw [Compositor.handleNext]
  split
  · exact h
  · next client hfind =>
    obtain ⟨hclient, hfd⟩ := find_eq_some.1 hfind
    have hid : client.sessionId = sessionId := h.session client hclient hfd
    have heffect : Effect client st' (handleClientMessage mode m.1 st' client m.2).1 :=
      effect_handleClientMessage hclient
    rw [NotWm, hfind, Option.any_some] at hcap
    have hnext : Alone fd sessionId st (handleClientMessage mode m.1 st' client m.2).1 := by
      constructor
      · intro c hc hcfd
        obtain ⟨d, hd, hstep⟩ := exists_of_forall₂ heffect.clients hc
        rw [hstep.sessionId]
        exact h.session d hd (hstep.fd.symm.trans hcfd)
      · have hslots : Forall₂ (Untouched sessionId) st'.surfaceManager.slots
            (handleClientMessage mode m.1 st' client m.2).1.surfaceManager.slots :=
          heffect.slots.imp fun s s' hstep => hid ▸ hstep.untouched hcap
        exact forall₂_trans h.slots hslots fun _ _ _ => Untouched.trans
    split
    · next heq =>
      rw [heq] at hnext
      exact hnext
    · next heq =>
      rw [heq] at hnext
      exact hnext.closeFd

/-- **Other clients' surfaces.**  In every state, the messages of a client that does not hold
`LGP_CAP_WINDOW_MANAGER` leave every surface of another session as it is, slot by slot, and so does
closing the client afterwards. -/
theorem others_untouched {mode : Mode} {fd : Nat} {st : State} {client : Client}
    (hfind : st.clients.find fd = some client) {msgs : List (MsgEnv × Msg)}
    (hcap : Along (handleNext mode fd) (fun st _ => NotWm fd st) st msgs) :
    let st' := run (handleNext mode fd) st msgs
    Forall₂ (Untouched client.sessionId) st.surfaceManager.slots st'.surfaceManager.slots ∧
      Forall₂ (Untouched client.sessionId) st.surfaceManager.slots
        (closeFd st' fd).surfaceManager.slots := by
  obtain ⟨hclient, hfd⟩ := find_eq_some.1 hfind
  have hstart : Alone fd client.sessionId st st := by
    refine ⟨fun c hc hcfd => ?_, forall₂_same.2 fun s _ _ _ => rfl⟩
    rw [eq_of_fd hc hclient (hcfd.trans hfd.symm)]
  have hrun : Alone fd client.sessionId st (run (handleNext mode fd) st msgs) :=
    inv_run (fun _ m h hcap => h.handleNext hcap m) hstart hcap
  exact ⟨hrun.slots, hrun.closeFd.slots⟩

/-- A root client greets and makes a shell surface, and a client of another user connects. -/
def sampleConnects : List Event :=
  [.accept 4 0 true,
    .read 4 ⟨(greeting 8).encode ++
      (Msg.mk MsgType.createSurface
        ([3, 0, 0, 0] ++ [0, 0, 0, 0] ++ [0, 0, 0, 0] ++ [100, 0, 0, 0] ++ [30, 0, 0, 0] ++
          [200, 0, 0, 0])).encode, [], false⟩ fun _ => {},
    .accept 5 1000 true]

def sampleShared : State := run (step ⟨1920, 1080⟩) {} sampleConnects

/-- The second client greets, makes a window, and asks for the other surface to be destroyed. -/
def sampleMsgs : List (MsgEnv × Msg) :=
  [({}, ⟨MsgType.hello, [1, 0, 0, 0, 128, 0, 0, 0]⟩),
    ({}, ⟨MsgType.createSurface, [4, 0, 0, 0] ++ [0, 0, 0, 0] ++ [0, 0, 0, 0] ++ [64, 0, 0, 0] ++
      [64, 0, 0, 0] ++ [100, 0, 0, 0]⟩),
    ({}, ⟨MsgType.destroySurface, [1, 0, 0, 0]⟩)]

theorem others_untouched_sample :
    ∃ client s, sampleShared.clients.find 5 = some client ∧ s ∈ sampleShared.surfaceManager.slots ∧
      s.inUse = true ∧ s.ownerSessionId ≠ client.sessionId ∧
      let st' := run (handleNext ⟨1920, 1080⟩ 5) sampleShared sampleMsgs
      Forall₂ (Untouched client.sessionId) sampleShared.surfaceManager.slots
          st'.surfaceManager.slots ∧
        Forall₂ (Untouched client.sessionId) sampleShared.surfaceManager.slots
          (closeFd st' 5).surfaceManager.slots := by
  refine ⟨{ fd := 5, uid := 1000, sessionId := 2 },
    { inUse := true, id := 1, ownerSessionId := 1, surfaceType := 3, width := 100, height := 30,
      layer := 200 }, by decide +kernel, by decide +kernel, by decide, by decide, ?_⟩
  exact others_untouched (by decide +kernel) (by decide +kernel)

/-! ## What only root may have -/

/-- A client that is not root has no privileged capability and nothing on a privileged layer, and
the window manager is a connected client of root that may be one. -/
structure Confined (st : State) : Prop where
  caps : ∀ c ∈ st.clients.list, c.uid ≠ 0 → c.hasCap Cap.layerShell = false ∧
    c.hasCap Cap.lunaIsland = false ∧ c.hasCap Cap.windowManager = false
  surfaces : ∀ c ∈ st.clients.list, c.uid ≠ 0 → ∀ s ∈ st.surfaceManager.slots, s.inUse = true →
    s.ownerSessionId = c.sessionId → s.layer < Layer.shell
  wm : ∀ fd, st.wmClient = some fd → ∃ c ∈ st.clients.list, c.fd = fd ∧ c.uid = 0 ∧
    c.hasCap Cap.windowManager = true

/-- The session id that the next client gets is not that of a connected client. -/
def Fresh (st : State) : Event → Prop
  | .accept _ _ _ => ∀ c ∈ st.clients.list, c.sessionId ≠ st.nextSessionId
  | _ => True

instance (st : State) (e : Event) : Decidable (Fresh st e) := by
  unfold Fresh
  split <;> infer_instance

/-- `Confined`, and what it rests on: sessions single out clients, the owner of every surface is
connected, and the window manager has greeted, so that its capabilities stay. -/
structure Guarded (st : State) : Prop where
  distinct : ∀ c ∈ st.clients.list, ∀ d ∈ st.clients.list, c.sessionId = d.sessionId → c.fd = d.fd
  caps : ∀ c ∈ st.clients.list, c.uid ≠ 0 → c.capsGranted &&& Cap.unprivileged = c.capsGranted
  owner : ∀ s ∈ st.surfaceManager.slots, s.inUse = true → ∃ c ∈ st.clients.list,
    c.sessionId = s.ownerSessionId ∧ (c.uid ≠ 0 → s.layer < Layer.shell)
  wm : ∀ fd, st.wmClient = some fd → ∃ c ∈ st.clients.list, c.fd = fd ∧ c.uid = 0 ∧
    c.helloDone = true ∧ c.hasCap Cap.windowManager = true

theorem Guarded.confined (h : Guarded st) : Confined st where
  caps c hc huid :=
    ⟨Client.hasCap_eq_false (h.caps c hc huid) rfl, Client.hasCap_eq_false (h.caps c hc huid) rfl,
      Client.hasCap_eq_false (h.caps c hc huid) rfl⟩
  surfaces c hc huid s hs huse howner := by
    obtain ⟨d, hd, hid, hlayer⟩ := h.owner s hs huse
    obtain rfl := eq_of_fd hd hc (h.distinct d hd c hc (hid.trans howner))
    exact hlayer huid
  wm fd hwm := by
    obtain ⟨c, hc, hfd, huid, -, hcap⟩ := h.wm fd hwm
    exact ⟨c, hc, hfd, huid, hcap⟩

theorem guarded_init : Guarded {} where
  distinct c hc := by cases hc
  caps c hc := by cases hc
  owner s hs huse := by
    rw [eq_of_mem_replicate hs] at huse
    cases huse
  wm fd h := by cases h

/-- Without a privileged capability, a request is only accepted for the layers below the shell. -/
theorem layer_lt_of_validate {p : CreatePayload}
    (hcaps : client.capsGranted &&& Cap.unprivileged = client.capsGranted)
    (hok : surfaceValidateRequest client p = .ok) : p.layer < Layer.shell := by
  have hdenied : ∀ cap, Cap.unprivileged &&& cap = 0 → cap ≠ 0 →
      surfaceClientHasCap client cap = false := fun cap hcap hne => by
    rw [surfaceClientHasCap, ← hcaps, UInt32.and_assoc, hcap]
    simpa using hne.symm
  simp only [surfaceValidateRequest, hdenied Cap.lunaIsland (by decide) (by decide),
    hdenied Cap.layerShell (by decide) (by decide), Bool.not_false] at hok
  split_ifs at hok with _ _ _ happlication _ _ hlayer
  · rw [not_not.1 happlication]
    decide
  · rcases not_and_or.1 hlayer with hlayer | hlayer <;> rw [not_not.1 hlayer] <;> decide

/-- A client's messages: capabilities are those its user may have, and so are the layers. -/
theorem Guarded.of_change {st' : State} (h : Guarded st) (hclient : client ∈ st.clients.list)
    (hc : Change client st st') : Guarded st' where
  distinct c hc' d hd heq := by
    obtain ⟨c₀, hc₀, hcstep⟩ := exists_of_forall₂ hc.clients hc'
    obtain ⟨d₀, hd₀, hdstep⟩ := exists_of_forall₂ hc.clients hd
    rw [hcstep.fd, hdstep.fd]
    exact h.distinct c₀ hc₀ d₀ hd₀ (by rw [← hcstep.sessionId, ← hdstep.sessionId, heq])
  caps c hc' huid := by
    obtain ⟨c₀, hc₀, hstep⟩ := exists_of_forall₂ hc.clients hc'
    exact hstep.unprivileged (h.caps c₀ hc₀) huid
  owner s hs huse := by
    have howner : ∃ c ∈ st.clients.list,
        c.sessionId = s.ownerSessionId ∧ (c.uid ≠ 0 → s.layer < Layer.shell) := by
      obtain ⟨t, ht, hstep⟩ := exists_of_forall₂ hc.slots hs
      cases hstep with
      | keep => exact h.owner s ht huse
      | commit _ huse' | place _ _ huse' | setState _ huse' => exact h.owner t ht huse'
      | create id hfree hok =>
        exact ⟨client, hclient, rfl, fun huid =>
          layer_lt_of_validate (h.caps client hclient huid) hok⟩
      | destroy => cases huse
    obtain ⟨c, hc₀, hid, hlayer⟩ := howner
    obtain ⟨c', hc', hstep⟩ := exists_of_forall₂ hc.clients.flip hc₀
    exact ⟨c', hc', hstep.sessionId.trans hid, fun huid => hlayer (hstep.uid ▸ huid)⟩
  wm fd hwm := by
    rcases hc.wm with heq | ⟨heq, c, hc', hfd, hroot⟩
    · obtain ⟨c, hc₀, hfd, huid, hdone, hcap⟩ := h.wm fd (heq ▸ hwm)
      obtain ⟨c', hc', hstep⟩ := exists_of_forall₂ hc.clients.flip hc₀
      rcases hstep.caps with ⟨hsame, hdone'⟩ | ⟨-, hfirst, -⟩
      · refine ⟨c', hc', hstep.fd.trans hfd, hstep.uid.trans huid, hdone'.trans hdone, ?_⟩
        rw [Client.hasCap, hsame]
        exact hcap
      · cases hdone.symm.trans hfirst
    · exact ⟨c, hc', hfd.trans (Option.some.inj (heq.symm.trans hwm)), hroot⟩

theorem Guarded.closeFd (h : Guarded st) (fd : Nat) : Guarded (closeFd st fd) := by
  rw [Compositor.closeFd]
  split
  · next client hfind =>
    obtain ⟨hclient, -⟩ := find_eq_some.1 hfind
    have hold : ∀ c ∈ (st.clients.remove client.fd).list, c ∈ st.clients.list :=
      fun c hc => (mem_remove.1 hc).1
    refine { distinct := ?_, caps := ?_, owner := ?_, wm := ?_ }
    · exact fun c hc d hd => h.distinct c (hold c hc) d (hold d hd)
    · exact fun c hc => h.caps c (hold c hc)
    · intro s hs huse
      obtain ⟨hs, hother⟩ := SurfaceManager.mem_destroyForClient hs huse
      obtain ⟨c, hc, howner, hlayer⟩ := h.owner s hs huse
      rw [← howner] at hother
      exact ⟨c, mem_remove_of_session hc hclient hother, howner, hlayer⟩
    · intro fd' hwm
      obtain ⟨hne, hwm'⟩ := wmClient_closeClient hwm
      obtain ⟨c, hc, hfd, hroot⟩ := h.wm fd' hwm'
      exact ⟨c, mem_remove.2 ⟨hc, fun heq => hne (hfd.symm.trans heq)⟩, hfd, hroot⟩
  · exact h

theorem Guarded.kept : Kept Guarded where
  change hclient hc h := h.of_change hclient hc
  close fd h := h.closeFd fd

theorem Guarded.accept (h : Guarded st)
    (hfresh : ∀ c ∈ st.clients.list, c.sessionId ≠ st.nextSessionId) (fd : Nat) (uid : UInt32)
    (watched : Bool) : Guarded (accept st fd uid watched) := by
  rw [Compositor.accept]
  split
  · exact h
  · dsimp only
    split
    · refine { distinct := ?_, caps := ?_, owner := ?_, wm := ?_ }
      · intro c hc d hd heq
        rcases mem_cons.1 hc with rfl | hc <;> rcases mem_cons.1 hd with rfl | hd
        · rfl
        · exact absurd heq.symm (hfresh d hd)
        · exact absurd heq (hfresh c hc)
        · exact h.distinct c hc d hd heq
      · intro c hc huid
        rcases mem_cons.1 hc with rfl | hc
        · exact UInt32.zero_and
        · exact h.caps c hc huid
      · intro s hs huse
        obtain ⟨c, hc, howner⟩ := h.owner s hs huse
        exact ⟨c, mem_cons_of_mem _ hc, howner⟩
      · intro fd' hwm
        obtain ⟨c, hc, hroot⟩ := h.wm fd' hwm
        exact ⟨c, mem_cons_of_mem _ hc, hroot⟩
    · exact { h with }

theorem Guarded.step (h : Guarded st) {mode : Mode} {e : Event} (he : Fresh st e) :
    Guarded (step mode st e) := by
  refine inv_step (fun _ _ _ h => { h with }) ?_ ?_ ?_ h
  · rintro fd uid watched rfl h
    exact h.accept he fd uid watched
  · exact fun fd r env h => Guarded.kept.readClient env fd r h
  · exact fun fd h => h.closeFd fd

/-- **What only root may have.**  In every run whose clients are accepted with a session id that no
connected client has, clients that are not root hold no privileged capability and own nothing on a
privileged layer, and the window manager is a connected client of root. -/
theorem confined_run {mode : Mode} {events : List Event}
    (h : Along (step mode) Fresh {} events) : Confined (run (step mode) {} events) := by
  have hg : Guarded (run (step mode) {} events) :=
    inv_run (I := Guarded) (fun _ _ hg he => hg.step he) guarded_init h
  exact hg.confined

theorem confined_run_sample :
    Along (step ⟨1920, 1080⟩) Fresh {} sampleConnects ∧
      Confined (run (step ⟨1920, 1080⟩) {} sampleConnects) :=
  have h : Along (step ⟨1920, 1080⟩) Fresh {} sampleConnects := by decide +kernel
  ⟨h, confined_run h⟩

/-! ## The counter wraps -/

/-- Clients that connect and hang up, one after the other. -/
def churn (fd : Nat) (uid : UInt32) : Nat → List Event
  | 0 => []
  | n + 1 => .accept fd uid true :: .hangup fd :: churn fd uid n

/-- Nobody's surfaces go with a session that owns none. -/
theorem destroyForClient_eq_self {m : SurfaceManager}
    (h : ∀ s ∈ m.slots, s.inUse = true → s.ownerSessionId ≠ client.sessionId) :
    m.destroyForClient client = m := by
  obtain ⟨next, slots, size⟩ := m
  have hslots : (slots.map fun s =>
      if s.inUse && s.ownerSessionId == client.sessionId then .released else s) = slots := by
    refine (map_congr_left fun s hs => if_neg fun hgone => ?_).trans (map_id' slots)
    rw [Bool.and_eq_true, beq_iff_eq] at hgone
    exact h s hs hgone.1 hgone.2
  simp only [SurfaceManager.destroyForClient, hslots]

theorem remove_add {cs : Clients} (h : client.fd ∉ cs.list.map Client.fd) :
    (cs.add client h).remove client.fd = cs := by
  obtain ⟨list, -⟩ := cs
  have hlist : (client :: list).filter (·.fd ≠ client.fd) = list := by
    rw [filter_cons_of_neg (by simp), filter_eq_self]
    exact fun c hc => by simpa using fun heq => h (mem_map.2 ⟨c, hc, heq⟩)
  simp only [add, remove, hlist]

/-- A client that connects and hangs up leaves only the counter changed. -/
theorem step_accept_hangup (mode : Mode) (uid : UInt32) (hsent : st.sent = [])
    (hfd : fd ∉ st.clients.list.map Client.fd) (hwm : st.wmClient ≠ some fd)
    (hslots : ∀ s ∈ st.surfaceManager.slots, s.inUse = true → s.ownerSessionId ≠ st.nextSessionId) :
    step mode (step mode st (.accept fd uid true)) (.hangup fd) =
      { st with nextSessionId := st.nextSessionId + 1 } := by
  have hgone : ({ fd := fd, uid := uid, sessionId := st.nextSessionId } : Client).fd ∉
      st.clients.list.map Client.fd := hfd
  have haccept : step mode st (.accept fd uid true) = { st with
        nextSessionId := st.nextSessionId + 1
        clients := st.clients.add { fd := fd, uid := uid, sessionId := st.nextSessionId } hgone
        sent := [] } := by
    show accept { st with sent := [] } fd uid true = _
    rw [accept, dif_neg hfd]
    rfl
  have hfind : (st.clients.add { fd := fd, uid := uid, sessionId := st.nextSessionId } hgone).find
      fd = some { fd := fd, uid := uid, sessionId := st.nextSessionId } :=
    find_eq_some.2 ⟨mem_cons_self, rfl⟩
  rw [haccept]
  simp only [step, closeFd, hfind, closeClient, if_neg hwm]
  rw [destroyForClient_eq_self hslots, remove_add hgone, ← hsent]

theorem run_churn (mode : Mode) (uid : UInt32) (n : Nat) (hsent : st.sent = [])
    (hfd : fd ∉ st.clients.list.map Client.fd) (hwm : st.wmClient ≠ some fd)
    (hslots : ∀ s ∈ st.surfaceManager.slots, s.inUse = true →
      ∀ k < n, s.ownerSessionId ≠ st.nextSessionId + UInt32.ofNat k) :
    run (step mode) st (churn fd uid n) =
      { st with nextSessionId := st.nextSessionId + UInt32.ofNat n } := by
  induction n generalizing st with
  | zero =>
    show st = { st with nextSessionId := st.nextSessionId + 0 }
    rw [UInt32.add_zero]
  | succ n ih =>
    have hsucc : ∀ k, st.nextSessionId + 1 + UInt32.ofNat k =
        st.nextSessionId + UInt32.ofNat (k + 1) := fun k => by
      rw [UInt32.ofNat_add, UInt32.add_assoc, UInt32.add_comm 1]
      rfl
    show run (step mode) (step mode (step mode st (.accept fd uid true)) (.hangup fd)) _ = _
    rw [step_accept_hangup mode uid hsent hfd hwm
      fun s hs huse => by simpa using hslots s hs huse 0 (Nat.succ_pos n)]
    refine (@ih { st with nextSessionId := st.nextSessionId + 1 } hsent hfd hwm ?_).trans ?_
    · intro s hs huse k hk
      show s.ownerSessionId ≠ st.nextSessionId + 1 + UInt32.ofNat k
      rw [hsucc]
      exact hslots s hs huse (k + 1) (Nat.succ_lt_succ hk)
    · rw [hsucc]

/-- A root client makes a shell surface; clients of another user connect and hang up until the
counter has come around; and one more connects and stays. -/
def takeover (n : Nat) : List Event := sampleConnects ++ churn 6 1000 n ++ [.accept 6 1000 true]

/-- **A session is inherited.**  The client that is accepted when the counter has come around gets
the session of a root client that is still connected, and with it a surface above the application
layers. -/
theorem layer_inherited : ¬Confined (run (step ⟨1920, 1080⟩) {} (takeover (UInt32.size - 2))) := by
  intro h
  have hnext : sampleShared.nextSessionId = 3 := by decide +kernel
  have howner : ∀ s ∈ sampleShared.surfaceManager.slots, s.inUse = true → s.ownerSessionId = 1 := by
    decide +kernel
  have hslots : ∀ s ∈ sampleShared.surfaceManager.slots, s.inUse = true →
      ∀ k < UInt32.size - 2, s.ownerSessionId ≠ sampleShared.nextSessionId + UInt32.ofNat k := by
    intro s hs huse k hk heq
    rw [howner s hs huse, hnext] at heq
    have hsize : UInt32.size = 4294967296 := rfl
    have hnat := congrArg UInt32.toNat heq
    rw [UInt32.toNat_add, UInt32.toNat_ofNat_of_lt' (by omega)] at hnat
    change 1 = (3 + k) % 2 ^ 32 at hnat
    omega
  have hcame : (3 : UInt32) + UInt32.ofNat (UInt32.size - 2) = 1 := by decide +kernel
  rw [takeover, run_append, run_append] at h
  change Confined (run (step ⟨1920, 1080⟩) (run _ sampleShared _) _) at h
  rw [run_churn _ _ _ (by decide +kernel) (by decide +kernel) (by decide +kernel) hslots, hnext,
    hcame] at h
  have hlayer := h.surfaces { fd := 6, uid := 1000, sessionId := 1 } (by decide +kernel) (by decide)
    { inUse := true, id := 1, ownerSessionId := 1, surfaceType := 3, width := 100, height := 30,
      layer := 200 } (by decide +kernel) rfl rfl
  exact absurd hlayer (by decide)

end Compositor
