import MahinaOS.Control.Daemon

/-!
# What reaches a provider

Of the requests that the control daemon processes, few are dispatched: a line may not decode, the
answer may come from the idempotency cache, the command may not parse and the peer may not be
allowed it.  `Daemon.dispatched` is the command that gets past all of that, and
`Daemon.processRequest_of_dispatched` and `Daemon.processRequest_outcome` say that it is what
`process_request` goes by: the providers decide the response exactly if something is dispatched.

* **`tokenless_dispatched_iff`**: what is dispatched for a peer that is not root and shows no token.
* **`dispatched_once`**: a mutating command is dispatched once per request id.
* **`Daemon.approved_run`**: the audit log approves what is dispatched, as far as its lines can be
  appended.
-/

namespace Control

open Run List Option

/-! ## Dispatched commands -/

/-- The command that `process_request` hands to the providers, if it gets that far. -/
def Daemon.dispatched (fromStr : Decoder) (d : Daemon) (i : Incoming) : Option DomainCommand :=
  match fromStr (Text.trim i.line) with
  | .error _ => none
  | .ok req =>
    match req.requestId.bind d.idempotency.get with
    | some _ => none
    | none =>
      match DomainCommand.parse req.method req.params with
      | .error _ => none
      | .ok cmd =>
        match authorize i.peer cmd req.capabilityToken with
        | .error _ => none
        | .ok _ => some cmd

section

variable {fromStr : Decoder} {d : Daemon} {i : Incoming} {req : Request} {cmd : DomainCommand}

/-- A command is dispatched if it is not in the cache, parses, and the peer may have it. -/
theorem Daemon.dispatched_eq_some (hreq : requestOf fromStr i = some req) :
    d.dispatched fromStr i = some cmd ↔
      req.requestId.bind d.idempotency.get = none ∧
        DomainCommand.parse req.method req.params = .ok cmd ∧
        ∃ tier, authorize i.peer cmd req.capabilityToken = .ok tier := by
  rw [Daemon.dispatched, requestOf_eq_some.1 hreq]
  dsimp only
  cases hget : req.requestId.bind d.idempotency.get with
  | some r => simp
  | none =>
    rcases hcmd : DomainCommand.parse req.method req.params with e | c
    · simp
    · dsimp only
      rcases hauth : authorize i.peer c req.capabilityToken with e | tier
      · refine iff_of_false nofun ?_
        rintro ⟨-, hc, tier, htier⟩
        rw [← Except.ok.inj hc, hauth] at htier
        cases htier
      · constructor
        · intro h
          obtain rfl := some.inj h
          exact ⟨rfl, rfl, tier, hauth⟩
        · rintro ⟨-, hc, -⟩
          rw [Except.ok.inj hc]

/-- What is dispatched is answered with what the provider makes of it. -/
theorem Daemon.processRequest_of_dispatched (hreq : requestOf fromStr i = some req)
    (h : d.dispatched fromStr i = some cmd) :
    ∃ tier, d.processRequest fromStr i = d.dispatch i req cmd tier := by
  obtain ⟨hget, hcmd, tier, hauth⟩ := (dispatched_eq_some hreq).1 h
  refine ⟨tier, ?_⟩
  rw [Daemon.processRequest, requestOf_eq_some.1 hreq]
  dsimp only
  rw [hget]
  exact execute_authorized hcmd hauth

/-- Where nothing is dispatched, the providers have no say. -/
theorem Daemon.processRequest_outcome (h : d.dispatched fromStr i = none)
    (outcome : DomainCommand → Except ControlError Json) :
    d.processRequest fromStr { i with outcome := outcome } = d.processRequest fromStr i := by
  rw [Daemon.dispatched] at h
  rw [Daemon.processRequest, Daemon.processRequest]
  dsimp only
  split
  · rfl
  · rename_i req hdec
    rw [hdec] at h
    dsimp only at h
    split
    · rfl
    · rename_i hget
      rw [hget] at h
      rw [Daemon.execute, Daemon.execute]
      dsimp only
      split
      · rfl
      · rename_i cmd hcmd
        rw [hcmd] at h
        dsimp only at h
        split
        · rfl
        · rename_i tier hauth
          rw [hauth] at h
          cases h

end

/-! ## Peers without authority -/

/-- **A peer without authority can ask but not act.**  In every state of the daemon, for every
request without a capability token from a peer that is not root: a command is dispatched exactly if
it is the one the method and parameters stand for, the cache does not answer, and the command is not
a mutating one. -/
theorem tokenless_dispatched_iff (fromStr : Decoder) (d : Daemon) {i : Incoming} {req : Request}
    (hreq : requestOf fromStr i = some req) (huid : i.peer.uid ≠ 0)
    (htoken : req.capabilityToken = none) (cmd : DomainCommand) :
    d.dispatched fromStr i = some cmd ↔
      req.requestId.bind d.idempotency.get = none ∧
        DomainCommand.parse req.method req.params = .ok cmd ∧ cmd.isMutating = false := by
  rw [Daemon.dispatched_eq_some hreq, htoken, authorize_tokenless huid]

/-- A decoder that reads every line as a request for the state of the system. -/
def stateDecoder : Decoder := fun _ => .ok { id := 1, method := "system.get_state" }

/-- An ordinary user asks for the state of the system, and for a reboot. -/
theorem tokenless_dispatched_iff_sample :
    Daemon.new.dispatched stateDecoder (sampleIncoming 1000) = some .systemGetState ∧
      Daemon.new.dispatched sampleDecoder (sampleIncoming 1000) ≠ some .systemReboot := by
  constructor
  · exact (tokenless_dispatched_iff stateDecoder .new rfl (by decide) rfl .systemGetState).2
      ⟨rfl, rfl, rfl⟩
  · intro h
    have hquery := (tokenless_dispatched_iff sampleDecoder .new rfl (by decide) rfl _).1 h
    exact absurd hquery.2.2 (by decide)

/-! ## Repeated requests -/

/-- The request id of the line, if it is a request that has one. -/
def requestIdOf (fromStr : Decoder) (i : Incoming) : Option String :=
  (requestOf fromStr i).bind (·.requestId)

/-- The request id under which the response is stored: that of a dispatched mutating command. -/
def Daemon.storedId (fromStr : Decoder) (d : Daemon) (i : Incoming) : Option String :=
  match d.dispatched fromStr i with
  | some cmd => if cmd.isMutating then requestIdOf fromStr i else none
  | none => none

def Daemon.step (fromStr : Decoder) (d : Daemon) (i : Incoming) : Daemon :=
  (d.processRequest fromStr i).1

/-- The request ids of the mutating commands that are dispatched along a sequence of requests. -/
def Daemon.storedIds (fromStr : Decoder) (d : Daemon) : List Incoming → List String
  | [] => []
  | i :: is => (d.storedId fromStr i).toList ++ (d.step fromStr i).storedIds fromStr is

section

variable {fromStr : Decoder} {s : History} {i : Incoming} {req : Request} {cmd : DomainCommand}
  {id : String}

/-- A dispatched mutating command with a request id is remembered. -/
theorem History.step_remembered_of_dispatched (hreq : requestOf fromStr i = some req)
    (h : s.daemon.dispatched fromStr i = some cmd) (hmut : cmd.isMutating = true)
    (hid : req.requestId = some id) :
    (s.step fromStr i).remembered =
      s.remembered ++ [⟨id, i.peer, cmd, req.id, i.outcome cmd⟩] := by
  obtain ⟨hget, hcmd, hauth⟩ := (Daemon.dispatched_eq_some hreq).1 h
  rw [History.step]
  simp only [hreq, hget, rememberedEntry_eq_some ⟨hid, hcmd, hmut, hauth⟩, toList_some]

theorem History.step_remembered_of_none (h : s.daemon.storedId fromStr i = none) :
    (s.step fromStr i).remembered = s.remembered := by
  rw [History.step]
  split
  · rfl
  · rename_i req hreq
    split
    · rfl
    · rename_i hget
      rw [rememberedEntry_eq_none, toList_none, append_nil]
      rintro id cmd ⟨hid, hcmd, hmut, hauth⟩
      rw [Daemon.storedId, (Daemon.dispatched_eq_some hreq).2 ⟨hget, hcmd, hauth⟩] at h
      simp [hmut, requestIdOf, hreq, hid] at h

theorem History.step_remembered (fromStr : Decoder) (s : History) (i : Incoming) :
    ∃ later, (s.step fromStr i).remembered = s.remembered ++ later ∧
      later.map (·.requestId) = (s.daemon.storedId fromStr i).toList := by
  rcases hst : s.daemon.storedId fromStr i with - | id
  · exact ⟨[], by rw [step_remembered_of_none hst, append_nil], rfl⟩
  · rw [Daemon.storedId] at hst
    split at hst
    · rename_i cmd hdis
      split at hst
      · rename_i hmut
        obtain ⟨req, hreq, hid⟩ := bind_eq_some_iff.1 hst
        exact ⟨_, step_remembered_of_dispatched hreq hdis hmut hid, rfl⟩
      · cases hst
    · cases hst

theorem History.run_remembered (fromStr : Decoder) (s : History) (is : List Incoming) :
    (run (History.step fromStr) s is).daemon = run (Daemon.step fromStr) s.daemon is ∧
      ∃ later, (run (History.step fromStr) s is).remembered = s.remembered ++ later ∧
        later.map (·.requestId) = s.daemon.storedIds fromStr is := by
  induction is generalizing s with
  | nil => exact ⟨rfl, [], (append_nil _).symm, rfl⟩
  | cons i is ih =>
    obtain ⟨hdaemon, l₂, hl₂, hids₂⟩ := ih (s.step fromStr i)
    obtain ⟨l₁, hl₁, hids₁⟩ := s.step_remembered fromStr i
    refine ⟨hdaemon, l₁ ++ l₂, ?_, ?_⟩
    · rw [← append_assoc, ← hl₁]
      exact hl₂
    · rw [map_append, hids₁, hids₂]
      rfl

/-- A response is stored only under an id that the cache does not have. -/
theorem History.Inv.storedId_fresh (h : s.Inv) (hst : s.daemon.storedId fromStr i = some id) :
    id ∉ Fifo.recent defaultCapacity (s.remembered.map (·.requestId)) := by
  rw [map_recent]
  intro hmem
  obtain ⟨e, he, rfl⟩ := List.mem_map.1 hmem
  have hget := h.get_eq_some.2 ⟨e, he, rfl, rfl⟩
  rw [Daemon.storedId] at hst
  split at hst
  · rename_i cmd hdis
    split at hst
    · obtain ⟨req, hreq, hid⟩ := bind_eq_some_iff.1 hst
      obtain ⟨hmiss, -⟩ := (Daemon.dispatched_eq_some hreq).1 hdis
      rw [hid, bind_some, hget] at hmiss
      cases hmiss
    · cases hst
  · cases hst

end

/-- The cache invariant, and no request id stored twice within 1024 others. -/
structure History.Spaced (s : History) : Prop extends s.Inv where
  spaced : Fifo.Spaced defaultCapacity (s.remembered.map (·.requestId))

variable {fromStr : Decoder}

theorem History.Spaced.step {s : History} (h : s.Spaced) (i : Incoming) :
    (s.step fromStr i).Spaced := by
  refine ⟨h.toInv.step i, ?_⟩
  obtain ⟨later, hrem, hids⟩ := s.step_remembered fromStr i
  rw [hrem, map_append, hids]
  rcases hst : s.daemon.storedId fromStr i with - | id
  · rw [toList_none, append_nil]
    exact h.spaced
  · exact h.spaced.concat (h.toInv.storedId_fresh hst)

/-- What the cache holds is returned, and nothing is dispatched. -/
theorem Daemon.processRequest_cached {d : Daemon} {i : Incoming} {id : String} {r : Response}
    (hid : requestIdOf fromStr i = some id) (hget : d.idempotency.get id = some r) :
    d.dispatched fromStr i = none ∧ d.processRequest fromStr i = (d, r) := by
  obtain ⟨req, hreq, hid⟩ := bind_eq_some_iff.1 hid
  have hhit : req.requestId.bind d.idempotency.get = some r := by rw [hid, bind_some, hget]
  constructor
  · rw [Daemon.dispatched, requestOf_eq_some.1 hreq]
    dsimp only
    rw [hhit]
  · rw [Daemon.processRequest, requestOf_eq_some.1 hreq]
    dsimp only
    rw [hhit]

/-- **A mutating command is dispatched once per request id.**  Whatever came before: once a mutating
command with request id `id` has been dispatched, a further request with that id is not dispatched
and gets the response of the first, as long as the mutating commands dispatched in between have
fewer than 1024 other request ids. -/
theorem dispatched_once (fromStr : Decoder) (before after : List Incoming) {first again : Incoming}
    {cmd : DomainCommand} {id : String}
    (hfirst : (run (Daemon.step fromStr) .new before).dispatched fromStr first = some cmd)
    (hmut : cmd.isMutating = true) (hid : requestIdOf fromStr first = some id)
    (hfew : ((((run (Daemon.step fromStr) .new before).step fromStr first).storedIds fromStr
      after).toFinset.erase id).card < 1024)
    (hagain : requestIdOf fromStr again = some id) :
    (run (Daemon.step fromStr) .new (before ++ first :: after)).dispatched fromStr again = none ∧
      ((run (Daemon.step fromStr) .new (before ++ first :: after)).processRequest fromStr again).2 =
        ((run (Daemon.step fromStr) .new before).processRequest fromStr first).2 := by
  obtain ⟨req, hreq, hid⟩ := bind_eq_some_iff.1 hid
  obtain ⟨hdaemon, -⟩ := History.start.run_remembered fromStr before
  have hspaced : (run (History.step fromStr) History.start (before ++ first :: after)).Spaced :=
    inv_run_of_forall (fun _ i h => h.step i) ⟨History.inv_start, Fifo.spaced_nil⟩ _
  rw [run_append] at hspaced ⊢
  change (run (History.step fromStr) (History.step fromStr _ first) after).Spaced at hspaced
  generalize hs : run (History.step fromStr) History.start before = s at hdaemon hspaced
  have hd : run (Daemon.step fromStr) .new before = s.daemon := hdaemon.symm
  rw [hd] at hfirst hfew ⊢
  -- the history ends with the entry of the first request and what was stored after it
  have hentry := History.step_remembered_of_dispatched hreq hfirst hmut hid
  obtain ⟨hdaemon', later, hlater, hids⟩ :=
    (s.step fromStr first).run_remembered fromStr after
  rw [hentry, append_assoc, singleton_append] at hlater
  have hlen : later.length < defaultCapacity := by
    have hsp := hspaced.spaced
    rw [hlater, map_append] at hsp
    rw [← length_map (·.requestId)]
    refine hsp.length_lt ?_
    rw [hids]
    exact hfew
  have hget := hspaced.toInv.get_eq_some.2 ⟨_, hlater ▸ Fifo.mem_recent_of_lt hlen, rfl, rfl⟩
  rw [hdaemon'] at hget
  obtain ⟨hnone, hresp⟩ := Daemon.processRequest_cached hagain hget
  refine ⟨hnone, ?_⟩
  obtain ⟨tier, hdis⟩ := Daemon.processRequest_of_dispatched hreq hfirst
  rw [hdis]
  have hsnd := congrArg Prod.snd hresp
  exact hsnd

/-- Root's reboot, sent twice. -/
theorem dispatched_once_sample :
    let d := run (Daemon.step sampleDecoder) .new ([] ++ sampleIncoming 0 :: [sampleIncoming 1000])
    d.dispatched sampleDecoder (sampleIncoming 0) = none ∧
      (d.processRequest sampleDecoder (sampleIncoming 0)).2 =
        (Daemon.new.processRequest sampleDecoder (sampleIncoming 0)).2 :=
  have hfirst : Daemon.new.dispatched sampleDecoder (sampleIncoming 0) = some .systemReboot := by
    decide +kernel
  have hid : requestIdOf sampleDecoder (sampleIncoming 0) = some "uuid-test-1" := by
    decide +kernel
  dispatched_once sampleDecoder [] [sampleIncoming 1000] hfirst rfl hid (by decide +kernel) hid

/-! ## The audit log -/

/-- Who asked, for what, and whether the provider did it. -/
abbrev Deed := UInt32 × Int32 × String × Bool

/-- What the approved events among these say was done. -/
def approved (events : List AuditEvent) : List Deed :=
  (events.filter (·.authorization = "approved")).map fun e =>
    (e.callerUid, e.callerPid, e.operation, e.result = "success")

/-- What is done for a request: the command that is dispatched, if one is. -/
def Daemon.done (fromStr : Decoder) (d : Daemon) (i : Incoming) : List Deed :=
  (d.dispatched fromStr i).toList.map fun cmd =>
    (i.peer.uid, i.peer.pid, cmd.methodName, (i.outcome cmd).isOk)

/-- What is done for a request and can be written to the log file. -/
def Daemon.recorded (fromStr : Decoder) (d : Daemon) (i : Incoming) : List Deed :=
  if i.appends then d.done fromStr i else []

theorem Daemon.audit_dispatch (d : Daemon) (i : Incoming) (req : Request) (cmd : DomainCommand)
    (tier : IdentityTier) :
    ∃ event, approved [event] = [(i.peer.uid, i.peer.pid, cmd.methodName, (i.outcome cmd).isOk)] ∧
      (d.dispatch i req cmd tier).1.audit = d.audit.log i.appends event := by
  rw [dispatch]
  -- the log does not depend on what is remembered
  rcases i.outcome cmd with e | value
  · refine ⟨auditEvent i.now req.requestId i.peer tier.asStr cmd.methodName true false
      (some e.display), by simp [approved, auditEvent, Except.isOk, Except.toBool], ?_⟩
    rcases req.requestId <;> cases cmd.isMutating <;> rfl
  · refine ⟨auditEvent i.now req.requestId i.peer tier.asStr cmd.methodName true true none,
      by simp [approved, auditEvent, Except.isOk, Except.toBool], ?_⟩
    rcases req.requestId <;> cases cmd.isMutating <;> rfl

theorem approved_append (events events' : List AuditEvent) :
    approved (events ++ events') = approved events ++ approved events' := by
  simp [approved]

/-- A request logs at most one event, which is approved exactly if something is done. -/
theorem Daemon.audit_step (fromStr : Decoder) (d : Daemon) (i : Incoming) :
    ∃ event : Option AuditEvent, approved event.toList = d.done fromStr i ∧
      (d.step fromStr i).audit = event.elim d.audit (d.audit.log i.appends) := by
  rw [done, dispatched, step, processRequest]
  rcases fromStr (Text.trim i.line) with e | req
  · exact ⟨some _, by simp [approved, auditEvent], rfl⟩
  · dsimp only
    rcases req.requestId.bind d.idempotency.get with - | r
    · rw [execute]
      rcases DomainCommand.parse req.method req.params with e | cmd
      · exact ⟨some _, by simp [approved, auditEvent], rfl⟩
      · dsimp only
        rcases authorize i.peer cmd req.capabilityToken with e | tier
        · exact ⟨some _, by simp [approved, auditEvent], rfl⟩
        · obtain ⟨event, happroved, haudit⟩ := d.audit_dispatch i req cmd tier
          exact ⟨some event, happroved, haudit⟩
    · exact ⟨none, rfl, rfl⟩

/-- **The audit log is what was done.**  For every sequence of requests, the approved events in the
log file are the commands that were dispatched, one each and in order, with the peer that asked and
the outcome; those are left out whose line could not be appended. -/
theorem Daemon.approved_run (fromStr : Decoder) (d : Daemon) (requests : List Incoming) :
    (run (step fromStr) d requests).audit.logFile.map approved =
      d.audit.logFile.map fun file =>
        approved file ++ trace (step fromStr) (recorded fromStr) d requests := by
  induction requests generalizing d with
  | nil => simp [run, trace]
  | cons i requests ih =>
    obtain ⟨event, hevent, haudit⟩ := d.audit_step fromStr i
    refine (ih _).trans ?_
    rw [haudit, trace, recorded, ← hevent]
    rcases event with - | event
    · simp [approved]
    · rcases d.audit with ⟨inMemory, file⟩
      cases i.appends <;> simp [AuditLogger.log, approved_append, Function.comp_def]

end Control
