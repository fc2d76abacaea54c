import MahinaOS.LunaInit.Depgraph

/-!
# luna-init: the service supervisor

The supervisor drives the service table.  `supervisorPump` runs on a 100 ms timer: it first polls
the readiness of the services that were started, then tries to start those that are `PENDING` and
whose dependencies are up, in topological order.  `supervisorStartAll` begins Stage 4 of the boot,
`supervisorStartOne` and `supervisorStopOne` serve the control socket and Stage 5, and
`reaperOnExit` is called for every reaped child.

What the system answers during a call is an argument of it: the clock, the readiness probes, the
outcome of each `fork`, how a stopped process ended.  A pump also returns the calls of
`spawn_service` it made, each with the table it was made in (`Attempt`).

* `checkReadiness_cases`, `startService_cases`, `Service.exited_cases` say once what each step can
  do to an entry.
* `visits_induct` and `visits_split` are the induction rules of the second phase of the pump.
* **`supervisorPump_advance`** says what a whole pump can do to an entry.
-/

namespace LunaInit

open List

/-- The supervisor's globals: the table, the dependency graph and `g_signal_ready`. -/
structure Supervisor where
  table : Table
  graph : Graph
  signalReady : Nat → Bool := fun _ => false

/-- `service_load_all` followed by `depgraph_build`, as at boot and at every reload, with the result
of the build. -/
def loadServices (dir : Option (List DirEntry)) (sup : Supervisor) :
    Supervisor × Except BuildError Unit :=
  let r := depgraphBuild (serviceLoadAll dir sup.table)
  ({ sup with table := r.1, graph := r.2.1 }, r.2.2)

def Supervisor.zero : Supervisor := { table := Table.zero, graph := Graph.empty }

/-- What `stat` and `fork` answer to `spawn_service`, with the pid of the child and the time at
which its start is recorded. -/
inductive SpawnOutcome
  | binaryMissing
  | forkFailed
  | forked (pid : Nat) (now : Int)
  deriving DecidableEq, Repr

/-- What the system answers during one pump.  `now` is the clock at its start (`CLOCK_MONOTONIC_RAW`
is never negative), `checkNow i` the clock when the readiness of service `i` is checked, and
`probe i` the result of that service's file, socket or HTTP probe. -/
structure PumpEnv where
  now : Nat
  checkNow : Nat → Int
  probe : Nat → Bool
  spawn : Nat → SpawnOutcome

/-- A system in which no probe succeeds and every fork does, with the given pid. -/
def forkingEnv (now pid : Nat) : PumpEnv where
  now := now
  checkNow _ := now
  probe _ := false
  spawn _ := .forked pid now

/-! ## Polling readiness -/

/-- `supervisor_check_ready`. -/
def supervisorCheckReady (s : Service) (now : Int) (signalReady probe : Bool) : Bool :=
  if now - s.startTimeMs > s.readyTimeoutMs then false
  else
    match s.readyMethod with
    | .none => true
    | .file | .socket | .http => probe
    | .signal => signalReady

/-- The first phase of the pump, for one service. -/
def checkReadiness (env : PumpEnv) (signalReady : Bool) (i : Nat) (s : Service) : Service :=
  if s.state = .starting then
    if s.readyMethod = .none then { s with state := .running }
    else if supervisorCheckReady s (env.checkNow i) signalReady (env.probe i) then
      { s with state := .running }
    else if (env.now : Int) - s.startTimeMs ≥ s.readyTimeoutMs then { s with state := .degraded }
    else s
  else s

def pollReadiness (env : PumpEnv) (sup : Supervisor) : Table :=
  { sup.table with
    svc := fun i =>
      if i < sup.table.count then checkReadiness env (sup.signalReady i) i (sup.table.svc i)
      else sup.table.svc i }

/-- Polling changes at most the state of a `STARTING` service. -/
theorem checkReadiness_cases (env : PumpEnv) (r : Bool) (i : Nat) (s : Service) :
    checkReadiness env r i s = s ∨ s.state = .starting ∧
      (checkReadiness env r i s = { s with state := .running } ∨
        checkReadiness env r i s = { s with state := .degraded }) := by
  rw [checkReadiness]
  split
  · next hs =>
    split
    · exact .inr ⟨hs, .inl rfl⟩
    · split
      · exact .inr ⟨hs, .inl rfl⟩
      · split
        · exact .inr ⟨hs, .inr rfl⟩
        · exact .inl rfl
  · exact .inl rfl

variable {env : PumpEnv} {sup : Supervisor} {i : Nat} {t : Table}

/-- What holds of an entry and of it with another state after `STARTING` holds after polling. -/
theorem pollReadiness_elim {P : Service → Prop} (hs : P (sup.table.svc i))
    (hrun : (sup.table.svc i).state = .starting → P { sup.table.svc i with state := .running })
    (hdeg : (sup.table.svc i).state = .starting → P { sup.table.svc i with state := .degraded }) :
    P ((pollReadiness env sup).svc i) := by
  rw [pollReadiness]
  dsimp only
  split
  · rcases checkReadiness_cases env (sup.signalReady i) i (sup.table.svc i) with h | ⟨hst, h | h⟩
    · rw [h]
      exact hs
    · rw [h]
      exact hrun hst
    · rw [h]
      exact hdeg hst
  · exact hs

/-! ## Starting services -/

/-- `spawn_service`: the entry after the call, and whether a pid was returned.  Everything between
`fork` and `execve` happens in the child. -/
def spawnService (o : SpawnOutcome) (s : Service) : Service × Bool :=
  match o with
  | .binaryMissing => ({ s with state := .degraded }, false)
  | .forkFailed => (s, false)
  | .forked pid now => ({ s with pid := pid, state := .starting, startTimeMs := now }, true)

/-- The call of `spawn_service` in the pump: a failure that is not recorded yet is. -/
def startService (o : SpawnOutcome) (s : Service) : Service :=
  let r := spawnService o s
  if !r.2 && r.1.state ≠ .degraded then { r.1 with state := .degraded } else r.1

theorem startService_cases (o : SpawnOutcome) (s : Service) :
    startService o s = { s with state := .degraded } ∨ ∃ pid now, o = .forked pid now ∧
      startService o s = { s with pid := pid, state := .starting, startTimeMs := now } := by
  cases o with
  | binaryMissing => exact .inl rfl
  | forkFailed =>
    left
    by_cases hs : s.state = .degraded
    · have hself : startService .forkFailed s = s := by simp [startService, spawnService, hs]
      rw [hself, ← hs]
    · simp [startService, spawnService, hs]
  | forked pid now => exact .inr ⟨pid, now, rfl, rfl⟩

/-- `RUNNING` or `DEGRADED`: the service does not hold up those that wait for it. -/
def Service.up (s : Service) : Bool := s.state = .running || s.state = .degraded

/-- The start gate of the pump: all resolved dependencies are up. -/
def canStart (t : Table) (i : Nat) : Bool :=
  (t.svc i).depIndices.all fun d => !decide (d < t.count) || (t.svc d).up

/-- The pump calls `spawn_service` for entry `i`. -/
def startable (env : PumpEnv) (t : Table) (i : Nat) : Bool :=
  (t.svc i).state = .pending && !decide ((env.now : Int) < (t.svc i).scheduledStartMs) &&
    canStart t i

/-- A call of `spawn_service`: the service, the table in which it is made, and its outcome. -/
structure Attempt where
  service : Nat
  table : Table
  outcome : SpawnOutcome

/-- The second phase of the pump, for one service of the order. -/
def visit (env : PumpEnv) (acc : Table × List Attempt) (i : Nat) : Table × List Attempt :=
  if startable env acc.1 i then
    (acc.1.set i (startService (env.spawn i) (acc.1.svc i)), acc.2 ++ [⟨i, acc.1, env.spawn i⟩])
  else acc

/-- `supervisor_pump`, with its calls of `spawn_service`. -/
def supervisorPump (env : PumpEnv) (sup : Supervisor) : Supervisor × List Attempt :=
  let t := pollReadiness env sup
  match depgraphTopoSort t.count sup.graph with
  | none => ({ sup with table := t }, [])
  | some order =>
    let r := order.foldl (visit env) (t, [])
    ({ sup with table := r.1 }, r.2)

theorem canStart_iff :
    canStart t i = true ↔ ∀ d ∈ (t.svc i).depIndices, d < t.count → (t.svc d).up = true := by
  simp only [canStart, all_eq_true, Bool.or_eq_true, Bool.not_eq_true', decide_eq_false_iff_not]
  refine forall₂_congr fun d _ => ?_
  tauto

theorem startable_iff : startable env t i = true ↔
    (t.svc i).state = .pending ∧ (t.svc i).scheduledStartMs ≤ env.now ∧ canStart t i = true := by
  simp [startable, and_assoc]

variable {P : Table → List Attempt → Prop}

/-- **The induction rule of the second phase.**  What holds at its start and is kept by every call
of `spawn_service` holds at its end. -/
theorem visits_induct (order : List Nat) {as : List Attempt} (h : P t as)
    (hstep : ∀ t as i, i ∈ order → startable env t i = true → P t as →
      P (t.set i (startService (env.spawn i) (t.svc i))) (as ++ [⟨i, t, env.spawn i⟩])) :
    P (order.foldl (visit env) (t, as)).1 (order.foldl (visit env) (t, as)).2 := by
  induction order generalizing t as with
  | nil => exact h
  | cons i order ih =>
    have hrest : ∀ t as j, j ∈ order → startable env t j = true → P t as →
        P (t.set j (startService (env.spawn j) (t.svc j))) (as ++ [⟨j, t, env.spawn j⟩]) :=
      fun t as j hj => hstep t as j (mem_cons_of_mem _ hj)
    rw [foldl_cons]
    by_cases hs : startable env t i = true
    · rw [visit, if_pos hs]
      exact ih (hstep t as i mem_cons_self hs h) hrest
    · rw [visit, if_neg hs]
      exact ih h hrest

/-- The second phase, position by position: `Q` may speak about the services visited so far. -/
theorem visits_split (env : PumpEnv) {Q : List Nat → Table → List Attempt → Prop}
    (order : List Nat) (t : Table) (as : List Attempt) (h : Q [] t as)
    (hstep : ∀ pre i post t as, order = pre ++ i :: post → Q pre t as →
      Q (pre ++ [i]) (visit env (t, as) i).1 (visit env (t, as) i).2) :
    Q order (order.foldl (visit env) (t, as)).1 (order.foldl (visit env) (t, as)).2 := by
  have hall : ∀ post pre t as, order = pre ++ post → Q pre t as →
      Q order (post.foldl (visit env) (t, as)).1 (post.foldl (visit env) (t, as)).2 := by
    intro post
    induction post with
    | nil =>
      intro pre t as ho hq
      rw [ho, append_nil]
      exact hq
    | cons i post ih =>
      intro pre t as ho hq
      exact ih (pre ++ [i]) _ _ (by simp [ho]) (hstep pre i post t as ho hq)
  exact hall order [] t as rfl h

theorem depgraphTopoSort_lt {n : Nat} {g : Graph} {order : List Nat}
    (h : depgraphTopoSort n g = some order) (hi : i ∈ order) : i < n := by
  unfold depgraphTopoSort at h
  dsimp only at h
  split at h
  · cases h
    exact Kahn.sort_lt hi
  · cases h

theorem pump_induct (h : P (pollReadiness env sup) [])
    (hstep : ∀ t as i, i < sup.table.count → startable env t i = true → P t as →
      P (t.set i (startService (env.spawn i) (t.svc i))) (as ++ [⟨i, t, env.spawn i⟩])) :
    P (supervisorPump env sup).1.table (supervisorPump env sup).2 := by
  rw [supervisorPump]
  rcases ho : depgraphTopoSort (pollReadiness env sup).count sup.graph with - | order
  · exact h
  · exact visits_induct order h fun t as i hi => hstep t as i (depgraphTopoSort_lt ho hi)

@[simp] theorem supervisorPump_graph : (supervisorPump env sup).1.graph = sup.graph := by
  rw [supervisorPump]
  cases depgraphTopoSort (pollReadiness env sup).count sup.graph <;> rfl

@[simp] theorem supervisorPump_signalReady :
    (supervisorPump env sup).1.signalReady = sup.signalReady := by
  rw [supervisorPump]
  cases depgraphTopoSort (pollReadiness env sup).count sup.graph <;> rfl

@[simp] theorem supervisorPump_count : (supervisorPump env sup).1.table.count = sup.table.count :=
  pump_induct (P := fun t _ => t.count = sup.table.count) rfl fun _ _ _ _ _ h => h

/-- What one pump can do to an entry: nothing, decide the readiness of a `STARTING` service, or try
to start a `PENDING` one. -/
inductive Advance (s : Service) : Service → Prop
  | same : Advance s s
  | ready (h : s.state = .starting) : Advance s { s with state := .running }
  | timeout (h : s.state = .starting) : Advance s { s with state := .degraded }
  | failed (h : s.state = .pending) : Advance s { s with state := .degraded }
  | spawned (h : s.state = .pending) (pid : Nat) (now : Int) :
      Advance s { s with pid := pid, state := .starting, startTimeMs := now }

theorem pollReadiness_advance (i : Nat) :
    Advance (sup.table.svc i) ((pollReadiness env sup).svc i) :=
  pollReadiness_elim .same .ready .timeout

theorem startService_advance {o : SpawnOutcome} {s : Service} (h : s.state = .pending) :
    Advance s (startService o s) := by
  rcases startService_cases o s with hs | ⟨pid, now, -, hs⟩
  · rw [hs]
    exact .failed h
  · rw [hs]
    exact .spawned h pid now

/-- Only an entry that did not move yet is `PENDING`. -/
theorem Advance.eq_of_pending {s s' : Service} (h : Advance s s') (hs : s'.state = .pending) :
    s' = s := by
  cases h with
  | same => rfl
  | ready | timeout | failed | spawned => cases hs

/-- The services of the log, in the order in which they were spawned. -/
def attempted (log : List Attempt) : List Nat := log.map Attempt.service

@[simp] theorem attempted_append {log as : List Attempt} :
    attempted (log ++ as) = attempted log ++ attempted as := map_append

/-- A pump moves the entry `s` to `s'` and spawns it `n` times: at most once, only if it was
`PENDING`, and not if it still is. -/
structure Pumped (s s' : Service) (n : Nat) : Prop where
  advance : Advance s s'
  le_one : n ≤ 1
  idle : s.state ≠ .pending → n = 0
  still : s'.state = .pending → n = 0

theorem Pumped.refl (s : Service) : Pumped s s 0 :=
  ⟨.same, Nat.zero_le _, fun _ => rfl, fun _ => rfl⟩

theorem supervisorPump_pumped (env : PumpEnv) (sup : Supervisor) (i : Nat) :
    Pumped (sup.table.svc i) ((supervisorPump env sup).1.table.svc i)
      ((attempted (supervisorPump env sup).2).count i) := by
  refine pump_induct (P := fun t as => Pumped (sup.table.svc i) (t.svc i) ((attempted as).count i))
    ⟨pollReadiness_advance i, Nat.zero_le _, fun _ => rfl, fun _ => rfl⟩ fun t as j _ hj ht => ?_
  have hpending := (startable_iff.1 hj).1
  have hone : attempted [⟨j, t, env.spawn j⟩] = [j] := rfl
  rw [attempted_append, count_append, hone]
  rcases eq_or_ne i j with rfl | hij
  · -- the entry is spawned: it had not moved, and it is not `PENDING` any more
    have hsame := ht.advance.eq_of_pending hpending
    have hnone := ht.still hpending
    rw [Table.set_svc_self, hnone, count_singleton_self, hsame]
    rw [hsame] at hpending
    have hadv : Advance (sup.table.svc i) (startService (env.spawn i) (sup.table.svc i)) :=
      startService_advance hpending
    refine ⟨hadv, le_rfl, fun hne => absurd hpending hne, fun hstill => ?_⟩
    have hmoved : (startService (env.spawn i) (sup.table.svc i)).state ≠ .pending := by
      rcases startService_cases (env.spawn i) (sup.table.svc i) with h | ⟨_, _, -, h⟩ <;> simp [h]
    exact absurd hstill hmoved
  · have hzero : [j].count i = 0 := count_eq_zero.2 (by simpa using hij)
    rw [Table.set_svc_of_ne hij, hzero]
    exact ht

/-- **What a pump does to the table.** -/
theorem supervisorPump_advance (i : Nat) :
    Advance (sup.table.svc i) ((supervisorPump env sup).1.table.svc i) :=
  (supervisorPump_pumped env sup i).advance

theorem Advance.static {s s' : Service} (h : Advance s s') :
    s'.toServiceDef = s.toServiceDef ∧ s'.depIndices = s.depIndices := by
  cases h <;> exact ⟨rfl, rfl⟩

/-- The calls of `spawn_service` in a sequence of pumps. -/
def pumps : List PumpEnv → Supervisor → List Attempt
  | [], _ => []
  | env :: envs, sup => (supervisorPump env sup).2 ++ pumps envs (supervisorPump env sup).1

/-- A pump leaves a service that is not `PENDING` alone: it neither spawns it nor makes it
`PENDING`. -/
theorem supervisorPump_not_pending (h : (sup.table.svc i).state ≠ .pending) (env : PumpEnv) :
    ((supervisorPump env sup).1.table.svc i).state ≠ .pending ∧
      ∀ a ∈ (supervisorPump env sup).2, a.service ≠ i := by
  have hpump := supervisorPump_pumped env sup i
  refine ⟨fun hp => h (hpump.advance.eq_of_pending hp ▸ hp), fun a ha hservice => ?_⟩
  exact count_eq_zero.1 (hpump.idle h) (mem_map.2 ⟨a, ha, hservice⟩)

theorem pumps_not_pending {envs : List PumpEnv} (h : (sup.table.svc i).state ≠ .pending) :
    ∀ a ∈ pumps envs sup, a.service ≠ i := by
  induction envs generalizing sup with
  | nil => simp [pumps]
  | cons env envs ih =>
    obtain ⟨hstate, hspawn⟩ := supervisorPump_not_pending h env
    intro a ha
    rcases mem_append.1 ha with ha | ha
    · exact hspawn a ha
    · exact ih hstate a ha

/-! ## The other entry points -/

/-- The service that Stage 5 starts by hand. -/
def Service.isCompositor (s : Service) : Bool := s.name = "lgp-compositor"

/-- What `supervisor_start_all` does to an entry before it pumps. -/
def Service.startAll (s : Service) : Service :=
  if s.isCompositor then { s with scheduledStartMs := 0, state := .stopped }
  else if s.state ≠ .degraded then { s with scheduledStartMs := 0, state := .pending }
  else { s with scheduledStartMs := 0 }

/-- `supervisor_start_all`. -/
def supervisorStartAll (env : PumpEnv) (sup : Supervisor) : Supervisor × List Attempt :=
  supervisorPump env
    { sup with
      table := { sup.table with
        svc := fun i =>
          if i < sup.table.count then (sup.table.svc i).startAll else sup.table.svc i } }

/-- `supervisor_is_boot_complete`: a service that is still `PENDING` or `STARTING` is excused only
when one of its dependencies is `STOPPED`. -/
def supervisorIsBootComplete (t : Table) : Bool :=
  (range t.count).all fun i =>
    !((t.svc i).state = .pending || (t.svc i).state = .starting) ||
      (t.svc i).depIndices.any fun d => decide (d < t.count) && (t.svc d).state = .stopped

/-- `supervisor_start_one`, with its return value (`true` for 0, `false` for −1). -/
def supervisorStartOne (env : PumpEnv) (name : String) (sup : Supervisor) :
    (Supervisor × List Attempt) × Bool :=
  match serviceFind sup.table name with
  | none => ((sup, []), false)
  | some i =>
    let s := sup.table.svc i
    if s.state = .running || s.state = .starting then ((sup, []), true)
    else
      let r := supervisorPump env
        { sup with
          table := sup.table.set i
            { s with state := .pending, restartCount := 0, scheduledStartMs := 0 } }
      let s' := r.1.table.svc i
      (r, !(s'.state = .degraded || s'.state = .failed))

/-- How the wait of `supervisor_stop_one` ends: `waitpid` returned the child, `waitpid` knows no
such child, or the timeout passed and the child got a `SIGKILL`; the one `WNOHANG` wait after that
may or may not reap it. -/
inductive StopOutcome
  | exited
  | gone
  | killed (reaped : Bool)
  deriving DecidableEq, Repr

/-- `supervisor_stop_one`.  On each of its three ways out the entry is `STOPPED` without a pid; the
outcome only says what became of the process. -/
def supervisorStopOne (name : String) (sup : Supervisor) : Supervisor :=
  match serviceFind sup.table name with
  | none => sup
  | some i =>
    let s := sup.table.svc i
    if s.pid = 0 then sup
    else { sup with table := sup.table.set i { s with state := .stopped, pid := 0 } }

/-- The exit of a child, as `waitpid` reports it to `reaper_on_exit`.  `now` is the clock then. -/
structure ChildExit where
  pid : Nat
  exitCode : Int
  bySignal : Bool
  now : Int

/-- The restart policy applied to an exit. -/
def Service.shouldRestart (s : Service) (e : ChildExit) : Bool :=
  match s.restartPolicy with
  | .always => true
  | .onFailure => e.exitCode ≠ 0 || e.bySignal
  | .never => false

/-- What `reaper_on_exit` does to the entry of the child. -/
def Service.exited (s : Service) (e : ChildExit) : Service :=
  let s := { s with pid := 0, stopTimeMs := e.now }
  if s.state = .stopping || s.state = .stopped then { s with state := .stopped }
  else if !s.shouldRestart e then { s with state := .stopped }
  else
    let s := { s with restartCount := s.restartCount + 1 }
    if (s.restartCount : Int) > s.restartAttempts then { s with state := .degraded }
    else { s with state := .pending, scheduledStartMs := e.now + s.restartDelayMs }

/-- `reaper_on_exit`. -/
def reaperOnExit (e : ChildExit) (sup : Supervisor) : Supervisor :=
  match serviceFindByPid sup.table e.pid with
  | none => sup
  | some i => { sup with table := sup.table.set i ((sup.table.svc i).exited e) }

/-- `supervisor_signal_ready`: SIGUSR1 from a child. -/
def supervisorSignalReady (pid : Nat) (sup : Supervisor) : Supervisor :=
  match (range sup.table.count).find? fun i => (sup.table.svc i).pid = pid with
  | none => sup
  | some i => { sup with signalReady := Function.update sup.signalReady i true }

/-- An exit leaves the service stopped, degraded, or pending with one more restart counted. -/
theorem Service.exited_cases (s : Service) (e : ChildExit) :
    (s.exited e).pid = 0 ∧
      ((s.exited e).state = .stopped ∨ (s.exited e).state = .degraded ∨
        (s.exited e).state = .pending ∧ (s.exited e).restartCount = s.restartCount + 1) := by
  rw [Service.exited]
  dsimp only
  split
  · exact ⟨rfl, .inl rfl⟩
  · split
    · exact ⟨rfl, .inl rfl⟩
    · split
      · exact ⟨rfl, .inr (.inl rfl)⟩
      · exact ⟨rfl, .inr (.inr ⟨rfl, rfl⟩)⟩

@[simp] theorem supervisorSignalReady_table {pid : Nat} :
    (supervisorSignalReady pid sup).table = sup.table := by
  rw [supervisorSignalReady]
  split <;> rfl

@[simp] theorem supervisorSignalReady_graph {pid : Nat} :
    (supervisorSignalReady pid sup).graph = sup.graph := by
  rw [supervisorSignalReady]
  split <;> rfl

end LunaInit
