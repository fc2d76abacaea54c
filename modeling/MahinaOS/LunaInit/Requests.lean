import MahinaOS.LunaInit.Reachable

/-!
# luna-init: starting and stopping a service on request

`supervisor_start_one` marks the service `PENDING` and pumps once; its return value is read off the
state that the pump leaves.  `supervisor_stop_one` stops the process of the service.

A pump visits the services in the start order, so what it does to one depends on those before it.
In a sane state this comes to a condition on the polled table alone: `ComesUp` says that a service
is up after its visit, and `Turn` that it is spawned in it (`pump_turn`).

* **`start_one_answer_iff`**: when the answer tells whether the service has a process.  A service
  that has to wait for a dependency stays `PENDING`, and the answer is 0 all the same
  (`start_one_answer_wrong`).
* **`stop_one_stays_stopped_iff`**: when no process is forked for a stopped service until it is
  started again.  A service without a process is not touched, and one that waits out its restart
  delay is `PENDING` (`stop_one_respawned`).
* **`pump_complete`**: one pump starts all that can be started.
-/

namespace LunaInit

open List Option Run

/-! ## What a pump spawns -/

/-- The service is up after its visit: it was up in the polled table, or it is spawned and that
fails. -/
inductive ComesUp (env : PumpEnv) (t : Table) : Nat → Prop
  | up {i : Nat} (h : (t.svc i).up = true) : ComesUp env t i
  | fails {i : Nat} (hpending : (t.svc i).state = .pending)
      (hdue : (t.svc i).scheduledStartMs ≤ env.now)
      (hdeps : ∀ d ∈ (t.svc i).depIndices, d < t.count → ComesUp env t d)
      (hspawn : ∀ pid now, env.spawn i ≠ .forked pid now) : ComesUp env t i

/-- The service is spawned in its visit: it is due, and its dependencies are up by then. -/
structure Turn (env : PumpEnv) (t : Table) (i : Nat) : Prop where
  pending : (t.svc i).state = .pending
  due : (t.svc i).scheduledStartMs ≤ env.now
  deps : ∀ d ∈ (t.svc i).depIndices, d < t.count → ComesUp env t d

variable {s : Service} {env : PumpEnv} {i j : Nat} {pre js : List Nat} {as : List Attempt}
  {sup : Supervisor} {name : String} {st : BootRun}

/-- A service is up after its visit if it was before, or its turn came and the spawn failed. -/
theorem comesUp_iff {t : Table} :
    ComesUp env t i ↔
      (t.svc i).up = true ∨ Turn env t i ∧ ∀ pid now, env.spawn i ≠ .forked pid now := by
  constructor
  · intro h
    cases h with
    | up h => exact .inl h
    | fails hpending hdue hdeps hspawn => exact .inr ⟨⟨hpending, hdue, hdeps⟩, hspawn⟩
  · rintro (h | ⟨⟨hpending, hdue, hdeps⟩, hspawn⟩)
    · exact .up h
    · exact .fails hpending hdue hdeps hspawn

theorem startService_up (o : SpawnOutcome) (s : Service) :
    (startService o s).up = true ↔ ∀ pid now, o ≠ .forked pid now := by
  cases o with
  | forked pid now =>
    refine iff_of_false ?_ fun h => h pid now rfl
    simp [startService, spawnService, Service.up]
  | binaryMissing | forkFailed =>
    refine iff_of_true ?_ fun _ _ h => by cases h
    rcases startService_cases _ s with h | ⟨pid, now, ho, -⟩
    · rw [h]
      simp [Service.up]
    · cases ho

/-- After the visits of `pre`: the other services are as they were, these are up if they come up,
and those whose turn it was have been spawned. -/
structure Visited (env : PumpEnv) (p : Table) (pre : List Nat) (t : Table) (as : List Attempt) :
    Prop where
  static : Static p t
  rest : ∀ j, j ∉ pre → t.svc j = p.svc j
  up : ∀ j ∈ pre, (t.svc j).up = true ↔ ComesUp env p j
  turn : ∀ j, j ∈ attempted as ↔ j ∈ pre ∧ Turn env p j

theorem Visited.startable {p t : Table} (h : Visited env p pre t as) (hi : i ∉ pre)
    (hdeps : ∀ d ∈ (p.svc i).depIndices, d < p.count → d ∈ pre) :
    startable env t i = true ↔ Turn env p i := by
  rw [startable_iff, canStart_iff, h.rest i hi, h.static.count]
  have hup : (∀ d ∈ (p.svc i).depIndices, d < p.count → (t.svc d).up = true) ↔
      ∀ d ∈ (p.svc i).depIndices, d < p.count → ComesUp env p d :=
    forall₃_congr fun d hd hlt => h.up d (hdeps d hd hlt)
  rw [hup]
  exact ⟨fun ⟨a, b, c⟩ => ⟨a, b, c⟩, fun ⟨a, b, c⟩ => ⟨a, b, c⟩⟩

theorem Visited.visit {p t : Table} (h : Visited env p pre t as) (hi : i ∉ pre)
    (hdeps : ∀ d ∈ (p.svc i).depIndices, d < p.count → d ∈ pre) :
    Visited env p (pre ++ [i]) (visit env (t, as) i).1 (visit env (t, as) i).2 := by
  have hstart := h.startable hi hdeps
  rw [LunaInit.visit]
  by_cases hs : LunaInit.startable env t i = true
  · have hturn := hstart.1 hs
    have hpending : (t.svc i).state = .pending := (startable_iff.1 hs).1
    rw [if_pos hs]
    refine ⟨h.static.set (startService_advance hpending).static, fun j hj => ?_, fun j hj => ?_,
      fun j => ?_⟩
    · rw [mem_append, mem_singleton, not_or] at hj
      rw [Table.set_svc_of_ne hj.2]
      exact h.rest j hj.1
    · rcases mem_append.1 hj with hj | hj
      · have hne : j ≠ i := ne_of_mem_of_not_mem hj hi
        rw [Table.set_svc_of_ne hne]
        exact h.up j hj
      · obtain rfl := mem_singleton.1 hj
        have hdown : ¬ (p.svc j).up = true := by
          simp [Service.up, hturn.pending]
        rw [Table.set_svc_self, startService_up, comesUp_iff, or_iff_right hdown,
          and_iff_right hturn]
    · rw [attempted_append, mem_append, h.turn, mem_append]
      have hone : j ∈ attempted [⟨i, t, env.spawn i⟩] ↔ j = i := by simp [attempted]
      rw [hone, mem_singleton, or_and_right]
      exact or_congr_right ⟨fun hj => ⟨hj, hj ▸ hturn⟩, And.left⟩
  · have hturn : ¬ Turn env p i := fun ht => hs (hstart.2 ht)
    rw [if_neg hs]
    refine ⟨h.static, fun j hj => h.rest j fun hj' => hj (mem_append_left _ hj'),
      fun j hj => ?_, fun j => ?_⟩
    · rcases mem_append.1 hj with hj | hj
      · exact h.up j hj
      · obtain rfl := mem_singleton.1 hj
        rw [comesUp_iff, or_iff_left fun hc => hturn hc.1]
        show (t.svc j).up = true ↔ _
        rw [h.rest j hi]
    · show j ∈ attempted as ↔ _
      rw [h.turn, mem_append, mem_singleton, or_and_right]
      refine (or_iff_left ?_).symm
      rintro ⟨rfl, ht⟩
      exact hturn ht

/-- **What a pump spawns.**  If there is a start order, a service is spawned exactly if its turn
comes, which can be told from the polled table. -/
theorem pump_turn (h : Sane sup) {order : List Nat}
    (ho : depgraphTopoSort sup.table.count sup.graph = some order) (env : PumpEnv) :
    i ∈ attempted (supervisorPump env sup).2 ↔
      i < sup.table.count ∧ Turn env (pollReadiness env sup) i := by
  obtain ⟨hnodup, hmem, hordered⟩ := h.order ho
  have hpoll := pollReadiness_static env sup
  have ho' : depgraphTopoSort (pollReadiness env sup).count sup.graph = some order := ho
  have hvisited : Visited env (pollReadiness env sup) order
      (order.foldl (visit env) (pollReadiness env sup, [])).1
      (order.foldl (visit env) (pollReadiness env sup, [])).2 := by
    refine visits_split env (Q := Visited env (pollReadiness env sup)) order _ _
      ⟨.refl _, fun _ _ => rfl, by simp, by simp [attempted]⟩ fun pre j post t as hsplit hv => ?_
    have hj : j ∉ pre := by
      rw [hsplit, nodup_append] at hnodup
      exact fun hj => hnodup.2.2 j hj j mem_cons_self rfl
    refine hv.visit hj fun d hd _ => hordered pre j post hsplit d ⟨?_, ?_⟩
    · exact (hmem j).1 (hsplit ▸ mem_append_right _ mem_cons_self)
    · rwa [← (hpoll.entry j).2]
  simp only [supervisorPump, ho']
  rw [hvisited.turn, hmem]

/-! ## Starting one service -/

/-- The service exists and has a process: it is `STARTING` or `RUNNING` with a pid. -/
def HasProcess (sup : Supervisor) (name : String) : Prop :=
  ∃ i, serviceFind sup.table name = some i ∧ (sup.table.svc i).active = true ∧
    (sup.table.svc i).pid ≠ 0

/-- There is a start order, and by the visit of the service all its dependencies are up. -/
def TurnComes (env : PumpEnv) (sup : Supervisor) (i : Nat) : Prop :=
  (depgraphTopoSort sup.table.count sup.graph).isSome = true ∧
    ∀ d ∈ (sup.table.svc i).depIndices, d < sup.table.count →
      ComesUp env (pollReadiness env (asked sup i)) d

theorem supervisorPump_of_cyclic (ho : depgraphTopoSort sup.table.count sup.graph = none)
    (env : PumpEnv) :
    supervisorPump env sup = ({ sup with table := pollReadiness env sup }, []) := by
  have ho' : depgraphTopoSort (pollReadiness env sup).count sup.graph = none := ho
  simp only [supervisorPump, ho']

theorem pollReadiness_of_ne (h : (sup.table.svc i).state ≠ .starting) :
    (pollReadiness env sup).svc i = sup.table.svc i :=
  pollReadiness_elim (P := fun s => s = sup.table.svc i) rfl (fun hs => absurd hs h)
    fun hs => absurd hs h

/-- A service that a pump does not spawn is as polling left it. -/
theorem supervisorPump_of_not_attempted (h : i ∉ attempted (supervisorPump env sup).2) :
    (supervisorPump env sup).1.table.svc i = (pollReadiness env sup).svc i := by
  refine pump_induct (P := fun t as => i ∉ attempted as → t.svc i = (pollReadiness env sup).svc i)
    (fun _ => rfl) (fun t as j _ _ ih hnot => ?_) h
  rw [attempted_append, mem_append, not_or] at hnot
  have hij : i ≠ j := by simpa [attempted] using hnot.2
  rw [Table.set_svc_of_ne hij]
  exact ih hnot.1

/-- The attempts of a pump are for services of the table and end as the system says. -/
theorem supervisorPump_attempt :
    ∀ a ∈ (supervisorPump env sup).2,
      a.service < sup.table.count ∧ a.outcome = env.spawn a.service := by
  refine pump_induct (P := fun _ as => ∀ a ∈ as,
    a.service < sup.table.count ∧ a.outcome = env.spawn a.service) (by simp)
    fun t as i hi _ ih => ?_
  rw [forall_mem_append]
  exact ⟨ih, by simpa using hi⟩

theorem mem_attempted_of_mem_forks {p : Nat × Nat} (h : p ∈ forks as) : p.2 ∈ attempted as := by
  obtain ⟨a, ha, hservice, -⟩ := mem_forks.1 h
  exact hservice ▸ mem_map_of_mem ha

/-- A service that a pump spawns is `DEGRADED` or has the process that was forked. -/
theorem supervisorPump_of_attempted (h : i ∈ attempted (supervisorPump env sup).2) :
    let s := (supervisorPump env sup).1.table.svc i
    (s.state = .degraded ∧ ∀ pid now, env.spawn i ≠ .forked pid now) ∨
      s.state = .starting ∧ (s.pid, i) ∈ forks (supervisorPump env sup).2 := by
  refine pump_induct (P := fun t as => i ∈ attempted as →
    ((t.svc i).state = .degraded ∧ ∀ pid now, env.spawn i ≠ .forked pid now) ∨
      (t.svc i).state = .starting ∧ ((t.svc i).pid, i) ∈ forks as) (by simp [attempted])
    (fun t as j _ hj ih hmem => ?_) h
  rw [forks_append]
  rcases eq_or_ne i j with rfl | hij
  · rw [Table.set_svc_self]
    cases ho : env.spawn i with
    | forked pid now =>
      exact .inr ⟨rfl, mem_append_right _ (by simp [forks, startService, spawnService])⟩
    | binaryMissing | forkFailed =>
      left
      rcases startService_cases (env.spawn i) (t.svc i) with hs | ⟨pid, now, hf, -⟩
      · rw [← ho, hs, ho]
        exact ⟨rfl, fun _ _ h => by cases h⟩
      · rw [ho] at hf
        cases hf
  · rw [Table.set_svc_of_ne hij]
    rw [attempted_append, mem_append] at hmem
    have hmem' := hmem.resolve_right fun hc => hij (by simpa [attempted] using hc)
    exact (ih hmem').imp_right (.imp_right (mem_append_left _))

/-- In the polled table the service that was asked for is due. -/
theorem polled_asked (env : PumpEnv) (sup : Supervisor) (i : Nat) :
    (pollReadiness env (asked sup i)).svc i = { sup.table.svc i with
      state := .pending, restartCount := 0, scheduledStartMs := 0 } := by
  rw [pollReadiness_of_ne (by simp [asked])]
  exact Table.set_svc_self

/-- A service that is asked for is spawned exactly if its turn comes. -/
theorem attempted_asked_iff (h : Sane sup) (hi : i < sup.table.count) (env : PumpEnv) :
    i ∈ attempted (supervisorPump env (asked sup i)).2 ↔ TurnComes env sup i := by
  have hentry := polled_asked env sup i
  rw [TurnComes]
  rcases ho : depgraphTopoSort sup.table.count sup.graph with - | order
  · have ho' : depgraphTopoSort (asked sup i).table.count (asked sup i).graph = none := ho
    rw [supervisorPump_of_cyclic ho']
    simp [attempted]
  · have ho' : depgraphTopoSort (asked sup i).table.count (asked sup i).graph = some order := ho
    rw [pump_turn (h.asked i) ho']
    constructor
    · rintro ⟨-, ht⟩
      have hdeps := ht.deps
      rw [hentry] at hdeps
      exact ⟨rfl, hdeps⟩
    · rintro ⟨-, hdeps⟩
      refine ⟨hi, ?_, ?_, ?_⟩
      · rw [hentry]
      · rw [hentry]
        exact Int.natCast_nonneg _
      · rw [hentry]
        exact hdeps

/-- The answer to a request for a service that is not active is read off its state after the
pump. -/
theorem supervisorStartOne_answer (hf : serviceFind sup.table name = some i)
    (hidle : (sup.table.svc i).active = false) (env : PumpEnv) :
    (supervisorStartOne env name sup).2 =
      !(((supervisorPump env (asked sup i)).1.table.svc i).state = .degraded ||
        ((supervisorPump env (asked sup i)).1.table.svc i).state = .failed) := by
  rw [Service.active] at hidle
  simp only [supervisorStartOne, hf, hidle]
  rfl

/-- The answer to a request for a service that is not active: it is right exactly if the service is
spawned, whatever comes of that. -/
theorem startOne_idle_iff (hf : serviceFind sup.table name = some i)
    (hidle : (sup.table.svc i).active = false)
    (hforks : PosForks (supervisorStartOne env name sup).1.2) :
    ((supervisorStartOne env name sup).2 = true ↔
        HasProcess (supervisorStartOne env name sup).1.1 name) ↔
      i ∈ attempted (supervisorPump env (asked sup i)).2 := by
  have hpump := supervisorStartOne_of_idle hf hidle env
  have hresult := supervisorStartOne_answer hf hidle env
  have hfind : serviceFind (supervisorPump env (asked sup i)).1.table name = some i := by
    rw [(asked_static.trans (supervisorPump_static env (asked sup i))).serviceFind, hf]
  rw [hpump] at hforks
  rw [hresult, hpump, HasProcess]
  simp only [hfind, some.injEq, exists_eq_left']
  by_cases hmem : i ∈ attempted (supervisorPump env (asked sup i)).2
  · refine iff_of_true ?_ hmem
    rcases supervisorPump_of_attempted hmem with ⟨hs, -⟩ | ⟨hs, hfork⟩
    · simp [hs, Service.active]
    · simp [hs, Service.active, hforks _ hfork]
  · refine iff_of_false ?_ hmem
    rw [supervisorPump_of_not_attempted hmem, polled_asked]
    simp [Service.active]

/-- **What `supervisor_start_one` tells.**  In every reachable state and for every name, the return
value is 0 exactly if on return the service is `STARTING` or `RUNNING` with a pid — provided that
the service does not exist, is active already, or comes to its turn in the pump of this call: there
is a start order, and each of its dependencies is up when it is visited. -/
theorem start_one_answer_iff {sup : Supervisor} (h : Reachable sup) {env : PumpEnv} {name : String}
    (hforks : PosForks (supervisorStartOne env name sup).1.2) :
    ((supervisorStartOne env name sup).2 = true ↔
        HasProcess (supervisorStartOne env name sup).1.1 name) ↔
      ∀ i, serviceFind sup.table name = some i → (sup.table.svc i).active = false →
        TurnComes env sup i := by
  have hsane := sane_of_reachable h
  rcases hf : serviceFind sup.table name with - | i
  · refine iff_of_true ?_ nofun
    rw [supervisorStartOne_of_none hf, HasProcess]
    simp [hf]
  · have hi := (serviceFind_eq_some hf).1
    simp only [some.injEq, forall_eq']
    cases hactive : (sup.table.svc i).active with
    | true =>
      refine iff_of_true ?_ nofun
      rw [supervisorStartOne_of_active hf hactive]
      exact iff_of_true rfl ⟨i, hf, hactive, hsane.live i hi hactive⟩
    | false =>
      rw [startOne_idle_iff hf hactive hforks, attempted_asked_iff hsane hi]
      exact ⟨fun ht _ => ht, fun ht => ht rfl⟩

def sampleNet : List DirEntry :=
  [⟨"network.toml", some { name := "network", binary := "/usr/bin/networkd" }⟩,
    ⟨"sshd.toml", some { name := "sshd", binary := "/usr/bin/sshd", after := ["network"] }⟩]

theorem reachable_sampleNet : Reachable (loaded sampleNet) :=
  Reachable.boot.event (.reload (some sampleNet)) (by decide)

/-- A service without dependencies is spawned at once, and the answer is right. -/
theorem start_one_answer_network :
    (supervisorStartOne (forkingEnv 100 41) "network" (loaded sampleNet)).2 = true ↔
      HasProcess (supervisorStartOne (forkingEnv 100 41) "network" (loaded sampleNet)).1.1
        "network" := by
  refine (start_one_answer_iff reachable_sampleNet (by decide +kernel)).2 fun i hf _ => ?_
  have hfound : serviceFind (loaded sampleNet).table "network" = some 0 := by decide +kernel
  obtain rfl : i = 0 := some.inj (hf.symm.trans hfound)
  have hdeps : ((loaded sampleNet).table.svc 0).depIndices = [] := by decide +kernel
  refine ⟨by decide +kernel, ?_⟩
  exact nofun

/-- Both services have been started and stopped.  `sshd` is started while `network` is not up: it
stays `PENDING` without a process, and the answer is 0. -/
theorem start_one_answer_wrong :
    let sup := Run.run (fun sup e => (SupEvent.perform sup e).1) Supervisor.zero
      [.reload (some sampleNet), .call (.startAll (forkingEnv 100 41)),
        .call (.pump (forkingEnv 200 42)), .call (.stopOne "sshd"), .call (.stopOne "network")]
    let r := supervisorStartOne (forkingEnv 300 43) "sshd" sup
    serviceFind sup.table "sshd" = some 1 ∧ (sup.table.svc 1).state = .stopped ∧ r.2 = true ∧
      (r.1.1.table.svc 1).state = .pending ∧ (r.1.1.table.svc 1).pid = 0 := by
  decide +kernel

/-! ## Stopping one service -/

/-- After `supervisor_stop_one` no process is forked for the service in any sequence of calls that
does not start it. -/
def StaysStopped (sup : Supervisor) (name : String) (i : Nat) : Prop :=
  ∀ cs, Run.Along BootRun.call (fun st c => ¬ c.Starts st.sup i)
      ⟨supervisorStopOne name sup, []⟩ cs →
    ∀ p ∈ forks (Run.run BootRun.call ⟨supervisorStopOne name sup, []⟩ cs).log, p.2 ≠ i

/-- The service is waiting to be spawned: it is `PENDING` without a process, and there is a start
order for the pump to go by. -/
def Waiting (sup : Supervisor) (i : Nat) : Prop :=
  (sup.table.svc i).state = .pending ∧ (sup.table.svc i).pid = 0 ∧
    (depgraphTopoSort sup.table.count sup.graph).isSome = true

/-! ### Services that are not waiting -/

/-- The service has no process and does not ask for one. -/
def Service.Idle (s : Service) : Prop := s.pid = 0 ∧ s.state ≠ .pending

theorem supervisorStopOne_of_no_process (hf : serviceFind sup.table name = some i)
    (hpid : (sup.table.svc i).pid = 0) : supervisorStopOne name sup = sup := by
  simp only [supervisorStopOne, hf, if_pos hpid]

theorem supervisorStopOne_idle (hf : serviceFind sup.table name = some i)
    (hpid : (sup.table.svc i).pid ≠ 0) : ((supervisorStopOne name sup).table.svc i).Idle := by
  simp only [supervisorStopOne, hf, if_neg hpid, Table.set_svc_self]
  exact ⟨rfl, by simp⟩

/-- An idle service stays idle. -/
theorem Service.Idle.advance {s' : Service} (h : s.Idle) (ha : Advance s s') : s'.Idle := by
  cases ha with
  | same => exact h
  | ready | timeout => exact ⟨h.1, by simp⟩
  | failed hs | spawned hs => exact absurd hs h.2

theorem Service.Idle.not_attempted (h : (sup.table.svc i).Idle) {cs : List SupCall}
    (hcs : Run.Along BootRun.call (fun st c => ¬ c.Starts st.sup i) ⟨sup, []⟩ cs) :
    i ∉ attempted (run BootRun.call ⟨sup, []⟩ cs).log :=
  count_eq_zero.1 (not_spawned_run (P := Idle)
    (fun h hc => (call_no_process h.1 h.2 hc).imp_left h.advance) h hcs).2

theorem SupCall.perform_of_cyclic (ho : depgraphTopoSort sup.table.count sup.graph = none)
    (c : SupCall) : (c.perform sup).2 = [] := by
  rcases c.perform_split sup with ⟨env, sup', -, hcalm, -, hpump⟩ | ⟨hnone, -⟩
  · have ho' : depgraphTopoSort sup'.table.count sup'.graph = none := by
      rw [hcalm.static.count, hcalm.graph]
      exact ho
    rw [hpump, supervisorPump_of_cyclic ho']
  · exact hnone

theorem log_of_cyclic (ho : depgraphTopoSort sup.table.count sup.graph = none) (cs : List SupCall) :
    (run BootRun.call ⟨sup, []⟩ cs).log = [] := by
  refine (inv_run_of_forall (I := fun st : BootRun =>
    depgraphTopoSort st.sup.table.count st.sup.graph = none ∧ st.log = []) ?_ ⟨ho, rfl⟩ cs).2
  rintro st c ⟨ho, hlog⟩
  refine ⟨?_, ?_⟩
  · simp only [BootRun.call]
    rw [(c.perform_static st.sup).count, c.perform_graph]
    exact ho
  · simp only [BootRun.call]
    rw [hlog, SupCall.perform_of_cyclic ho]
    rfl

/-! ### Services that are waiting -/

/-- A system in which only service `i` can be spawned. -/
def onlyEnv (i now : Nat) : PumpEnv where
  now := now
  checkNow _ := now
  probe _ := false
  spawn j := if j = i then .forked 2 now else .binaryMissing

/-- The service will be up once a late enough pump has visited it and its dependencies. -/
def Service.OnTheWay (s : Service) : Prop :=
  s.up = true ∨ s.state = .starting ∨ s.state = .pending ∧ s.scheduledStartMs ≤ 0

theorem Service.OnTheWay.advance {s' : Service} (h : s.OnTheWay) (ha : Advance s s') :
    s'.OnTheWay := by
  cases ha with
  | same => exact h
  | ready | timeout | failed => exact .inl (by simp [Service.up])
  | spawned => exact .inr (.inl rfl)

theorem Service.onTheWay_of_active (h : s.active = true) : s.OnTheWay := by
  rw [Service.active, Bool.or_eq_true, decide_eq_true_eq, decide_eq_true_eq] at h
  rcases h with hs | hs
  · exact .inl (by simp [Service.up, hs])
  · exact .inr (.inl hs)

/-- The services in `js` are on their way, and `i` still waits unless it has been spawned. -/
structure Prepared (sup : Supervisor) (i : Nat) (js : List Nat) (st : BootRun) : Prop where
  sane : Sane st.sup
  static : Static sup.table st.sup.table
  graph : st.sup.graph = sup.graph
  onTheWay : ∀ j ∈ js, (st.sup.table.svc j).OnTheWay
  self : (∃ p ∈ forks st.log, p.2 = i) ∨ (st.sup.table.svc i).state = .pending

/-- When the others can not be spawned, forks have the pid that is given to `i`. -/
theorem posForks_onlyEnv {now : Nat} (sup : Supervisor) :
    PosForks (supervisorPump (onlyEnv i now) sup).2 := by
  intro p hp
  obtain ⟨a, ha, -, now', hfork⟩ := mem_forks.1 hp
  rw [(supervisorPump_attempt a ha).2] at hfork
  simp only [onlyEnv] at hfork
  split at hfork
  · rw [← (SpawnOutcome.forked.inj hfork).1]
    exact Nat.succ_ne_zero 1
  · cases hfork

/-- After a pump `i` has been spawned, or it waits as before. -/
theorem pump_onlyEnv_self (now : Nat) (h : (sup.table.svc i).state = .pending) :
    (∃ p ∈ forks (supervisorPump (onlyEnv i now) sup).2, p.2 = i) ∨
      ((supervisorPump (onlyEnv i now) sup).1.table.svc i).state = .pending := by
  by_cases hmem : i ∈ attempted (supervisorPump (onlyEnv i now) sup).2
  · rcases supervisorPump_of_attempted hmem with ⟨-, hspawn⟩ | ⟨-, hfork⟩
    · exact absurd (if_pos rfl) (hspawn 2 now)
    · exact .inl ⟨_, hfork, rfl⟩
  · rw [supervisorPump_of_not_attempted hmem, pollReadiness_of_ne (by simp [h])]
    exact .inr h

/-- Starting another service brings it on its way. -/
theorem Prepared.startOne (h : Prepared sup i js st) (hj : j < sup.table.count) (hij : j ≠ i) :
    let c := SupCall.startOne (sup.table.svc j).name (onlyEnv i 0)
    ¬ c.Starts st.sup i ∧ Prepared sup i (j :: js) (st.call c) := by
  have hname : (st.sup.table.svc j).name = (sup.table.svc j).name :=
    congrArg ServiceDef.name (h.static.entry j).1
  have hfind : serviceFind st.sup.table (sup.table.svc j).name = some j := by
    rw [← hname]
    exact h.sane.distinct.serviceFind_name (h.static.count ▸ hj)
  refine ⟨fun hstarts => hij (some.inj (hfind.symm.trans hstarts)), ?_⟩
  simp only [BootRun.call, SupCall.perform]
  cases hactive : (st.sup.table.svc j).active with
  | true =>
    rw [supervisorStartOne_of_active hfind hactive]
    refine ⟨h.sane, h.static, h.graph, fun k hk => ?_, by simpa using h.self⟩
    rcases mem_cons.1 hk with rfl | hk
    · exact Service.onTheWay_of_active hactive
    · exact h.onTheWay k hk
  | false =>
    rw [supervisorStartOne_of_idle hfind hactive]
    have hpump := supervisorPump_static (onlyEnv i 0) (asked st.sup j)
    refine ⟨?_, h.static.trans (asked_static.trans hpump), supervisorPump_graph.trans h.graph,
      fun k hk => ?_, ?_⟩
    · exact (h.sane.asked j).call (c := .pump (onlyEnv i 0)) (posForks_onlyEnv _)
    · refine Service.OnTheWay.advance ?_ (supervisorPump_advance k)
      refine Table.set_svc_elim (P := fun _ s => s.OnTheWay) (fun _ => .inr (.inr ⟨rfl, le_rfl⟩))
        fun hkj => h.onTheWay k ((mem_cons.1 hk).resolve_left hkj)
    · rcases h.self with ⟨p, hp, hpi⟩ | hpending
      · exact .inl ⟨p, forks_append .. ▸ mem_append_left _ hp, hpi⟩
      · have hsame : ((asked st.sup j).table.svc i).state = .pending := by
          rw [asked, Table.set_svc_of_ne hij.symm]
          exact hpending
        rcases pump_onlyEnv_self 0 hsame with ⟨p, hp, hpi⟩ | hstill
        · exact .inl ⟨p, forks_append .. ▸ mem_append_right _ hp, hpi⟩
        · exact .inr hstill

/-- All others are brought on their way, one after the other. -/
theorem Prepared.startAll (h : Prepared sup i [] st) (js : List Nat)
    (hjs : ∀ j ∈ js, j < sup.table.count ∧ j ≠ i) :
    ∃ cs, Run.Along BootRun.call (fun st c => ¬ c.Starts st.sup i) st cs ∧
      Prepared sup i js (run BootRun.call st cs) := by
  induction js with
  | nil => exact ⟨[], trivial, h⟩
  | cons j js ih =>
    rw [forall_mem_cons] at hjs
    obtain ⟨cs, hcs, hst⟩ := ih hjs.2
    obtain ⟨hstarts, hst'⟩ := hst.startOne hjs.1.1 hjs.1.2
    refine ⟨cs ++ [_], along_append.2 ⟨hcs, hstarts, trivial⟩, ?_⟩
    rw [run_append]
    exact hst'

theorem exists_late (f : Nat → Int) (n : Nat) : ∃ now : Nat, ∀ j < n, f j ≤ now := by
  induction n with
  | zero => exact ⟨0, fun j hj => absurd hj (Nat.not_lt_zero j)⟩
  | succ n ih =>
    obtain ⟨now, hnow⟩ := ih
    refine ⟨max now (f n).toNat, fun j hj => ?_⟩
    rcases Nat.lt_succ_iff_lt_or_eq.1 hj with hlt | rfl
    · have hle := hnow j hlt
      omega
    · omega

/-- The time at which a service that does not get ready is given up, or is due. -/
def Service.deadline (s : Service) : Int :=
  max (s.startTimeMs + s.readyTimeoutMs) s.scheduledStartMs

theorem polled_up (hj : j < sup.table.count) (hs : (sup.table.svc j).state = .starting)
    (hlate : (sup.table.svc j).deadline ≤ env.now) : ((pollReadiness env sup).svc j).up = true := by
  have htime : (env.now : Int) - (sup.table.svc j).startTimeMs ≥
      (sup.table.svc j).readyTimeoutMs := by
    rw [Service.deadline] at hlate
    omega
  simp only [pollReadiness, if_pos hj, checkReadiness, if_pos hs, if_pos htime]
  split
  · simp [Service.up]
  · split <;> simp [Service.up]

theorem polled_of_up (h : (sup.table.svc j).up = true) :
    ((pollReadiness env sup).svc j).up = true := by
  rw [pollReadiness_of_ne]
  · exact h
  · intro hs
    simp [Service.up, hs] at h

/-- In a late pump that can spawn `i` only, a service on its way comes up after its dependencies. -/
theorem Service.OnTheWay.comesUp {now : Nat} (h : (sup.table.svc j).OnTheWay)
    (hj : j < sup.table.count) (hne : j ≠ i) (hlate : (sup.table.svc j).deadline ≤ now)
    (hdeps : ∀ d ∈ (sup.table.svc j).depIndices,
      ComesUp (onlyEnv i now) (pollReadiness (onlyEnv i now) sup) d) :
    ComesUp (onlyEnv i now) (pollReadiness (onlyEnv i now) sup) j := by
  rcases h with hs | hs | ⟨hs, hdue⟩
  · exact .up (polled_of_up hs)
  · exact .up (polled_up hj hs hlate)
  · have hsame : (pollReadiness (onlyEnv i now) sup).svc j = sup.table.svc j :=
      pollReadiness_of_ne (by simp [hs])
    refine .fails (hsame ▸ hs) ?_ (fun d hd _ => hdeps d (hsame ▸ hd)) ?_
    · rw [hsame]
      exact hdue.trans (Int.natCast_nonneg _)
    · simp [onlyEnv, hne]

/-- When all others are on their way, a late pump spawns the service. -/
theorem Prepared.spawned (h : Prepared sup i js st) (hjs : ∀ j < sup.table.count, j ≠ i → j ∈ js)
    (hi : i < sup.table.count) (ho : (depgraphTopoSort sup.table.count sup.graph).isSome = true) :
    ∃ env, ∃ p ∈ forks (st.call (.pump env)).log, p.2 = i := by
  obtain ⟨now, hnow⟩ := exists_late (fun j => (st.sup.table.svc j).deadline) sup.table.count
  refine ⟨onlyEnv i now, ?_⟩
  simp only [BootRun.call, forks_append]
  rcases h.self with ⟨p, hp, hpi⟩ | hpending
  · exact ⟨p, mem_append_left _ hp, hpi⟩
  · obtain ⟨order, ho⟩ := isSome_iff_exists.1 ho
    rw [← h.graph, ← h.static.count] at ho
    obtain ⟨hnodup, hmem, hordered⟩ := h.sane.order ho
    have hcount := h.static.count
    -- everything before `i` in the start order comes up in this pump
    obtain ⟨pre, post, rfl⟩ := append_of_mem ((hmem i).2 (hcount ▸ hi))
    have hpre : Kahn.Ordered
        (fun d j => j < st.sup.table.count ∧ d ∈ (st.sup.table.svc j).depIndices) pre :=
      fun l₁ j l₂ hl => hordered l₁ j (l₂ ++ i :: post) (by simp [hl])
    have hup : ∀ j ∈ pre, ComesUp (onlyEnv i now) (pollReadiness (onlyEnv i now) st.sup) j := by
      refine hpre.induct fun j hj ih => ?_
      have hlt : j < st.sup.table.count := (hmem j).1 (mem_append_left _ hj)
      have hne : j ≠ i := by
        rw [nodup_append] at hnodup
        exact hnodup.2.2 j hj i mem_cons_self
      exact (h.onTheWay j (hjs j (hcount ▸ hlt) hne)).comesUp hlt hne (hnow j (hcount ▸ hlt))
        fun d hd => ih d ⟨hlt, hd⟩
    have hsame : (pollReadiness (onlyEnv i now) st.sup).svc i = st.sup.table.svc i :=
      pollReadiness_of_ne (by simp [hpending])
    have hturn : Turn (onlyEnv i now) (pollReadiness (onlyEnv i now) st.sup) i := by
      refine ⟨hsame ▸ hpending, ?_, fun d hd _ => ?_⟩
      · rw [hsame]
        exact (le_max_right _ _).trans (hnow i hi)
      · exact hup d (hordered pre i post rfl d ⟨hcount ▸ hi, hsame ▸ hd⟩)
    have hattempted := (pump_turn h.sane ho (onlyEnv i now)).2 ⟨hcount ▸ hi, hturn⟩
    rcases supervisorPump_of_attempted hattempted with ⟨-, hspawn⟩ | ⟨-, hfork⟩
    · exact absurd (if_pos rfl) (hspawn 2 now)
    · exact ⟨_, mem_append_right _ hfork, rfl⟩

/-- **When a stop lasts.**  In every reachable state and for every service, no pump and no exit
after `supervisor_stop_one` has a process forked for the service until it is started or the
directory is reloaded, exactly if the service was not waiting to be spawned. -/
theorem stop_one_stays_stopped_iff {sup : Supervisor} (h : Reachable sup) {name : String} {i : Nat}
    (hf : serviceFind sup.table name = some i) : StaysStopped sup name i ↔ ¬ Waiting sup i := by
  have hi := (serviceFind_eq_some hf).1
  constructor
  · rintro hstop ⟨hpending, hpid, ho⟩
    -- nothing is done to the service; bring the others on their way and pump
    rw [StaysStopped, supervisorStopOne_of_no_process hf hpid] at hstop
    have hstart : Prepared sup i [] ⟨sup, []⟩ :=
      ⟨sane_of_reachable h, .refl _, rfl, by simp, .inr hpending⟩
    obtain ⟨cs, hcs, hst⟩ := hstart.startAll ((range sup.table.count).filter (· ≠ i))
      (fun j hj => by simpa using hj)
    obtain ⟨env, p, hp, hpi⟩ := hst.spawned (fun j hj hne => by simp [hj, hne]) hi ho
    refine hstop (cs ++ [.pump env]) (along_append.2 ⟨hcs, id, trivial⟩) p ?_ hpi
    rw [run_append]
    exact hp
  · intro hwait cs hcs p hp hpi
    have hmem := mem_attempted_of_mem_forks hp
    rw [hpi] at hmem
    by_cases hpid : (sup.table.svc i).pid = 0
    · -- the service was not touched: it did not ask to be spawned, or there is no start order
      rw [supervisorStopOne_of_no_process hf hpid] at hcs hmem
      by_cases hpending : (sup.table.svc i).state = .pending
      · have hcyclic : depgraphTopoSort sup.table.count sup.graph = none := by
          by_contra hsome
          exact hwait ⟨hpending, hpid, isSome_iff_ne_none.2 hsome⟩
        rw [log_of_cyclic hcyclic] at hmem
        cases hmem
      · exact Service.Idle.not_attempted ⟨hpid, hpending⟩ hcs hmem
    · exact (supervisorStopOne_idle hf hpid).not_attempted hcs hmem

/-- A service that is stopped while it runs stays stopped. -/
theorem stop_one_stays_stopped_running :
    let sup := Run.run (fun sup e => (SupEvent.perform sup e).1) Supervisor.zero
      [.reload (some sampleFlaky), .call (.startAll (forkingEnv 100 41)),
        .call (.pump (forkingEnv 200 42))]
    (sup.table.svc 0).state = .running ∧ StaysStopped sup "cupsd" 0 := by
  refine ⟨by decide +kernel, (stop_one_stays_stopped_iff (Reachable.boot.run _ ?_) ?_).2 ?_⟩
  · decide +kernel
  · decide +kernel
  · rintro ⟨hpending, -⟩
    exact absurd hpending (by decide +kernel)

/-- The process of a service has died, and the service waits out its restart delay.  It is stopped;
the next pump forks a new process for it. -/
theorem stop_one_respawned :
    let sup := Run.run (fun sup e => (SupEvent.perform sup e).1) Supervisor.zero
      [.reload (some sampleFlaky), .call (.startAll (forkingEnv 100 41)),
        .call (.exit ⟨41, 1, false, 200⟩)]
    serviceFind sup.table "cupsd" = some 0 ∧
      forks (Run.run BootRun.call ⟨supervisorStopOne "cupsd" sup, []⟩
        [.pump (forkingEnv 2000 42)]).log = [(42, 0)] := by
  decide +kernel

/-! ## Nothing is left to start -/

/-- A dependency that is up after a pump was to come up in it. -/
theorem comesUp_of_pump (h : Sane sup) {order : List Nat}
    (ho : depgraphTopoSort sup.table.count sup.graph = some order)
    (hup : ((supervisorPump env sup).1.table.svc i).up = true) :
    ComesUp env (pollReadiness env sup) i := by
  by_cases hi : i ∈ attempted (supervisorPump env sup).2
  · rcases supervisorPump_of_attempted hi with ⟨-, hspawn⟩ | ⟨hs, -⟩
    · exact comesUp_iff.2 (.inr ⟨((pump_turn h ho env).1 hi).2, hspawn⟩)
    · simp [Service.up, hs] at hup
  · rw [supervisorPump_of_not_attempted hi] at hup
    exact .up hup

/-- **A pump leaves nothing to start.**  In every reachable state with a start order, one pass over
the order is enough: a service that is `PENDING` and due after it waits for a dependency that is
not up. -/
theorem pump_complete {sup : Supervisor} (h : Reachable sup)
    (hacyclic : (depgraphTopoSort sup.table.count sup.graph).isSome = true) (env : PumpEnv) :
    ∀ i < sup.table.count, startable env (supervisorPump env sup).1.table i = false := by
  obtain ⟨order, ho⟩ := isSome_iff_exists.1 hacyclic
  have hsane := sane_of_reachable h
  intro i hi
  rw [Bool.eq_false_iff]
  intro hs
  obtain ⟨hpending, hdue, hdeps⟩ := startable_iff.1 hs
  rw [canStart_iff, supervisorPump_count] at hdeps
  -- a service that is still `PENDING` was not spawned, so it is as polling left it
  have hnot : i ∉ attempted (supervisorPump env sup).2 :=
    count_eq_zero.1 ((supervisorPump_pumped env sup i).still hpending)
  rw [supervisorPump_of_not_attempted hnot] at hpending hdue hdeps
  refine hnot ((pump_turn hsane ho env).2 ⟨hi, hpending, hdue, fun d hd hlt => ?_⟩)
  exact comesUp_of_pump hsane ho (hdeps d hd hlt)

/-- `sshd` waits for `network`, which is `STARTING` after the first pump. -/
theorem pump_complete_sampleNet :
    Reachable (loaded sampleNet) ∧ ∀ i < 2,
      startable (forkingEnv 100 41) (supervisorPump (forkingEnv 100 41) (loaded sampleNet)).1.table
        i = false :=
  ⟨reachable_sampleNet, pump_complete reachable_sampleNet (by decide +kernel) (forkingEnv 100 41)⟩

end LunaInit
