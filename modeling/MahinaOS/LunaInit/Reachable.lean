import MahinaOS.LunaInit.Reload
import MahinaOS.LunaInit.Restarts

/-!
# luna-init: the states of the supervisor

The main loop of PID 1 calls into the supervisor and reloads the service directory, in any order.
`Reachable` are the states it can get into from the empty table; all that is assumed of the system
is that `fork` returns a positive pid to the parent.

`SupCall.perform_split` says once what a call can do: it sets entries, none of which is active then
(`Calm`), and it may pump.  `Sane` is what holds in every reachable state
(**`sane_of_reachable`**): names are distinct, a `STARTING` or `RUNNING` service has a pid, and the
resolved dependencies are edges of the graph.  The last is not lost when a build fails half-way,
although the reload ignores that: the services that the build did not get to have no resolved
dependencies at all.  It follows that whenever there is a start order, it has every service once,
after its dependencies (`Sane.order`).

`Machine` has the live processes beside the supervisor, and **`Machine.Reached.recorded`** says that
a pid in the table is always that of a live process of its service.
-/

namespace LunaInit

open List

/-- What the main loop does with the supervisor. -/
inductive SupEvent
  | call (c : SupCall)
  | reload (dir : Option (List DirEntry))

/-- The supervisor after an event, and the calls of `spawn_service`. -/
def SupEvent.perform (sup : Supervisor) : SupEvent → Supervisor × List Attempt
  | .call c => c.perform sup
  | .reload dir => (LunaInit.reload dir sup, [])

/-- `fork` returns a positive pid to the parent. -/
def PosForks (as : List Attempt) : Prop := ∀ p ∈ forks as, p.1 ≠ 0

instance (as : List Attempt) : Decidable (PosForks as) :=
  inferInstanceAs (Decidable (∀ p ∈ forks as, _))

/-- The states that the main loop can get into. -/
inductive Reachable : Supervisor → Prop
  | boot : Reachable Supervisor.zero
  | event {sup : Supervisor} (h : Reachable sup) (e : SupEvent)
      (hforks : PosForks (e.perform sup).2) : Reachable (e.perform sup).1

variable {sup : Supervisor} {i : Nat}

theorem Reachable.run (h : Reachable sup) (es : List SupEvent)
    (hes : Run.Along (fun sup e => (SupEvent.perform sup e).1)
      (fun sup e => PosForks (SupEvent.perform sup e).2) sup es) :
    Reachable (Run.run (fun sup e => (SupEvent.perform sup e).1) sup es) :=
  Run.inv_run (fun _ e h hforks => h.event e hforks) h hes

/-- The service is said to have a process. -/
def Service.active (s : Service) : Bool := s.state = .running || s.state = .starting

/-- The table as `supervisor_start_one` leaves it to its pump. -/
def asked (sup : Supervisor) (i : Nat) : Supervisor :=
  { sup with
    table := sup.table.set i
      { sup.table.svc i with state := .pending, restartCount := 0, scheduledStartMs := 0 } }

section

variable {sup : Supervisor} {name : String} {i : Nat}

theorem supervisorStartOne_of_none (hf : serviceFind sup.table name = none) (env : PumpEnv) :
    supervisorStartOne env name sup = ((sup, []), false) := by
  simp only [supervisorStartOne, hf]

theorem supervisorStartOne_of_active (hf : serviceFind sup.table name = some i)
    (hactive : (sup.table.svc i).active = true) (env : PumpEnv) :
    supervisorStartOne env name sup = ((sup, []), true) := by
  rw [Service.active] at hactive
  simp [supervisorStartOne, hf, hactive]

theorem supervisorStartOne_of_idle (hf : serviceFind sup.table name = some i)
    (hactive : (sup.table.svc i).active = false) (env : PumpEnv) :
    (supervisorStartOne env name sup).1 = supervisorPump env (asked sup i) := by
  rw [Service.active] at hactive
  simp only [supervisorStartOne, hf, hactive]
  rfl

theorem asked_static : Static sup.table (asked sup i).table := (Static.refl _).set ⟨rfl, rfl⟩

end

/-! ## What a call does

Three of the calls set some entries and pump; the other three only set entries.  Whatever they set
is not active, and keeps its pid or has none. -/

/-- The pump that a call makes, if it makes one. -/
def SupCall.env : SupCall → Option PumpEnv
  | .startAll env | .startOne _ env | .pump env => some env
  | .stopOne _ | .exit _ | .signalReady _ => none

/-- Some entries have been set, to ones that are not active. -/
structure Calm (sup sup' : Supervisor) : Prop where
  static : Static sup.table sup'.table
  graph : sup'.graph = sup.graph
  entry : ∀ i, sup'.table.svc i = sup.table.svc i ∨ (sup'.table.svc i).active = false
  pid : ∀ i, (sup'.table.svc i).pid ≠ 0 → (sup'.table.svc i).pid = (sup.table.svc i).pid

theorem Calm.refl (sup : Supervisor) : Calm sup sup :=
  ⟨.refl _, rfl, fun _ => .inl rfl, fun _ _ => rfl⟩

theorem Calm.set {s : Service} (hs : s.toServiceDef = (sup.table.svc i).toServiceDef ∧
      s.depIndices = (sup.table.svc i).depIndices) (hidle : s.active = false)
    (hpid : s.pid ≠ 0 → s.pid = (sup.table.svc i).pid) :
    Calm sup { sup with table := sup.table.set i s } := by
  refine ⟨(Static.refl _).set hs, rfl, fun j => ?_, fun j => ?_⟩
  · exact Table.set_svc_elim (P := fun j s => s = sup.table.svc j ∨ s.active = false)
      (fun _ => .inr hidle) fun _ => .inl rfl
  · exact Table.set_svc_elim (P := fun j s => s.pid ≠ 0 → s.pid = (sup.table.svc j).pid)
      (fun _ => hpid) fun _ _ => rfl

theorem calm_asked (sup : Supervisor) (i : Nat) : Calm sup (asked sup i) :=
  .set ⟨rfl, rfl⟩ (by simp [Service.active]) fun _ => rfl

theorem Service.startAll_calm (s : Service) :
    s.startAll.active = false ∧ s.startAll.pid = s.pid := by
  rw [Service.startAll]
  split
  · simp [Service.active]
  · split
    · simp [Service.active]
    · next hdeg => simp [Service.active, not_not.1 hdeg]

theorem calm_marked (sup : Supervisor) : Calm sup (marked sup) := by
  refine ⟨marked_static, rfl, fun i => ?_, fun i _ => ?_⟩
  · simp only [marked]
    split
    · exact .inr (Service.startAll_calm _).1
    · exact .inl rfl
  · simp only [marked]
    split
    · exact (Service.startAll_calm _).2
    · rfl

theorem calm_stopOne (name : String) (sup : Supervisor) :
    Calm sup (supervisorStopOne name sup) := by
  rw [supervisorStopOne]
  split
  · exact .refl _
  · dsimp only
    split
    · exact .refl _
    · exact .set ⟨rfl, rfl⟩ (by simp [Service.active]) fun hne => absurd rfl hne

theorem calm_exit (e : ChildExit) (sup : Supervisor) : Calm sup (reaperOnExit e sup) := by
  rw [reaperOnExit]
  split
  · exact .refl _
  · next i _ =>
    obtain ⟨hpid, hstate⟩ := Service.exited_cases (sup.table.svc i) e
    refine .set (Service.exited_static _ e) ?_ fun hne => absurd hpid hne
    rcases hstate with hs | hs | ⟨hs, -⟩ <;> simp [Service.active, hs]

theorem calm_signalReady (pid : Nat) (sup : Supervisor) :
    Calm sup (supervisorSignalReady pid sup) := by
  refine ⟨?_, supervisorSignalReady_graph, fun i => .inl ?_, fun i _ => ?_⟩
  · rw [supervisorSignalReady_table]
    exact .refl _
  · rw [supervisorSignalReady_table]
  · rw [supervisorSignalReady_table]

/-- **What a call does**: it sets entries that are not active then, and it may pump. -/
theorem SupCall.perform_split (c : SupCall) (sup : Supervisor) :
    (∃ env sup', c.env = some env ∧ Calm sup sup' ∧ sup'.signalReady = sup.signalReady ∧
      c.perform sup = supervisorPump env sup') ∨
    (c.perform sup).2 = [] ∧ Calm sup (c.perform sup).1 := by
  cases c with
  | startAll env => exact .inl ⟨env, marked sup, rfl, calm_marked sup, rfl, rfl⟩
  | startOne name env =>
    rw [perform]
    rcases hf : serviceFind sup.table name with - | i
    · rw [supervisorStartOne_of_none hf]
      exact .inr ⟨rfl, .refl _⟩
    · cases hactive : (sup.table.svc i).active with
      | true =>
        rw [supervisorStartOne_of_active hf hactive]
        exact .inr ⟨rfl, .refl _⟩
      | false =>
        exact .inl ⟨env, asked sup i, rfl, calm_asked sup i, rfl,
          supervisorStartOne_of_idle hf hactive env⟩
  | pump env => exact .inl ⟨env, sup, rfl, .refl _, rfl, rfl⟩
  | stopOne name => exact .inr ⟨rfl, calm_stopOne name sup⟩
  | exit e => exact .inr ⟨rfl, calm_exit e sup⟩
  | signalReady pid => exact .inr ⟨rfl, calm_signalReady pid sup⟩

theorem supervisorPump_static (env : PumpEnv) (sup : Supervisor) :
    Static sup.table (supervisorPump env sup).1.table :=
  ⟨supervisorPump_count, fun i => (supervisorPump_advance i).static⟩

theorem SupCall.perform_static (c : SupCall) (sup : Supervisor) :
    Static sup.table (c.perform sup).1.table := by
  rcases c.perform_split sup with ⟨env, sup', -, hcalm, -, hpump⟩ | ⟨-, hcalm⟩
  · rw [hpump]
    exact hcalm.static.trans (supervisorPump_static env sup')
  · exact hcalm.static

theorem SupCall.perform_graph (c : SupCall) (sup : Supervisor) :
    (c.perform sup).1.graph = sup.graph := by
  rcases c.perform_split sup with ⟨env, sup', -, hcalm, -, hpump⟩ | ⟨-, hcalm⟩
  · rw [hpump, supervisorPump_graph]
    exact hcalm.graph
  · exact hcalm.graph

/-! ## Active services have a pid -/

/-- Every active service of the table has a pid. -/
def Table.Live (t : Table) : Prop := ∀ i < t.count, (t.svc i).active = true → (t.svc i).pid ≠ 0

theorem Table.Live.set {t : Table} (h : t.Live) {s : Service} (hs : s.active = true → s.pid ≠ 0) :
    (t.set i s).Live := fun j hj =>
  Table.set_svc_elim (P := fun _ s => s.active = true → s.pid ≠ 0) (fun _ => hs) fun _ => h j hj

theorem Table.Live.calm {sup' : Supervisor} (h : sup.table.Live) (hcalm : Calm sup sup') :
    sup'.table.Live := by
  intro i hi hactive
  rcases hcalm.entry i with hs | hs
  · rw [hs] at hactive ⊢
    exact h i (hcalm.static.count ▸ hi) hactive
  · rw [hs] at hactive
    cases hactive

theorem Table.Live.pump (h : sup.table.Live) {env : PumpEnv}
    (hforks : PosForks (supervisorPump env sup).2) : (supervisorPump env sup).1.table.Live := by
  refine pump_induct (P := fun t as => PosForks as → t.Live) (fun _ i hi => ?_) ?_ hforks
  · exact pollReadiness_elim (P := fun s => s.active = true → s.pid ≠ 0) (h i hi)
      (fun hs _ => h i hi (by simp [Service.active, hs])) fun _ => by simp [Service.active]
  · intro t as i _ _ ih hforks
    rw [PosForks, forks_append, forall_mem_append] at hforks
    refine (ih hforks.1).set fun hactive => ?_
    rcases startService_cases (env.spawn i) (t.svc i) with hs | ⟨pid, now, ho, hs⟩
    · simp [hs, Service.active] at hactive
    · rw [hs]
      exact hforks.2 (pid, i) (by simp [forks, ho])

theorem SupCall.perform_live {c : SupCall} (h : sup.table.Live)
    (hforks : PosForks (c.perform sup).2) : (c.perform sup).1.table.Live := by
  rcases c.perform_split sup with ⟨env, sup', -, hcalm, -, hpump⟩ | ⟨-, hcalm⟩
  · rw [hpump] at hforks ⊢
    exact (h.calm hcalm).pump hforks
  · exact h.calm hcalm

/-! ## The invariant -/

/-- What holds in every reachable state. -/
structure Sane (sup : Supervisor) : Prop where
  distinct : sup.table.Distinct
  live : sup.table.Live
  counted : sup.graph.Counted sup.table.count
  edges : ∀ i < sup.table.count, ∀ d ∈ (sup.table.svc i).depIndices, sup.graph.edge d i = true
  skipped : ∀ i < sup.table.count, sup.table.Skips i → (sup.table.svc i).depIndices = []

/-- Whether a build gets to a service is decided by the declarations. -/
theorem skips_congr {t t' : Table} (hcount : t'.count = t.count)
    (hdef : ∀ i, (t'.svc i).toServiceDef = (t.svc i).toServiceDef) : t'.Skips i ↔ t.Skips i := by
  have hresolves : ∀ d : Decl, d.Resolves t' ↔ d.Resolves t := by
    intro d
    cases d <;> simp only [Decl.Resolves, hcount, hdef]
  simp only [Table.Skips, Table.Fails, declarationsOf, hdef, hresolves]

theorem sane_zero : Sane Supervisor.zero where
  distinct i hi := absurd hi (Nat.not_lt_zero i)
  live i hi := absurd hi (Nat.not_lt_zero i)
  counted := Graph.counted_empty
  edges i hi := absurd hi (Nat.not_lt_zero i)
  skipped i hi := absurd hi (Nat.not_lt_zero i)

theorem Sane.congr {sup' : Supervisor} (h : Sane sup) (hs : Static sup.table sup'.table)
    (hg : sup'.graph = sup.graph) (hlive : sup'.table.Live) : Sane sup' := by
  refine ⟨fun i hi j hj hij => ?_, hlive, ?_, fun i hi d hd => ?_, fun i hi hskip => ?_⟩
  · rw [hs.count] at hi hj
    rw [(hs.entry i).1, (hs.entry j).1] at hij
    exact h.distinct i hi j hj hij
  · rw [hg, hs.count]
    exact h.counted
  · rw [hs.count] at hi
    rw [(hs.entry i).2] at hd
    rw [hg]
    exact h.edges i hi d hd
  · rw [hs.count] at hi
    rw [skips_congr hs.count fun i => (hs.entry i).1] at hskip
    rw [(hs.entry i).2]
    exact h.skipped i hi hskip

theorem Sane.call (h : Sane sup) {c : SupCall} (hforks : PosForks (c.perform sup).2) :
    Sane (c.perform sup).1 :=
  h.congr (c.perform_static sup) (c.perform_graph sup) (SupCall.perform_live h.live hforks)

/-- A service that is asked for is not active. -/
theorem Sane.asked (h : Sane sup) (i : Nat) : Sane (asked sup i) :=
  h.congr asked_static rfl (h.live.calm (calm_asked sup i))

/-- The table that `depgraph_build` is given: the old one, or one that has just been read. -/
theorem Sane.loaded (h : Sane sup) (dir : Option (List DirEntry)) :
    let t := serviceLoadAll dir sup.table
    t.Distinct ∧ t.Live ∧ ∀ i < t.count, t.Skips i → (t.svc i).depIndices = [] := by
  rcases dir with - | es
  · exact ⟨h.distinct, h.live, h.skipped⟩
  · refine ⟨serviceLoadAll_distinct, fun i hi hactive => ?_, fun i hi _ => ?_⟩
    · obtain ⟨d, hd⟩ := serviceLoadAll_fresh es sup.table i hi
      rw [hd] at hactive
      cases hactive
    · obtain ⟨d, hd⟩ := serviceLoadAll_fresh es sup.table i hi
      rw [hd]
      rfl

theorem Sane.reload (h : Sane sup) (dir : Option (List DirEntry)) :
    Sane (LunaInit.reload dir sup) := by
  obtain ⟨hdistinct, hlive, hskipped⟩ := h.loaded dir
  obtain ⟨hkept, hown⟩ := depgraphBuild_deps (serviceLoadAll dir sup.table)
  have hskips {i : Nat} : (LunaInit.reload dir sup).table.Skips i ↔
      (serviceLoadAll dir sup.table).Skips i := skips_congr rfl fun _ => rfl
  refine ⟨hdistinct, hlive, depgraphBuild_counts (serviceLoadAll dir sup.table),
    fun i hi d hd => ?_, fun i hi hskip => ?_⟩
  · by_cases hskip : (serviceLoadAll dir sup.table).Skips i
    · have hnil := (hkept i hskip).trans (hskipped i hi hskip)
      exact absurd (hnil ▸ hd : d ∈ ([] : List Nat)) not_mem_nil
    · exact hown i hi hskip d hd
  · exact (hkept i (hskips.1 hskip)).trans (hskipped i hi (hskips.1 hskip))

/-- **What holds in every reachable state.** -/
theorem sane_of_reachable (h : Reachable sup) : Sane sup := by
  induction h with
  | boot => exact sane_zero
  | event h e hforks ih =>
    cases e with
    | call c => exact ih.call hforks
    | reload dir => exact ih.reload dir

/-- The start order, if there is one, has every service once, after its dependencies. -/
theorem Sane.order (h : Sane sup) {order : List Nat}
    (ho : depgraphTopoSort sup.table.count sup.graph = some order) :
    order.Nodup ∧ (∀ i, i ∈ order ↔ i < sup.table.count) ∧
      Kahn.Ordered (fun d i => i < sup.table.count ∧ d ∈ (sup.table.svc i).depIndices) order := by
  have hlt : ∀ i ∈ order, i < sup.table.count := fun i => depgraphTopoSort_lt ho
  unfold depgraphTopoSort at ho
  dsimp only at ho
  split at ho
  · next hlen =>
    obtain rfl := Option.some.inj ho
    refine ⟨Kahn.sort_nodup h.counted.counts,
      fun i => ⟨hlt i, Kahn.mem_sort h.counted.counts hlen⟩, fun l₁ i l₂ hl d hd => ?_⟩
    have he := h.edges i hd.1 d hd.2
    exact Kahn.sort_ordered h.counted.counts l₁ i l₂ hl d ⟨(h.counted.lt d i he).1, he⟩
  · cases ho

/-! ## The processes

Beside the supervisor there are the processes that were forked for its services.  A reload makes a
new table and does nothing to them, so a process has the name of its service with it, not an
index. -/

/-- The supervisor, and the live processes with the names of their services. -/
structure Machine where
  sup : Supervisor
  live : List (Nat × String)

/-- `supervisor_stop_one` has reaped the process it waited for. -/
def StopOutcome.reaped : StopOutcome → Bool
  | .exited | .killed true => true
  | .gone | .killed false => false

/-- The process that an event reaps; `out` is how the wait of a stop ends. -/
def SupEvent.reaped (sup : Supervisor) (out : StopOutcome) : SupEvent → Option Nat
  | .call (.stopOne name) => if out.reaped then some (stopPid sup name) else none
  | .call (.exit e) => some e.pid
  | _ => none

/-- Forked processes, with the names of their services. -/
def named (t : Table) (as : List Attempt) : List (Nat × String) :=
  (forks as).map fun p => (p.1, (t.svc p.2).name)

def Machine.step (s : Machine) (e : SupEvent × StopOutcome) : Machine where
  sup := (e.1.perform s.sup).1
  live := (s.live.filter fun p => e.1.reaped s.sup e.2 ≠ some p.1) ++
    named s.sup.table (e.1.perform s.sup).2

/-- `fork` returns a positive pid that no other child has. -/
def Machine.Fresh (s : Machine) (e : SupEvent × StopOutcome) : Prop :=
  PosForks (e.1.perform s.sup).2 ∧ ((s.step e).live.map Prod.fst).Nodup

instance (s : Machine) (e : SupEvent × StopOutcome) : Decidable (s.Fresh e) :=
  inferInstanceAs (Decidable (_ ∧ _))

/-- The states that the main loop and the processes can get into. -/
inductive Machine.Reached : Machine → Prop
  | boot : Reached ⟨Supervisor.zero, []⟩
  | event {s : Machine} (h : s.Reached) (e : SupEvent × StopOutcome) (hfresh : s.Fresh e) :
      Reached (s.step e)

theorem Machine.Reached.run {s : Machine} (h : s.Reached) (es : List (SupEvent × StopOutcome))
    (hes : Run.Along Machine.step Machine.Fresh s es) : (Run.run Machine.step s es).Reached :=
  Run.inv_run (fun _ e h hfresh => h.event e hfresh) h hes

/-- Every pid in the table is that of a live process of the service. -/
def Table.Knows (t : Table) (live : List (Nat × String)) : Prop :=
  ∀ i < t.count, (t.svc i).pid ≠ 0 → ((t.svc i).pid, (t.svc i).name) ∈ live

section

variable {live : List (Nat × String)}

theorem Table.Knows.calm {sup' : Supervisor} (h : sup.table.Knows live) (hcalm : Calm sup sup') :
    sup'.table.Knows live := by
  intro i hi hne
  have hpid := hcalm.pid i hne
  rw [hpid] at hne ⊢
  rw [(hcalm.static.entry i).1]
  exact h i (hcalm.static.count ▸ hi) hne

theorem Table.Knows.pump (h : sup.table.Knows live) (env : PumpEnv) :
    (supervisorPump env sup).1.table.Knows
      (live ++ named sup.table (supervisorPump env sup).2) := by
  refine (pump_induct (P := fun t as => Static sup.table t ∧
    t.Knows (live ++ named sup.table as)) ⟨pollReadiness_static env sup, fun i hi hpid => ?_⟩ ?_).2
  · rw [(pollReadiness_static env sup).entry i |>.1]
    have hsame : ((pollReadiness env sup).svc i).pid = (sup.table.svc i).pid :=
      pollReadiness_elim (P := fun s => s.pid = (sup.table.svc i).pid) rfl (fun _ => rfl)
        fun _ => rfl
    rw [hsame] at hpid ⊢
    exact mem_append_left _ (h i hi hpid)
  · rintro t as i hi hs ⟨hstatic, hknows⟩
    refine ⟨hstatic.set (startService_advance (startable_iff.1 hs).1).static, fun j hj hpid => ?_⟩
    have hold (hne : (t.svc j).pid ≠ 0) : ((t.svc j).pid, (t.svc j).name) ∈
        live ++ named sup.table (as ++ [⟨i, t, env.spawn i⟩]) := by
      rw [named, forks_append, map_append, ← append_assoc]
      exact mem_append_left _ (hknows j hj hne)
    rcases eq_or_ne j i with rfl | hji
    · rw [Table.set_svc_self] at hpid ⊢
      rcases startService_cases (env.spawn j) (t.svc j) with hs | ⟨pid, now, ho, hs⟩
      · rw [hs] at hpid ⊢
        exact hold hpid
      · rw [hs, named, forks_append]
        simp [forks, ho, (hstatic.entry j).1]
    · rw [Table.set_svc_of_ne hji] at hpid ⊢
      exact hold hpid

/-- A call records the processes it forks. -/
theorem SupCall.perform_knows (h : sup.table.Knows live) (c : SupCall) :
    (c.perform sup).1.table.Knows (live ++ named sup.table (c.perform sup).2) := by
  rcases c.perform_split sup with ⟨env, sup', -, hcalm, -, hpump⟩ | ⟨hnone, hcalm⟩
  · have hnames (as : List Attempt) : named sup'.table as = named sup.table as := by
      simp only [named, (hcalm.static.entry _).1]
    rw [hpump, ← hnames]
    exact (h.calm hcalm).pump env
  · rw [hnone, named, forks, filterMap_nil, map_nil, append_nil]
    exact h.calm hcalm

end

/-- What is known of the processes in every reachable state. -/
structure Machine.Recorded (s : Machine) : Prop where
  reachable : Reachable s.sup
  nodup : (s.live.map Prod.fst).Nodup
  knows : s.sup.table.Knows s.live

variable {s : Machine}

/-- An entry with the pid of a live process is that of its service. -/
theorem Machine.Recorded.eq_of_pid (h : s.Recorded) {p : Nat × String} (hp : p ∈ s.live)
    (hi : i < s.sup.table.count) (hne : (s.sup.table.svc i).pid ≠ 0)
    (hpid : (s.sup.table.svc i).pid = p.1) : (s.sup.table.svc i).name = p.2 :=
  congrArg Prod.snd (inj_on_of_nodup_map h.nodup (h.knows i hi hne) hp hpid)

theorem Machine.Recorded.pid_inj (h : s.Recorded) {j : Nat} (hi : i < s.sup.table.count)
    (hj : j < s.sup.table.count) (hne : (s.sup.table.svc j).pid ≠ 0)
    (hpid : (s.sup.table.svc i).pid = (s.sup.table.svc j).pid) : i = j :=
  (sane_of_reachable h.reachable).distinct i hi j hj
    (h.eq_of_pid (h.knows j hj hne) hi (hpid ▸ hne) hpid)

/-- An entry that is cleared was the only one with its pid. -/
theorem Machine.Recorded.set_pid_ne (h : s.Recorded) {j : Nat} {t : Service} (ht : t.pid = 0)
    (hj : j < s.sup.table.count) (hi : i < s.sup.table.count)
    (hne : ((s.sup.table.set j t).svc i).pid ≠ 0) :
    ((s.sup.table.set j t).svc i).pid ≠ (s.sup.table.svc j).pid := by
  rcases eq_or_ne i j with rfl | hij
  · rw [Table.set_svc_self] at hne
    exact absurd ht hne
  · rw [Table.set_svc_of_ne hij] at hne ⊢
    exact fun hpid => hij (h.pid_inj hi hj (hpid ▸ hne) hpid)

/-- No entry keeps the pid of a process that has been reaped. -/
theorem Machine.Recorded.not_reaped (h : s.Recorded) (c : SupCall) (out : StopOutcome)
    (hi : i < s.sup.table.count) (hne : ((c.perform s.sup).1.table.svc i).pid ≠ 0) :
    (SupEvent.call c).reaped s.sup out ≠ some ((c.perform s.sup).1.table.svc i).pid := by
  cases c with
  | startAll | startOne | pump | signalReady => exact (Option.some_ne_none _).symm
  | stopOne name =>
    rw [SupEvent.reaped]
    split
    · rw [ne_eq, Option.some.injEq, eq_comm]
      simp only [SupCall.perform, supervisorStopOne, stopPid] at hne ⊢
      rcases hf : serviceFind s.sup.table name with - | j
      · rw [hf] at hne
        exact hne
      · simp only [hf] at hne ⊢
        split at hne
        · next h0 =>
          rw [if_pos h0, h0]
          exact hne
        · next h0 =>
          rw [if_neg h0]
          exact h.set_pid_ne rfl (serviceFind_eq_some hf).1 hi hne
    · exact (Option.some_ne_none _).symm
  | exit e =>
    rw [SupEvent.reaped, ne_eq, Option.some.injEq, eq_comm]
    simp only [SupCall.perform, reaperOnExit] at hne ⊢
    rcases hf : serviceFindByPid s.sup.table e.pid with - | j
    · rw [hf] at hne
      dsimp only at hne ⊢
      exact fun hpid => serviceFindByPid_eq_none hf (hpid ▸ hne) hi hpid
    · rw [hf] at hne
      obtain ⟨-, hj, hpid⟩ := serviceFindByPid_eq_some hf
      rw [← hpid]
      exact h.set_pid_ne (Service.exited_cases _ e).1 hj hi hne

/-- **What is known of the processes in every reachable state.** -/
theorem Machine.Reached.recorded (h : s.Reached) : s.Recorded := by
  induction h with
  | boot => exact ⟨.boot, nodup_nil, fun i hi => absurd hi (Nat.not_lt_zero i)⟩
  | @event s _ e hfresh ih =>
    refine ⟨ih.reachable.event e.1 hfresh.1, hfresh.2, fun i hi hne => ?_⟩
    obtain ⟨c | dir, out⟩ := e
    · rcases mem_append.1 (SupCall.perform_knows ih.knows c i hi hne) with hlive | hnew
      · refine mem_append_left _ (mem_filter.2 ⟨hlive, decide_eq_true ?_⟩)
        exact ih.not_reaped c out ((c.perform_static s.sup).count ▸ hi) hne
      · exact mem_append_right _ hnew
    · rcases dir with - | es
      · exact mem_append_left _ (mem_filter.2 ⟨ih.knows i hi hne, rfl⟩)
      · obtain ⟨d, hd⟩ := serviceLoadAll_fresh es s.sup.table i hi
        have hpid : ((serviceLoadAll (some es) s.sup.table).svc i).pid = 0 := by rw [hd]; rfl
        exact absurd hpid hne

end LunaInit
