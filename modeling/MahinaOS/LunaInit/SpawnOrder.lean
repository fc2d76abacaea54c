import MahinaOS.Lib.Run
import MahinaOS.LunaInit.Boot

/-!
# luna-init: the order in which services are spawned

A boot is `supervisor_start_all` and then any sequence of pumps, child exits and readiness signals.
`BootRun` keeps the calls of `spawn_service` in its log.  The services are to be spawned in the
declared order: when `j` is spawned, every service that precedes it has had a spawn attempt.

For `after` this is so, because a service is started only when its dependencies are up, and only a
service that was spawned is ever up.  For `before` there is no such gate; the pump only visits `i`
before `j`, and goes on to `j` when it cannot start `i` yet.  **`spawned_in_order_iff`** says that
the order is broken exactly by the spawns of a service `j` at which some `i` that lists it in
`before` is `Held`: it is `lgp-compositor`, which Stage 4 leaves out, or it has never been spawned
and waits for its own dependencies.  `before_overtaken` is such a boot.

The invariant is `BootInv`.  During a pump it is kept together with the fact that no service visited
so far could be started now, which is where the topological order comes in.
-/

namespace LunaInit

open List

/-- What the main loop does during the boot. -/
inductive BootEvent
  | pump (env : PumpEnv)
  | exit (e : ChildExit)
  | signalReady (pid : Nat)

/-- The supervisor, and every call of `spawn_service` since the boot. -/
structure BootRun where
  sup : Supervisor
  log : List Attempt

def BootRun.step (s : BootRun) : BootEvent → BootRun
  | .pump env => ⟨(supervisorPump env s.sup).1, s.log ++ (supervisorPump env s.sup).2⟩
  | .exit e => ⟨reaperOnExit e s.sup, s.log⟩
  | .signalReady pid => ⟨supervisorSignalReady pid s.sup, s.log⟩

/-- `supervisor_start_all` on the loaded directory. -/
def BootRun.start (env : PumpEnv) (dir : List DirEntry) : BootRun :=
  ⟨(supervisorStartAll env (loaded dir)).1, (supervisorStartAll env (loaded dir)).2⟩

/-- The service has had no spawn attempt and would not get one now: Stage 4 leaves it out, or it
waits for a dependency. -/
def Held (t : Table) (i : Nat) : Prop :=
  (t.svc i).isCompositor = true ∨
    (t.svc i).state = .pending ∧ (t.svc i).restartCount = 0 ∧ canStart t i = false

/-- The spawns of the log are in the declared order exactly if none of them overtakes a service that
is held. -/
def OrderIff (t₀ : Table) (log : List Attempt) : Prop :=
  Kahn.Ordered t₀.Precedes (attempted log) ↔
    ∀ a ∈ log, ∀ i, t₀.ListsBefore i a.service → ¬ Held a.table i

/-! ## The invariant -/

/-- The table tells which services have been spawned. -/
structure BootInv (t₀ t : Table) (log : List Attempt) : Prop where
  static : Static t₀ t
  idle : ∀ i < t.count, i ∉ attempted log → (t.svc i).pid = 0 ∧ (t.svc i).restartCount = 0 ∧
    (t.svc i).scheduledStartMs = 0 ∧
    (t.svc i).state = if (t.svc i).isCompositor then .stopped else .pending
  tried : ∀ i ∈ attempted log, (t.svc i).isCompositor = false ∧
    ¬((t.svc i).state = .pending ∧ (t.svc i).restartCount = 0)

section

variable {t₀ t : Table} {log : List Attempt} {i j : Nat}

section

variable (h : BootInv t₀ t log)

include h

theorem BootInv.attempted_of_up (hi : i < t.count)
    (hup : (t.svc i).up = true) : i ∈ attempted log := by
  by_contra hlog
  have hstate := (h.idle i hi hlog).2.2.2
  rw [Service.up] at hup
  split at hstate <;> simp [hstate] at hup

/-- A `PENDING` service is not the one that Stage 4 leaves out. -/
theorem BootInv.not_compositor (hi : i < t.count)
    (hpending : (t.svc i).state = .pending) : (t.svc i).isCompositor = false := by
  by_cases hlog : i ∈ attempted log
  · exact (h.tried i hlog).1
  · have hstate := (h.idle i hi hlog).2.2.2
    rcases hc : (t.svc i).isCompositor with - | -
    · rfl
    · simp [hc, hpending] at hstate

theorem BootInv.not_held (hi : i ∈ attempted log) : ¬ Held t i := by
  obtain ⟨hc, hp⟩ := h.tried i hi
  rintro (hcomp | ⟨hpending, hrestart, -⟩)
  · rw [hc] at hcomp
    cases hcomp
  · exact hp ⟨hpending, hrestart⟩

/-- A service that was never spawned and is not held can be started at once. -/
theorem BootInv.startable (hi : i < t.count) (hlog : i ∉ attempted log)
    (hheld : ¬ Held t i) (env : PumpEnv) : startable env t i = true := by
  obtain ⟨-, hrestart, hsched, hstate⟩ := h.idle i hi hlog
  rw [Held, not_or] at hheld
  rw [if_neg hheld.1] at hstate
  refine startable_iff.2 ⟨hstate, ?_, ?_⟩
  · rw [hsched]
    exact Int.natCast_nonneg _
  · by_contra hstart
    exact hheld.2 ⟨hstate, hrestart, by simpa using hstart⟩

variable {env : PumpEnv} {sup : Supervisor}

/-- **One spawn.**  When `j` is spawned, and no service that lists it in `before` could be started
instead, its predecessors have all been spawned exactly if none of those services is held. -/
theorem BootInv.attempt_iff {g : Graph} (hw : Wired t₀ g)
    (hs : LunaInit.startable env t j = true) (hj : j < t.count)
    (hvisited : ∀ i, t₀.ListsBefore i j → LunaInit.startable env t i = false) :
    (∀ i, t₀.Precedes i j → i ∈ attempted log) ↔ ∀ i, t₀.ListsBefore i j → ¬ Held t i := by
  constructor
  · intro hall i hi
    exact h.not_held (hall i (.inr hi))
  · rintro hheld i (hwait | hbefore)
    · -- the start gate
      have hdep := ((hw.congr h.static).deps j hj i).2 (h.static.waits.2 hwait)
      have hi : i < t.count := h.static.count ▸ hwait.lt
      exact h.attempted_of_up hi (canStart_iff.1 (startable_iff.1 hs).2.2 i hdep hi)
    · by_contra hlog
      have hi : i < t.count := h.static.count ▸ hbefore.1
      have hstart := h.startable hi hlog (hheld i hbefore) env
      rw [hvisited i hbefore] at hstart
      cases hstart

end

theorem BootInv.poll (h : BootInv t₀ sup.table log) (env : PumpEnv) :
    BootInv t₀ (pollReadiness env sup) log := by
  have hcomp := (pollReadiness_static env sup).isCompositor
  refine ⟨h.static.trans (pollReadiness_static env sup), fun i hi hlog => ?_, fun i hi => ?_⟩
  · have hidle := h.idle i hi hlog
    have hstarting : (sup.table.svc i).state ≠ .starting := by
      rw [hidle.2.2.2]
      split <;> simp
    exact pollReadiness_elim (P := fun s => s.pid = 0 ∧ s.restartCount = 0 ∧
      s.scheduledStartMs = 0 ∧ s.state = if s.isCompositor then .stopped else .pending) hidle
      (fun hs => absurd hs hstarting) fun hs => absurd hs hstarting
  · obtain ⟨hc, hp⟩ := h.tried i hi
    refine ⟨(hcomp i).trans hc, fun hpending => hp ?_⟩
    rw [(pollReadiness_advance i).eq_of_pending hpending.1] at hpending
    exact hpending

theorem BootInv.attempt (h : BootInv t₀ t log) (hs : LunaInit.startable env t j = true)
    (hj : j < t.count) :
    BootInv t₀ (t.set j (startService (env.spawn j) (t.svc j)))
      (log ++ [⟨j, t, env.spawn j⟩]) := by
  have hpending := (startable_iff.1 hs).1
  have hadv := startService_advance (o := env.spawn j) hpending
  refine ⟨h.static.set hadv.static, fun i hi hlog => ?_, fun i hi => ?_⟩
  · rw [attempted_append, mem_append, not_or] at hlog
    rw [Table.set_svc_of_ne fun hij => hlog.2 (by simp [attempted, hij])]
    exact h.idle i hi hlog.1
  · rcases eq_or_ne i j with rfl | hij
    · rw [Table.set_svc_self]
      refine ⟨?_, fun hp => ?_⟩
      · have hc := h.not_compositor hj hpending
        unfold Service.isCompositor at hc ⊢
        rw [hadv.static.1]
        exact hc
      · rcases startService_cases (env.spawn i) (t.svc i) with hs | ⟨_, _, _, hs⟩ <;>
          simp [hs] at hp
    · rw [Table.set_svc_of_ne hij]
      rw [attempted_append, mem_append] at hi
      rcases hi with hi | hi
      · exact h.tried i hi
      · exact absurd (by simpa [attempted] using hi) hij

theorem OrderIff.concat (h : OrderIff t₀ log) {a : Attempt}
    (ha : (∀ i, t₀.Precedes i a.service → i ∈ attempted log) ↔
      ∀ i, t₀.ListsBefore i a.service → ¬ Held a.table i) : OrderIff t₀ (log ++ [a]) := by
  have hconcat : Kahn.Ordered t₀.Precedes (attempted (log ++ [a])) ↔
      Kahn.Ordered t₀.Precedes (attempted log) ∧
        ∀ i, t₀.Precedes i a.service → i ∈ attempted log := by
    rw [attempted_append]
    exact ⟨fun ho => ho.of_concat, fun ho => ho.1.concat ho.2⟩
  unfold OrderIff at h ⊢
  rw [hconcat, h, ha]
  simp [or_imp, forall_and]

/-- What happens to a service does not make one startable that does not depend on it. -/
theorem startable_set_of_ne {s : Service} (hij : i ≠ j) (hdep : j ∉ (t.svc i).depIndices)
    (h : LunaInit.startable env t i = false) : LunaInit.startable env (t.set j s) i = false := by
  by_contra hstart
  rw [Bool.not_eq_false, startable_iff, canStart_iff, Table.set_svc_of_ne hij] at hstart
  obtain ⟨hpending, hsched, hdeps⟩ := hstart
  refine absurd (startable_iff.2 ⟨hpending, hsched, canStart_iff.2 fun d hd hlt => ?_⟩)
    (by rw [h]; simp)
  have hdj : d ≠ j := fun hdj => hdep (hdj ▸ hd)
  have hup := hdeps d hd hlt
  rwa [Table.set_svc_of_ne hdj] at hup

theorem startable_startService :
    LunaInit.startable env (t.set j (startService (env.spawn j) (t.svc j))) j = false := by
  by_contra hstart
  rw [Bool.not_eq_false, startable_iff] at hstart
  rcases startService_cases (env.spawn j) (t.svc j) with hcase | ⟨_, _, _, hcase⟩ <;>
    simp [hcase] at hstart

theorem BootInv.pump (h : BootInv t₀ sup.table log) (hw : Wired t₀ sup.graph)
    (ho : OrderIff t₀ log) (env : PumpEnv) :
    BootInv t₀ (supervisorPump env sup).1.table (log ++ (supervisorPump env sup).2) ∧
      OrderIff t₀ (log ++ (supervisorPump env sup).2) := by
  have hpoll := h.poll env
  obtain ⟨order, hsort, hordered, hnodup, -⟩ := hw.order
  have hsort' : depgraphTopoSort (pollReadiness env sup).count sup.graph = some order := by
    rw [hpoll.static.count, hsort]
  simp only [supervisorPump, hsort']
  have hvisits := visits_split env order (pollReadiness env sup) []
    (Q := fun pre t as => (BootInv t₀ t (log ++ as) ∧ OrderIff t₀ (log ++ as)) ∧
      ∀ i ∈ pre, LunaInit.startable env t i = false)
    ⟨⟨by simpa using hpoll, by simpa using ho⟩, by simp⟩ ?_
  · exact hvisits.1
  intro pre j post t as hsplit hq
  obtain ⟨⟨hinv, hiff⟩, hpre⟩ := hq
  by_cases hs : LunaInit.startable env t j = true
  · have hj : j < t.count := by
      rw [hinv.static.count]
      exact depgraphTopoSort_lt hsort (by simp [hsplit])
    -- the topological order: what precedes `j` has been visited in this pump
    have hbefore : ∀ i, t₀.Precedes i j → i ∈ pre := hordered pre j post hsplit
    rw [visit, if_pos hs, ← append_assoc]
    refine ⟨⟨hinv.attempt hs hj, hiff.concat ?_⟩, ?_⟩
    · exact hinv.attempt_iff hw hs hj fun i hi => hpre i (hbefore i (.inr hi))
    · intro i hmem
      rcases mem_append.1 hmem with hi | hi
      · -- nothing visited earlier waits for `j`, so it can still not be started
        have hij : i ≠ j := by
          rintro rfl
          exact (nodup_append.1 (hsplit ▸ hnodup)).2.2 i hi i mem_cons_self rfl
        have hlt : i < t.count := by
          rw [hinv.static.count]
          exact depgraphTopoSort_lt hsort (by simp [hsplit, hi])
        refine startable_set_of_ne hij (fun hdep => ?_) (hpre i hi)
        have hwait := ((hw.congr hinv.static).deps i hlt j).1 hdep
        exact Kahn.Ordered.not_of_mem (hsplit ▸ hordered) (hsplit ▸ hnodup) hi
          (.inl (hinv.static.waits.1 hwait))
      · rw [mem_singleton.1 hi]
        exact startable_startService
  · rw [visit, if_neg hs]
    refine ⟨⟨hinv, hiff⟩, fun i hi => ?_⟩
    rcases mem_append.1 hi with hi | hi
    · exact hpre i hi
    · rw [mem_singleton.1 hi]
      simpa using hs

/-- Only a service that was spawned has a child that can exit. -/
theorem BootInv.exit (h : BootInv t₀ sup.table log) (e : ChildExit) :
    BootInv t₀ (reaperOnExit e sup).table log := by
  rw [reaperOnExit]
  rcases hf : serviceFindByPid sup.table e.pid with - | j
  · exact h
  · obtain ⟨hne, hj, hpid⟩ := serviceFindByPid_eq_some hf
    have hlog : j ∈ attempted log := by
      by_contra hlog
      exact hne (hpid.symm.trans (h.idle j hj hlog).1)
    refine ⟨h.static.set (Service.exited_static _ e), fun i hi hi' => ?_, fun i hi => ?_⟩
    · have hij : i ≠ j := fun hij => hi' (hij ▸ hlog)
      rw [Table.set_svc_of_ne hij]
      exact h.idle i hi hi'
    · rcases eq_or_ne i j with rfl | hij
      · rw [Table.set_svc_self]
        refine ⟨?_, ?_⟩
        · have hc := (h.tried i hi).1
          unfold Service.isCompositor at hc ⊢
          rw [(Service.exited_static _ e).1]
          exact hc
        · rintro ⟨hpending, hrestart⟩
          rcases (Service.exited_cases (sup.table.svc i) e).2 with hs | hs | ⟨-, hs⟩
          · rw [hs] at hpending
            cases hpending
          · rw [hs] at hpending
            cases hpending
          · omega
      · rw [Table.set_svc_of_ne hij]
        exact h.tried i hi

end

/-! ## The whole boot -/

/-- The invariant of a boot of the directory. -/
structure BootRun.Inv (dir : List DirEntry) (s : BootRun) : Prop where
  graph : s.sup.graph = (loaded dir).graph
  table : BootInv (loaded dir).table s.sup.table s.log
  order : OrderIff (loaded dir).table s.log

variable {dir : List DirEntry}

theorem BootRun.Inv.start (hacc : Accepted dir) (env : PumpEnv) :
    (BootRun.start env dir).Inv dir := by
  have hmarked : BootInv (loaded dir).table (marked (loaded dir)).table [] :=
    ⟨marked_static, fun i hi _ => marked_loaded hi, by simp [attempted]⟩
  have hempty : OrderIff (loaded dir).table [] :=
    ⟨fun _ => by simp, fun _ => Kahn.ordered_nil _⟩
  obtain ⟨hinv, hiff⟩ := hmarked.pump (wired_of_loaded hacc) hempty env
  exact ⟨supervisorPump_graph, hinv, hiff⟩

theorem BootRun.Inv.step (hacc : Accepted dir) {s : BootRun} (h : s.Inv dir) (e : BootEvent) :
    (s.step e).Inv dir := by
  cases e with
  | pump env =>
    obtain ⟨hinv, hiff⟩ := h.table.pump (h.graph ▸ wired_of_loaded hacc) h.order env
    exact ⟨supervisorPump_graph.trans h.graph, hinv, hiff⟩
  | exit e =>
    refine ⟨Eq.trans ?_ h.graph, h.table.exit e, h.order⟩
    rw [BootRun.step, reaperOnExit]
    split <;> rfl
  | signalReady pid =>
    refine ⟨supervisorSignalReady_graph.trans h.graph, ?_, h.order⟩
    simp only [BootRun.step, supervisorSignalReady_table]
    exact h.table

/-- **The order of spawns.**  In every boot of a directory that `depgraph_build` accepts, each
service is spawned after all services that precede it exactly if no service is spawned while one
that lists it in `before` is held. -/
theorem spawned_in_order_iff {dir : List DirEntry} (hacc : Accepted dir) (env : PumpEnv)
    (events : List BootEvent) :
    Kahn.Ordered (loaded dir).table.Precedes
        (attempted (Run.run BootRun.step (BootRun.start env dir) events).log) ↔
      ∀ a ∈ (Run.run BootRun.step (BootRun.start env dir) events).log,
        ∀ i, (loaded dir).table.ListsBefore i a.service → ¬ Held a.table i :=
  (Run.inv_run_of_forall (I := BootRun.Inv dir) (fun _ e h => h.step hacc e)
    (.start hacc env) events).order

/-! ## Boots -/

/-- `pipewire` is started after `dbus`; both are ready at once. -/
def samplePair : List DirEntry :=
  [⟨"pipewire.toml", some { name := "pipewire", binary := "/usr/bin/pipewire", after := ["dbus"] }⟩,
    ⟨"dbus.toml", some { name := "dbus", binary := "/usr/bin/dbus-daemon" }⟩]

/-- No service lists another in `before`, so every service is spawned after those it waits for. -/
theorem spawned_in_order_iff_sample :
    Kahn.Ordered (loaded samplePair).table.Precedes
      (attempted (Run.run BootRun.step (BootRun.start (forkingEnv 100 41) samplePair)
        [.pump (forkingEnv 200 42), .exit ⟨41, 1, false, 300⟩,
          .pump (forkingEnv 2000 43)]).log) := by
  refine (spawned_in_order_iff (by decide +kernel) _ _).2 fun a _ i hi => ?_
  obtain ⟨hlt, name, hname, -⟩ := hi
  have hnone : ∀ i < 2, ((loaded samplePair).table.svc i).before = [] := by decide +kernel
  rw [hnone i hlt] at hname
  cases hname

/-- `networkmanager` waits for `dbus` and lists `ntpd` in `before`. -/
def sampleTriple : List DirEntry :=
  [⟨"dbus.toml", some { name := "dbus", binary := "/usr/bin/dbus-daemon" }⟩,
    ⟨"networkmanager.toml", some
      { name := "networkmanager", binary := "/usr/bin/NetworkManager", after := ["dbus"],
        before := ["ntpd"] }⟩,
    ⟨"ntpd.toml", some { name := "ntpd", binary := "/usr/bin/ntpd" }⟩]

/-- The first pump spawns `dbus`, finds that `networkmanager` has to wait for it, and spawns `ntpd`,
which `networkmanager` was to precede. -/
theorem before_overtaken :
    Accepted sampleTriple ∧
    attempted (BootRun.start (forkingEnv 100 41) sampleTriple).log = [0, 2] ∧
    (loaded sampleTriple).table.ListsBefore 1 2 ∧
    ¬ Kahn.Ordered (loaded sampleTriple).table.Precedes
      (attempted (BootRun.start (forkingEnv 100 41) sampleTriple).log) := by
  have hlog : attempted (BootRun.start (forkingEnv 100 41) sampleTriple).log = [0, 2] := by
    decide +kernel
  have hbefore : (loaded sampleTriple).table.ListsBefore 1 2 :=
    ⟨by decide +kernel, "ntpd", by decide +kernel, by decide +kernel⟩
  refine ⟨by decide +kernel, hlog, hbefore, fun hordered => ?_⟩
  have hmem := hordered [0] 2 [] (by rw [hlog]; rfl) 1 (.inr hbefore)
  exact absurd hmem (by decide)

end LunaInit
