import Mathlib.Data.List.Nodup
import MahinaOS.Lib.Run
import MahinaOS.LunaInit.Boot

/-!
# luna-init: one process per service

A run of the supervisor is any interleaving of pumps, `supervisor_start_one`, `supervisor_stop_one`,
reaped children and readiness signals after `supervisor_start_all`.  Beside the supervisor's own
state, `ProcState` has the processes that were forked for a service and are still alive.

`OneProcess` is what the table is meant to say about them: a service has at most one live process,
and the pid of that process is the one in its entry.  It is not an invariant of the code:

* `degraded_started_twice`: a service that misses its readiness timeout is `DEGRADED` while its
  process lives on, and starting it by hand starts a second one.

It holds in every run in which `supervisor_start_one` is not called for such a service and every
process that `supervisor_stop_one` kills is reaped by it (`Careful`): **`oneProcess_run`**.  The
invariant is `Owned`.  There is one lemma for each kind of write to the table: `Owned.set_same` when
the pid stays, `Owned.spawn` when it is recorded, `Owned.clear` when it is erased.
-/

namespace LunaInit

open List

/-- The supervisor and the live processes, each with its service. -/
structure ProcState where
  sup : Supervisor
  live : List (Nat × Nat)

/-- The processes that the calls of `spawn_service` forked. -/
def forks (as : List Attempt) : List (Nat × Nat) :=
  as.filterMap fun a =>
    match a.outcome with
    | .forked pid _ => some (pid, a.service)
    | .binaryMissing | .forkFailed => none

theorem forks_append (as bs : List Attempt) : forks (as ++ bs) = forks as ++ forks bs :=
  filterMap_append

theorem mem_forks {as : List Attempt} {p : Nat × Nat} :
    p ∈ forks as ↔ ∃ a ∈ as, a.service = p.2 ∧ ∃ now, a.outcome = .forked p.1 now := by
  rw [forks, mem_filterMap]
  refine exists_congr fun a => and_congr_right fun _ => ?_
  cases a.outcome with
  | forked pid now => simp [Prod.ext_iff, and_comm]
  | binaryMissing | forkFailed => simp

/-- A call from the event loop, with what the system answers. -/
inductive ProcOp
  | pump (env : PumpEnv)
  | startOne (name : String) (env : PumpEnv)
  | stopOne (name : String) (out : StopOutcome)
  | exit (e : ChildExit)
  | signalReady (pid : Nat)

/-- The pid that `supervisor_stop_one` waits for; 0 if there is nothing to stop. -/
def stopPid (sup : Supervisor) (name : String) : Nat :=
  match serviceFind sup.table name with
  | none => 0
  | some i => (sup.table.svc i).pid

/-- The process `pid` has been reaped. -/
def reap (live : List (Nat × Nat)) (pid : Nat) : List (Nat × Nat) := live.filter fun p => p.1 ≠ pid

def ProcState.step (s : ProcState) : ProcOp → ProcState
  | .pump env =>
    let r := supervisorPump env s.sup
    ⟨r.1, s.live ++ forks r.2⟩
  | .startOne name env =>
    let r := (supervisorStartOne env name s.sup).1
    ⟨r.1, s.live ++ forks r.2⟩
  | .stopOne name out =>
    ⟨supervisorStopOne name s.sup,
      match out with
      | .exited | .killed true => reap s.live (stopPid s.sup name)
      | .gone | .killed false => s.live⟩
  | .exit e => ⟨reaperOnExit e s.sup, reap s.live e.pid⟩
  | .signalReady pid => ⟨supervisorSignalReady pid s.sup, s.live⟩

/-- The state after `supervisor_start_all`. -/
def ProcState.start (env : PumpEnv) (sup : Supervisor) : ProcState :=
  let r := supervisorStartAll env sup
  ⟨r.1, forks r.2⟩

/-- `fork` returns a positive pid that no child has. -/
def FreshForks (live : List (Nat × Nat)) (as : List Attempt) : Prop :=
  ((live ++ forks as).map Prod.fst).Nodup ∧ ∀ p ∈ forks as, p.1 ≠ 0

/-- What the system guarantees about its answers: pids are fresh, and `waitpid` does not deny a
child that is there. -/
def Possible (s : ProcState) : ProcOp → Prop
  | .pump env => FreshForks s.live (supervisorPump env s.sup).2
  | .startOne name env => FreshForks s.live (supervisorStartOne env name s.sup).1.2
  | .stopOne name out => out = .gone → stopPid s.sup name ∉ s.live.map Prod.fst
  | .exit _ | .signalReady _ => True

/-- `supervisor_start_one` is not called for a service that is neither `STARTING` nor `RUNNING` and
has a process all the same, and `supervisor_stop_one` does not leave a killed process unreaped. -/
def Careful (s : ProcState) : ProcOp → Prop
  | .startOne name _ => ∀ i ∈ serviceFind s.sup.table name, (s.sup.table.svc i).state = .running ∨
      (s.sup.table.svc i).state = .starting ∨ (s.sup.table.svc i).pid = 0
  | .stopOne name out => out = .killed false → stopPid s.sup name = 0
  | .pump _ | .exit _ | .signalReady _ => True

/-- Every service has at most one live process, and it is the one recorded in its entry. -/
def OneProcess (s : ProcState) : Prop :=
  (s.live.map Prod.snd).Nodup ∧ ∀ p ∈ s.live, (s.sup.table.svc p.2).pid = p.1

instance (live : List (Nat × Nat)) (as : List Attempt) : Decidable (FreshForks live as) :=
  inferInstanceAs (Decidable (_ ∧ _))

instance (s : ProcState) : Decidable (OneProcess s) := inferInstanceAs (Decidable (_ ∧ _))

instance (s : ProcState) (op : ProcOp) : Decidable (Possible s op) := by
  unfold Possible
  split <;> infer_instance

instance (s : ProcState) (op : ProcOp) : Decidable (Careful s op) := by
  unfold Careful
  split <;> infer_instance

/-! ## The invariant -/

/-- The states in which an entry may have a process. -/
def Service.started (s : Service) : Prop :=
  s.state = .starting ∨ s.state = .running ∨ s.state = .degraded

/-- The pids in the table are exactly the live processes, and an entry that has one was started. -/
structure Owned (t : Table) (live : List (Nat × Nat)) : Prop where
  nodup : (live.map Prod.fst).Nodup
  recorded : ∀ p ∈ live, p.2 < t.count ∧ p.1 ≠ 0 ∧ (t.svc p.2).pid = p.1
  alive : ∀ i < t.count, (t.svc i).pid ≠ 0 →
    ((t.svc i).pid, i) ∈ live ∧ (t.svc i).started

section

variable {t : Table} {live : List (Nat × Nat)} {i : Nat} {s : Service}

theorem Owned.oneProcess {s : ProcState} (h : Owned s.sup.table s.live) : OneProcess s := by
  refine ⟨?_, fun p hp => (h.recorded p hp).2.2⟩
  refine h.nodup.of_map _ |>.map_on fun p hp q hq hpq => ?_
  refine Prod.ext ?_ hpq
  rw [← (h.recorded p hp).2.2, ← (h.recorded q hq).2.2, hpq]

theorem Owned.not_live (h : Owned t live) (hs : (t.svc i).pid = 0) {p : Nat} : (p, i) ∉ live := by
  intro hp
  obtain ⟨-, hne, hpid⟩ := h.recorded _ hp
  exact hne (hpid.symm.trans hs)

theorem Owned.set_same (h : Owned t live) (hpid : s.pid = (t.svc i).pid)
    (hs : s.pid ≠ 0 → s.started) : Owned (t.set i s) live := by
  refine ⟨h.nodup, fun p hp => ?_, fun j hj hne => ?_⟩
  · obtain ⟨hlt, hne, hrec⟩ := h.recorded p hp
    refine ⟨hlt, hne, ?_⟩
    exact Table.set_svc_elim (P := fun j s' => s'.pid = p.1)
      (fun hji => hpid.trans (hji ▸ hrec)) fun _ => hrec
  · rcases eq_or_ne j i with rfl | hji
    · rw [Table.set_svc_self] at hne ⊢
      refine ⟨?_, hs hne⟩
      rw [hpid] at hne ⊢
      exact (h.alive j hj hne).1
    · rw [Table.set_svc_of_ne hji] at hne ⊢
      exact h.alive j hj hne

theorem Owned.spawn (h : Owned t live) (hi : i < t.count) (hnone : (t.svc i).pid = 0)
    (hs : s.started) (hne : s.pid ≠ 0) (hnew : s.pid ∉ live.map Prod.fst) :
    Owned (t.set i s) (live ++ [(s.pid, i)]) := by
  refine ⟨?_, fun p hp => ?_, fun j hj hpid => ?_⟩
  · rw [map_append]
    exact nodup_append.2 ⟨h.nodup, nodup_singleton _, fun a ha b hb =>
      mem_singleton.1 hb ▸ ne_of_mem_of_not_mem ha hnew⟩
  · rcases mem_append.1 hp with hp | hp
    · obtain ⟨hlt, hne, hrec⟩ := h.recorded p hp
      have hpi : p.2 ≠ i := fun hpi => h.not_live (p := p.1) hnone (hpi ▸ hp)
      rw [Table.set_svc_of_ne hpi]
      exact ⟨hlt, hne, hrec⟩
    · rw [mem_singleton.1 hp, Table.set_svc_self]
      exact ⟨hi, hne, rfl⟩
  · rcases eq_or_ne j i with rfl | hji
    · rw [Table.set_svc_self]
      exact ⟨by simp, hs⟩
    · rw [Table.set_svc_of_ne hji] at hpid ⊢
      obtain ⟨hmem, hst⟩ := h.alive j hj hpid
      exact ⟨mem_append_left _ hmem, hst⟩

theorem Owned.clear (h : Owned t live) (hi : i < t.count) (hne : (t.svc i).pid ≠ 0)
    (hs : s.pid = 0) : Owned (t.set i s) (reap live (t.svc i).pid) := by
  refine ⟨?_, fun p hp => ?_, fun j hj hpid => ?_⟩
  · exact h.nodup.sublist (filter_sublist.map _)
  · obtain ⟨hp, hpid⟩ := mem_filter.1 hp
    obtain ⟨hlt, hpne, hrec⟩ := h.recorded p hp
    have hpi : p.2 ≠ i := by
      rintro rfl
      simp [hrec] at hpid
    rw [Table.set_svc_of_ne hpi]
    exact ⟨hlt, hpne, hrec⟩
  · rcases eq_or_ne j i with rfl | hji
    · rw [Table.set_svc_self] at hpid
      exact absurd hs hpid
    · rw [Table.set_svc_of_ne hji] at hpid ⊢
      obtain ⟨hmem, hst⟩ := h.alive j hj hpid
      refine ⟨mem_filter.2 ⟨hmem, ?_⟩, hst⟩
      -- two services with one pid would be one process with two services
      have hdiff : (t.svc j).pid ≠ (t.svc i).pid := fun heq =>
        hji (congrArg Prod.snd (inj_on_of_nodup_map h.nodup hmem (h.alive i hi hne).1 heq))
      simpa using hdiff

theorem reap_of_notMem {pid : Nat} (h : pid ∉ live.map Prod.fst) : reap live pid = live :=
  filter_eq_self.2 fun p hp => by
    have hne : p.1 ≠ pid := fun heq => h (heq ▸ mem_map_of_mem hp)
    simpa using hne

end

/-! ## One lemma for each call -/

section

variable {sup : Supervisor} {live : List (Nat × Nat)} {env : PumpEnv} {name : String}

section

variable (h : Owned sup.table live)

include h

theorem Owned.pollReadiness : Owned (LunaInit.pollReadiness env sup) live := by
  have hpid : ∀ i, ((LunaInit.pollReadiness env sup).svc i).pid = (sup.table.svc i).pid :=
    fun i => pollReadiness_elim (P := fun s => s.pid = (sup.table.svc i).pid) rfl
      (fun _ => rfl) fun _ => rfl
  refine ⟨h.nodup, fun p hp => ?_, fun i hi hne => ?_⟩
  · rw [hpid]
    exact h.recorded p hp
  · rw [hpid] at hne ⊢
    obtain ⟨hmem, hst⟩ := h.alive i hi hne
    exact ⟨hmem, pollReadiness_elim (P := Service.started) hst (fun _ => .inr (.inl rfl))
      fun _ => .inr (.inr rfl)⟩

/-- A pump spawns a process only for a `PENDING` service, which has none. -/
theorem Owned.pump (hfresh : FreshForks live (supervisorPump env sup).2) :
    Owned (supervisorPump env sup).1.table (live ++ forks (supervisorPump env sup).2) := by
  refine (pump_induct (P := fun t as => FreshForks live as →
    Owned t (live ++ forks as) ∧ t.count = sup.table.count) ?_ ?_ hfresh).1
  · intro _
    exact ⟨by simpa [forks] using h.pollReadiness, rfl⟩
  · intro t as i hi hs ih hfresh
    rw [FreshForks, forks_append, ← append_assoc] at hfresh
    obtain ⟨hnd, hpos⟩ := hfresh
    have hnd' := hnd
    rw [map_append] at hnd'
    obtain ⟨howned, hcount⟩ := ih ⟨(nodup_append.1 hnd').1,
      fun p hp => hpos p (mem_append_left _ hp)⟩
    rw [← hcount] at hi
    have hpending := (startable_iff.1 hs).1
    have hnone : (t.svc i).pid = 0 := by
      by_contra hne
      rcases (howned.alive i hi hne).2 with hst | hst | hst <;> rw [hpending] at hst <;> cases hst
    refine ⟨?_, hcount⟩
    rw [forks_append, ← append_assoc]
    rcases startService_cases (env.spawn i) (t.svc i) with hdeg | ⟨pid, now, ho, hstart⟩
    · -- a failed spawn forks nothing; a successful one never degrades the entry
      cases ho : env.spawn i with
      | forked pid now => simp [ho, startService, spawnService] at hdeg
      | binaryMissing | forkFailed =>
        rw [← ho, hdeg]
        have hnofork : forks [⟨i, t, env.spawn i⟩] = [] := by simp [forks, ho]
        rw [hnofork, append_nil]
        exact howned.set_same rfl fun hne => absurd hnone hne
    · have hfork : forks [⟨i, t, env.spawn i⟩] = [(pid, i)] := by simp [forks, ho]
      rw [hfork] at hnd hpos
      rw [hfork, hstart]
      rw [map_append, map_singleton, nodup_append] at hnd
      exact howned.spawn (s := { t.svc i with pid := pid, state := .starting, startTimeMs := now })
        hi hnone (.inl rfl) (hpos (pid, i) (by simp))
        fun hmem => hnd.2.2 pid hmem pid (mem_singleton.2 rfl) rfl

theorem Owned.startOne (hcareful : Careful ⟨sup, live⟩ (.startOne name env))
    (hfresh : FreshForks live (supervisorStartOne env name sup).1.2) :
    Owned (supervisorStartOne env name sup).1.1.table
      (live ++ forks (supervisorStartOne env name sup).1.2) := by
  unfold supervisorStartOne at hfresh ⊢
  rcases hf : serviceFind sup.table name with - | i
  · simpa [forks] using h
  · simp only [hf] at hfresh ⊢
    split
    · simpa [forks] using h
    · next hstate =>
      simp only [hstate] at hfresh
      simp only [Bool.or_eq_true, decide_eq_true_eq, not_or] at hstate
      have hnone : (sup.table.svc i).pid = 0 := by
        rcases hcareful i hf with hr | hs | hnone
        · exact absurd hr hstate.1
        · exact absurd hs hstate.2
        · exact hnone
      refine Owned.pump ?_ hfresh
      exact h.set_same rfl fun hne => absurd hnone hne

theorem Owned.stopOne {out : StopOutcome} (hcareful : Careful ⟨sup, live⟩ (.stopOne name out))
    (hpossible : Possible ⟨sup, live⟩ (.stopOne name out)) :
    Owned (ProcState.step ⟨sup, live⟩ (.stopOne name out)).sup.table
      (ProcState.step ⟨sup, live⟩ (.stopOne name out)).live := by
  simp only [Careful, Possible, ProcState.step, supervisorStopOne, stopPid] at hcareful hpossible ⊢
  have hzero : reap live 0 = live := reap_of_notMem fun hmem => by
    obtain ⟨p, hp, hp0⟩ := mem_map.1 hmem
    exact (h.recorded p hp).2.1 hp0
  rcases hf : serviceFind sup.table name with - | i
  · simp only [hzero]
    cases out with
    | exited | gone => exact h
    | killed reaped => cases reaped <;> exact h
  · simp only [hf] at hcareful hpossible ⊢
    by_cases hpid : (sup.table.svc i).pid = 0
    · rw [if_pos hpid, hpid, hzero]
      cases out with
      | exited | gone => exact h
      | killed reaped => cases reaped <;> exact h
    · have hi := (serviceFind_eq_some hf).1
      have hlive := (h.alive i hi hpid).1
      have hclear := h.clear (s := { sup.table.svc i with state := .stopped, pid := 0 }) hi hpid rfl
      rw [if_neg hpid]
      cases out with
      | exited => exact hclear
      | gone => exact absurd (mem_map_of_mem hlive) (hpossible rfl)
      | killed reaped =>
        cases reaped with
        | true => exact hclear
        | false => exact absurd (hcareful rfl) hpid

theorem Owned.exit {e : ChildExit} : Owned (reaperOnExit e sup).table (reap live e.pid) := by
  rw [reaperOnExit]
  rcases hf : serviceFindByPid sup.table e.pid with - | i
  · rw [reap_of_notMem]
    · exact h
    · intro hmem
      obtain ⟨p, hp, hpid⟩ := mem_map.1 hmem
      obtain ⟨hlt, hne, hrec⟩ := h.recorded p hp
      exact serviceFindByPid_eq_none hf (hpid ▸ hne) hlt (hrec.trans hpid)
  · obtain ⟨hne, hi, hpid⟩ := serviceFindByPid_eq_some hf
    rw [← hpid] at hne ⊢
    exact h.clear hi hne (Service.exited_cases _ e).1

end

/-- **One step keeps the invariant.** -/
theorem Owned.step {s : ProcState} (h : Owned s.sup.table s.live) {op : ProcOp}
    (hop : Possible s op ∧ Careful s op) : Owned (s.step op).sup.table (s.step op).live := by
  obtain ⟨hpossible, hcareful⟩ := hop
  cases op with
  | pump env => exact h.pump hpossible
  | startOne name env => exact h.startOne hcareful hpossible
  | stopOne name out => exact h.stopOne hcareful hpossible
  | exit e => exact h.exit
  | signalReady pid =>
    simp only [ProcState.step, supervisorSignalReady_table]
    exact h

end

theorem Owned.start {sup : Supervisor} (hnone : ∀ i < sup.table.count, (sup.table.svc i).pid = 0)
    {env : PumpEnv} (hfresh : FreshForks [] (supervisorStartAll env sup).2) :
    Owned (ProcState.start env sup).sup.table (ProcState.start env sup).live := by
  suffices hmarked : Owned (marked sup).table [] from hmarked.pump hfresh
  refine ⟨nodup_nil, by simp, fun i hi hne => ?_⟩
  have hpid : ∀ s : Service, s.startAll.pid = s.pid := by
    intro s
    rw [Service.startAll]
    split
    · rfl
    · split <;> rfl
  refine absurd ?_ hne
  simp only [marked] at hi ⊢
  rw [if_pos hi, hpid]
  exact hnone i hi

/-- **One process per service.**  In every run after `supervisor_start_all` in which no service with
a process is started by hand and no killed process is left unreaped, every service has at most one
live process, and the pid of that process is the one in its entry. -/
theorem oneProcess_run {sup : Supervisor}
    (hnone : ∀ i < sup.table.count, (sup.table.svc i).pid = 0) {env : PumpEnv}
    (hfresh : FreshForks [] (supervisorStartAll env sup).2) {ops : List ProcOp}
    (hops : Run.Along ProcState.step (fun s op => Possible s op ∧ Careful s op)
      (ProcState.start env sup) ops) :
    OneProcess (Run.run ProcState.step (ProcState.start env sup) ops) :=
  Owned.oneProcess <| Run.inv_run (I := fun s => Owned s.sup.table s.live)
    (fun _ _ h hop => h.step hop) (.start hnone hfresh) hops

/-! ## Runs -/

def sampleSlow : Supervisor :=
  (loadServices (some [⟨"ollama.toml", some
    { name := "ollama", binary := "/usr/bin/ollama", readyMethod := .file }⟩]) Supervisor.zero).1

/-- The service is stopped and started again, and its process dies. -/
theorem oneProcess_run_sample :
    OneProcess (Run.run ProcState.step (ProcState.start (forkingEnv 100 41) sampleSlow)
      [.pump (forkingEnv 200 42), .stopOne "ollama" .exited, .startOne "ollama" (forkingEnv 300 43),
        .exit ⟨43, 1, false, 400⟩, .pump (forkingEnv 500 44)]) := by
  refine oneProcess_run ?_ (by decide +kernel) (by decide +kernel)
  intro i hi
  obtain rfl : i = 0 := Nat.lt_one_iff.1 hi
  decide +kernel

/-- The service misses its readiness timeout of 5 s and is started by hand: it has two processes. -/
theorem degraded_started_twice :
    let ops := [ProcOp.pump (forkingEnv 6000 0), .startOne "ollama" (forkingEnv 6100 42)]
    Run.Along ProcState.step Possible (ProcState.start (forkingEnv 100 41) sampleSlow) ops ∧
    (Run.run ProcState.step (ProcState.start (forkingEnv 100 41) sampleSlow) ops).live =
      [(41, 0), (42, 0)] ∧
    ¬ OneProcess (Run.run ProcState.step (ProcState.start (forkingEnv 100 41) sampleSlow) ops) := by
  decide +kernel

end LunaInit
