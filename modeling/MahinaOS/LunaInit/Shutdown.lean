import MahinaOS.LunaInit.Reachable

/-!
# luna-init: stopping everything at shutdown

`shutdown_run` goes through the table from its last entry to its first and stops the services that
are `RUNNING` or `STARTING`.  Its comment takes the order of the table for the order in which the
services were started; but the table is in the order of the directory, and the start order is a
topological order of the dependencies.

`shutdownStops` are the processes that are stopped, in that order.  In a table with distinct names
they are the pids of the active services, by falling index (`shutdownStops_eq`), which leaves

* **`shutdown_correct_iff`**: when every live process is stopped, each before those of the services
  that its own was to be started after;
* `shutdown_wrong`: a directory that lists a service before the one it depends on, a service that
  missed its readiness timeout, and one that was running when the directory was reloaded.
-/

namespace LunaInit

open List

/-! ## The loop -/

/-- The first step of `shutdown_run`, from entry `n - 1` down: the supervisor, and the processes
that `supervisor_stop_one` has stopped. -/
def stopDown : Nat → Supervisor → Supervisor × List Nat
  | 0, sup => (sup, [])
  | n + 1, sup =>
    let s := sup.table.svc n
    if s.active then
      let r := stopDown n (supervisorStopOne s.name sup)
      (r.1, [stopPid sup s.name].filter (· ≠ 0) ++ r.2)
    else stopDown n sup

/-- The processes that `shutdown_run` stops, in order. -/
def shutdownStops (sup : Supervisor) : List Nat := (stopDown sup.table.count sup).2

/-- The service is stopped by the loop when its turn comes. -/
def stopped (t : Table) (i : Nat) : Bool := (t.svc i).active && decide ((t.svc i).pid ≠ 0)

variable {sup : Supervisor}

theorem supervisorStopOne_svc_of_ne {name : String} {i j : Nat}
    (hf : serviceFind sup.table name = some i) (hij : j ≠ i) :
    (supervisorStopOne name sup).table.svc j = sup.table.svc j := by
  simp only [supervisorStopOne, hf]
  split
  · rfl
  · exact Table.set_svc_of_ne hij

/-- The loop stops, from the top down, the entries that the table has for it. -/
theorem stopDown_eq {n : Nat} (hn : n ≤ sup.table.count) (hd : sup.table.Distinct) :
    (stopDown n sup).2 =
      ((range n).reverse.filter (stopped sup.table)).map fun i => (sup.table.svc i).pid := by
  induction n generalizing sup with
  | zero => rfl
  | succ n ih =>
    have hf := hd.serviceFind_name hn
    rw [range_succ, reverse_append, reverse_singleton, singleton_append, stopDown]
    rcases hactive : (sup.table.svc n).active with - | -
    · rw [if_neg Bool.false_ne_true, ih (Nat.le_of_succ_le hn) hd,
        filter_cons_of_neg (by simp [stopped, hactive])]
    · have hstatic := SupCall.perform_static (.stopOne (sup.table.svc n).name) sup
      simp only [SupCall.perform] at hstatic
      have hd' : (supervisorStopOne (sup.table.svc n).name sup).table.Distinct := by
        intro i hi j hj hij
        rw [hstatic.count] at hi hj
        rw [(hstatic.entry i).1, (hstatic.entry j).1] at hij
        exact hd i hi j hj hij
      -- the entries that are still to come are not touched
      have hsame : ∀ j ∈ (range n).reverse,
          (supervisorStopOne (sup.table.svc n).name sup).table.svc j = sup.table.svc j := by
        intro j hj
        refine supervisorStopOne_svc_of_ne hf ?_
        simp only [mem_reverse, mem_range] at hj
        omega
      have hrest : (range n).reverse.filter
          (stopped (supervisorStopOne (sup.table.svc n).name sup).table) =
            (range n).reverse.filter (stopped sup.table) :=
        filter_congr fun j hj => by rw [stopped, stopped, hsame j hj]
      rw [if_pos rfl]
      dsimp only
      rw [ih (hstatic.count ▸ Nat.le_of_succ_le hn) hd', hrest,
        map_congr_left fun j hj => congrArg Service.pid (hsame j (mem_of_mem_filter hj)), stopPid,
        hf, filter_cons (x := n), stopped, hactive, Bool.true_and]
      by_cases hpid : (sup.table.svc n).pid = 0 <;> simp [hpid]

theorem shutdownStops_eq (hd : sup.table.Distinct) :
    shutdownStops sup = ((range sup.table.count).reverse.filter (stopped sup.table)).map
      fun i => (sup.table.svc i).pid :=
  stopDown_eq le_rfl hd

/-- In a falling list one element stands before another exactly if it is larger. -/
theorem sublist_pair_iff {l : List Nat} (h : l.Pairwise (· > ·)) {a b : Nat} (ha : a ∈ l)
    (hb : b ∈ l) : [a, b].Sublist l ↔ b < a := by
  refine ⟨fun hs => pairwise_iff_forall_sublist.1 h hs, fun hba => ?_⟩
  obtain ⟨l₁, l₂, rfl⟩ := append_of_mem ha
  rcases mem_append.1 hb with hb | hb
  · have hab := (pairwise_append.1 h).2.2 b hb a mem_cons_self
    omega
  · rcases mem_cons.1 hb with rfl | hb
    · omega
    · exact (cons_sublist_cons.2 (singleton_sublist.2 hb)).trans (sublist_append_right l₁ _)

/-! ## What shutdown promises -/

theorem Table.Precedes.lt {t : Table} {i j : Nat} (h : t.Precedes i j) :
    i < t.count ∧ j < t.count := by
  rcases h with h | ⟨hi, name, -, hf⟩
  · exact ⟨h.lt, h.1⟩
  · exact ⟨hi, (serviceFind_eq_some hf).1⟩

/-- Every live process is stopped. -/
def StopsAll (s : Machine) : Prop := ∀ p ∈ s.live, p.1 ∈ shutdownStops s.sup

/-- The two services have these processes, and the first is to be started before the second. -/
def Machine.Before (s : Machine) (p q : Nat × String) (i j : Nat) : Prop :=
  (s.sup.table.svc i).name = p.2 ∧ (s.sup.table.svc j).name = q.2 ∧ s.sup.table.Precedes i j

/-- The processes of a service are stopped before those of the services it was to be started
after. -/
def StopsInOrder (s : Machine) : Prop :=
  ∀ p ∈ s.live, ∀ q ∈ s.live, ∀ i j, s.Before p q i j → [q.1, p.1].Sublist (shutdownStops s.sup)

/-- The entry of a service that is `RUNNING` or `STARTING` has the process. -/
def Machine.Noted (s : Machine) (p : Nat × String) (i : Nat) : Prop :=
  i < s.sup.table.count ∧ (s.sup.table.svc i).name = p.2 ∧ (s.sup.table.svc i).pid = p.1 ∧
    (s.sup.table.svc i).active = true

variable {s : Machine}

/-- A process is stopped exactly if it is noted. -/
theorem Machine.Recorded.mem_stops_iff (h : s.Recorded) {p : Nat × String} (hp : p ∈ s.live) :
    p.1 ∈ shutdownStops s.sup ↔ ∃ i, s.Noted p i := by
  have hsane := sane_of_reachable h.reachable
  rw [shutdownStops_eq hsane.distinct, mem_map]
  refine exists_congr fun i => ?_
  rw [mem_filter, mem_reverse, mem_range, stopped, Bool.and_eq_true, decide_eq_true_eq]
  constructor
  · rintro ⟨⟨hi, hactive, hne⟩, hpid⟩
    exact ⟨hi, h.eq_of_pid hp hi hne hpid, hpid, hactive⟩
  · rintro ⟨hi, -, hpid, hactive⟩
    exact ⟨⟨hi, hactive, hsane.live i hi hactive⟩, hpid⟩

/-- Of two processes that are stopped, that of the larger index comes first. -/
theorem Machine.Recorded.sublist_stops_iff (h : s.Recorded) {p q : Nat × String} {i j : Nat}
    (hi : s.Noted p i) (hj : s.Noted q j) :
    [q.1, p.1].Sublist (shutdownStops s.sup) ↔ i < j := by
  have hsane := sane_of_reachable h.reachable
  have hmem : ∀ {p k}, s.Noted p k →
      k ∈ (range s.sup.table.count).reverse.filter (stopped s.sup.table) := by
    rintro p k ⟨hk, -, -, hactive⟩
    simp [stopped, hk, hactive, hsane.live k hk hactive]
  have hsorted : ((range s.sup.table.count).reverse.filter (stopped s.sup.table)).Pairwise
      (· > ·) := (pairwise_reverse.2 pairwise_lt_range).filter _
  rw [shutdownStops_eq hsane.distinct, ← sublist_pair_iff hsorted (hmem hj) (hmem hi),
    ← hi.2.2.1, ← hj.2.2.1]
  constructor
  · intro hsub
    obtain ⟨l, hl, heq⟩ := sublist_map_iff.1 hsub
    -- a pid is in one entry only
    have hinj : ∀ {k}, k ∈ (range s.sup.table.count).reverse.filter (stopped s.sup.table) →
        ∀ {k'}, k' < s.sup.table.count →
          (s.sup.table.svc k').pid = (s.sup.table.svc k).pid → k' = k := by
      intro k hk k' hk' hpid
      simp only [stopped, mem_filter, mem_reverse, mem_range, Bool.and_eq_true,
        decide_eq_true_eq] at hk
      exact h.pid_inj hk' hk.1 hk.2.2 hpid
    obtain ⟨a, b, rfl⟩ : ∃ a b, l = [a, b] :=
      length_eq_two.1 (by simpa using (congrArg length heq).symm)
    simp only [map_cons, map_nil, cons.injEq, and_true] at heq
    rwa [hinj (hl.subset (by simp)) hj.1 heq.1, hinj (hl.subset (by simp)) hi.1 heq.2]
  · exact fun hsub => hsub.map fun i => (s.sup.table.svc i).pid

/-- **When shutdown stops everything in order.**  In every state that calls and reloads lead to,
`shutdown_run` stops every live process, and each before those of the services that its own was to
be started after, exactly if every live process is noted in the entry of its service, which is
`RUNNING` or `STARTING`, and the order of these services in the table is one in which they may be
started. -/
theorem shutdown_correct_iff {s : Machine} (h : s.Reached) :
    (StopsAll s ∧ StopsInOrder s) ↔ (∀ p ∈ s.live, ∃ i, s.Noted p i) ∧
      ∀ p ∈ s.live, ∀ q ∈ s.live, ∀ i j, s.Before p q i j → i < j := by
  have hrec := h.recorded
  have hd := (sane_of_reachable hrec.reachable).distinct
  have hall : StopsAll s ↔ ∀ p ∈ s.live, ∃ i, s.Noted p i :=
    forall₂_congr fun p hp => hrec.mem_stops_iff hp
  rw [hall]
  refine and_congr_right fun hnoted => ?_
  refine forall₄_congr fun p hp q hq => forall₃_congr fun i j hbefore => ?_
  obtain ⟨hip, hjq, hprec⟩ := hbefore
  obtain ⟨hi, hj⟩ := Table.Precedes.lt hprec
  obtain ⟨i', hi'⟩ := hnoted p hp
  obtain ⟨j', hj'⟩ := hnoted q hq
  obtain rfl := hd i hi i' hi'.1 (hip.trans hi'.2.1.symm)
  obtain rfl := hd j hj j' hj'.1 (hjq.trans hj'.2.1.symm)
  exact hrec.sublist_stops_iff hi' hj'

/-! ## Runs -/

/-- The machine after some calls and reloads, in which no stop has to wait. -/
def ran (es : List SupEvent) : Machine :=
  Run.run Machine.step ⟨Supervisor.zero, []⟩ (es.map fun e => (e, .exited))

instance (s : Machine) (p q : Nat × String) (i j : Nat) : Decidable (s.Before p q i j) :=
  inferInstanceAs (Decidable (_ ∧ _ ∧ _))

instance (s : Machine) (p : Nat × String) (i : Nat) : Decidable (s.Noted p i) :=
  inferInstanceAs (Decidable (_ ∧ _ ∧ _))

/-- Boot a directory of two services, and pump until both run. -/
def bootTwo (dir : List DirEntry) : List SupEvent :=
  [.reload (some dir), .call (.startAll (forkingEnv 100 41)), .call (.pump (forkingEnv 200 42)),
    .call (.pump (forkingEnv 300 43))]

def networkFile : DirEntry :=
  ⟨"network.toml", some { name := "network", binary := "/usr/bin/networkd" }⟩

def sshdFile : DirEntry :=
  ⟨"sshd.toml", some { name := "sshd", binary := "/usr/bin/sshd", after := ["network"] }⟩

def ollamaFile : DirEntry :=
  ⟨"ollama.toml", some { name := "ollama", binary := "/usr/bin/ollama", readyMethod := .file }⟩

/-- The directory lists `network` before `sshd`, which depends on it. -/
def sorted : Machine := ran (bootTwo [networkFile, sshdFile])

def unsorted : Machine := ran (bootTwo [sshdFile, networkFile])

/-- A service has missed its readiness timeout. -/
def late : Machine :=
  ran [.reload (some [ollamaFile]), .call (.startAll (forkingEnv 100 41)),
    .call (.pump (forkingEnv 6000 0))]

/-- The directory is reloaded while a service runs. -/
def reloaded : Machine := ran (bootTwo [networkFile] ++ [.reload (some [networkFile])])

/-- If the directory lists `network` before `sshd`, then `sshd` is stopped first. -/
theorem shutdown_correct_sample : StopsAll sorted ∧ StopsInOrder sorted := by
  have hreach : sorted.Reached := Machine.Reached.boot.run _ (by decide +kernel)
  have hlive : sorted.live = [(41, "network"), (42, "sshd")] := by decide +kernel
  have horder : ∀ i < 2, ∀ j < 2, sorted.sup.table.Precedes i j → i < j := by decide +kernel
  refine (shutdown_correct_iff hreach).2 ⟨?_, fun p _ q _ i j hbefore => ?_⟩
  · rw [hlive]
    simp only [forall_mem_cons, not_mem_nil, false_imp_iff, implies_true, and_true]
    exact ⟨⟨0, by decide +kernel⟩, ⟨1, by decide +kernel⟩⟩
  · obtain ⟨hi, hj⟩ := Table.Precedes.lt hbefore.2.2
    exact horder i hi j hj hbefore.2.2

/-- The directory lists `sshd` before `network`, on which it depends.  Both run, and `network` is
stopped first.  A service that missed its readiness timeout is `DEGRADED` with a process, which is
not stopped; and neither is one that was started before the directory was reloaded. -/
theorem shutdown_wrong :
    (unsorted.live = [(41, "network"), (42, "sshd")] ∧
      unsorted.Before (41, "network") (42, "sshd") 1 0 ∧ shutdownStops unsorted.sup = [41, 42]) ∧
    (late.live = [(41, "ollama")] ∧ shutdownStops late.sup = []) ∧
    reloaded.live = [(41, "network")] ∧ shutdownStops reloaded.sup = [] := by
  decide +kernel

end LunaInit
