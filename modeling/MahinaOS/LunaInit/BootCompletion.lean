import MahinaOS.LunaInit.Boot

/-!
# luna-init: when Stage 4 ends

Stage 5 begins once `supervisor_is_boot_complete` holds.  Stage 4 leaves `lgp-compositor` `STOPPED`,
since Stage 5 starts it; a service that waits for it must not hold up Stage 4, so a service with a
`STOPPED` dependency is excused.

Take a boot in which no child exits and the clock advances, and let a service be `Blocked` when a
chain of `after` lists leads from it to `lgp-compositor`.  Then

* a blocked service stays `PENDING` forever (`Stage4.blocked`);
* every other service is `RUNNING` or `DEGRADED` in the end (`settles`), by induction along the
  start order: once its dependencies are up it is spawned by the next pump, and once it is spawned
  it is ready or runs into its timeout.

**`bootComplete_iff`**: so the boot completes exactly if every blocked service lists
`lgp-compositor` itself.  The excuse does not look further than one step, and a chain of two holds
Stage 4 up forever (`boot_never_completes`).
-/

namespace LunaInit

open List

/-- One turn of the main loop: the children that signalled readiness, and a pump. -/
structure Round where
  signals : List Nat
  env : PumpEnv

def boots (env₀ : PumpEnv) (dir : List DirEntry) (rounds : Nat → Round) : Nat → Supervisor
  | 0 => (supervisorStartAll env₀ (loaded dir)).1
  | n + 1 => (supervisorPump (rounds n).env
      ((rounds n).signals.foldl (fun sup pid => supervisorSignalReady pid sup)
        (boots env₀ dir rounds n))).1

/-- The clock of the pumps passes every time. -/
def ClockAdvances (rounds : Nat → Round) : Prop :=
  ∀ T : Int, ∃ n, ∀ m ≥ n, T ≤ ((rounds m).env.now : Int)

/-- A chain of `after` lists leads from the service to `lgp-compositor`. -/
def Blocked (t : Table) (i : Nat) : Prop :=
  (t.svc i).isCompositor = false ∧
    ∃ c, (t.svc c).isCompositor = true ∧ Relation.TransGen t.Waits i c

section

variable {t : Table} {i d : Nat}

/-- A blocked service waits for `lgp-compositor` or for a blocked service. -/
theorem Blocked.dep (h : Blocked t i) :
    ∃ d, t.Waits i d ∧ ((t.svc d).isCompositor = true ∨ Blocked t d) := by
  obtain ⟨-, c, hc, hchain⟩ := h
  obtain ⟨d, hd, hrest⟩ := Relation.TransGen.head'_iff.1 hchain
  refine ⟨d, hd, ?_⟩
  cases hcomp : (t.svc d).isCompositor with
  | true => exact .inl rfl
  | false =>
    rcases Relation.reflTransGen_iff_eq_or_transGen.1 hrest with rfl | hrest
    · rw [hcomp] at hc
      cases hc
    · exact .inr ⟨hcomp, c, hc, hrest⟩

theorem not_blocked_dep (hi : (t.svc i).isCompositor = false) (h : ¬ Blocked t i)
    (hd : t.Waits i d) : (t.svc d).isCompositor = false ∧ ¬ Blocked t d := by
  refine ⟨?_, fun hb => ?_⟩
  · by_contra hc
    exact h ⟨hi, d, by simpa using hc, .single hd⟩
  · obtain ⟨-, c, hc, hchain⟩ := hb
    exact h ⟨hi, c, hc, .head hd hchain⟩

end

/-! ## What the pumps keep -/

/-- The invariant of Stage 4. -/
structure Stage4 (t₀ t : Table) : Prop where
  static : Static t₀ t
  compositor : ∀ i < t.count, (t.svc i).isCompositor = true → (t.svc i).state = .stopped
  progress : ∀ i < t.count, (t.svc i).isCompositor = false →
    (t.svc i).state = .pending ∧ (t.svc i).scheduledStartMs = 0 ∨ (t.svc i).state = .starting ∨
      (t.svc i).up = true
  blocked : ∀ i < t.count, Blocked t₀ i → (t.svc i).state = .pending

theorem Service.up_iff {s : Service} : s.up = true ↔ s.state = .running ∨ s.state = .degraded := by
  simp [Service.up]

theorem Advance.up {s s' : Service} (h : Advance s s') (hs : s.up = true) : s'.up = true := by
  rw [Service.up_iff] at hs
  cases h with
  | same => exact Service.up_iff.2 hs
  | ready h | timeout h | failed h | spawned h => simp [h] at hs

/-- A move of an entry keeps the invariant, unless it starts a blocked service. -/
theorem Stage4.advance {t₀ t t' : Table} (h : Stage4 t₀ t) (hcount : t'.count = t.count)
    (hadv : ∀ i, Advance (t.svc i) (t'.svc i))
    (hblocked : ∀ i < t.count, Blocked t₀ i → t'.svc i = t.svc i) : Stage4 t₀ t' := by
  have hstatic : Static t t' := ⟨hcount, fun i => (hadv i).static⟩
  refine ⟨h.static.trans hstatic, fun i hi hc => ?_, fun i hi hc => ?_, fun i hi hb => ?_⟩
  · rw [hcount] at hi
    rw [hstatic.isCompositor] at hc
    have hs := h.compositor i hi hc
    have ha := hadv i
    generalize t'.svc i = s' at ha ⊢
    cases ha with
    | same => exact hs
    | ready h | timeout h | failed h | spawned h => simp [hs] at h
  · rw [hcount] at hi
    rw [hstatic.isCompositor] at hc
    have hp := h.progress i hi hc
    have ha := hadv i
    generalize t'.svc i = s' at ha ⊢
    cases ha with
    | same => exact hp
    | ready | timeout | failed => exact .inr (.inr (by simp [Service.up]))
    | spawned => exact .inr (.inl rfl)
  · rw [hcount] at hi
    rw [hblocked i hi hb]
    exact h.blocked i hi hb

variable {env : PumpEnv} {sup : Supervisor}

/-- The start gate keeps blocked services out. -/
theorem Stage4.not_blocked {t₀ t : Table} {g : Graph} (h : Stage4 t₀ t) (hw : Wired t₀ g)
    {j : Nat} (hj : j < t.count) (hs : startable env t j = true) : ¬ Blocked t₀ j := by
  intro hb
  obtain ⟨d, hd, hcase⟩ := hb.dep
  have hlt : d < t.count := h.static.count ▸ hd.lt
  have hdep := ((hw.congr h.static).deps j hj d).2 (h.static.waits.2 hd)
  have hup := Service.up_iff.1 (canStart_iff.1 (startable_iff.1 hs).2.2 d hdep hlt)
  have hdown : (t.svc d).state = .stopped ∨ (t.svc d).state = .pending := by
    rcases hcase with hc | hb
    · exact .inl (h.compositor d hlt ((h.static.isCompositor d).trans hc))
    · exact .inr (h.blocked d hlt hb)
  rcases hdown with hdown | hdown <;> simp [hdown] at hup

theorem Stage4.pump {t₀ : Table} (h : Stage4 t₀ sup.table) (hw : Wired t₀ sup.graph)
    (env : PumpEnv) : Stage4 t₀ (supervisorPump env sup).1.table := by
  refine (pump_induct (P := fun t _ => Stage4 t₀ t ∧ t.count = sup.table.count) ⟨?_, rfl⟩ ?_).1
  · refine h.advance rfl pollReadiness_advance fun i hi hb => ?_
    have hp := h.blocked i hi hb
    exact pollReadiness_elim (P := fun s => s = sup.table.svc i) rfl
      (fun hs => by simp [hp] at hs) fun hs => by simp [hp] at hs
  · intro t as j hj hs ht
    obtain ⟨ht, hcount⟩ := ht
    rw [← hcount] at hj
    refine ⟨ht.advance rfl (fun i => ?_) fun i _ hb => ?_, hcount⟩
    · refine Table.set_svc_elim (P := fun _ s => Advance (t.svc i) s) ?_ fun _ => .same
      rintro rfl
      exact startService_advance (startable_iff.1 hs).1
    · have hij : i ≠ j := by
        rintro rfl
        exact ht.not_blocked hw hj hs hb
      exact Table.set_svc_of_ne hij

/-! ## What a pump achieves -/

/-- A `PENDING` service whose dependencies are up is spawned. -/
theorem supervisorPump_starts (hw : Wired sup.table sup.graph) {i : Nat}
    (hi : i < sup.table.count) (hdeps : ∀ d ∈ (sup.table.svc i).depIndices, d < sup.table.count →
      (sup.table.svc d).up = true) (hsched : (sup.table.svc i).scheduledStartMs = 0) :
    ((supervisorPump env sup).1.table.svc i).state ≠ .pending := by
  obtain ⟨order, hsort, -, -, hall⟩ := hw.order
  have hsort' : depgraphTopoSort (pollReadiness env sup).count sup.graph = some order := hsort
  simp only [supervisorPump, hsort']
  refine (visits_split env order (pollReadiness env sup) []
    (Q := fun pre t _ => (t.count = sup.table.count ∧
      ∀ k, Advance (sup.table.svc k) (t.svc k)) ∧ (i ∈ pre → (t.svc i).state ≠ .pending))
    ⟨⟨rfl, pollReadiness_advance⟩, by simp⟩ ?_).2 (hall i hi)
  intro pre j post t as _ hq
  obtain ⟨⟨hcount, hadv⟩, hpre⟩ := hq
  by_cases hs : startable env t j = true
  · rw [visit, if_pos hs]
    have hstarted := startService_advance (o := env.spawn j) (startable_iff.1 hs).1
    refine ⟨⟨hcount, fun k => ?_⟩, fun hmem => ?_⟩
    · refine Table.set_svc_elim (P := fun _ s => Advance (sup.table.svc k) s) ?_ fun _ => hadv k
      rintro rfl
      rw [(hadv k).eq_of_pending (startable_iff.1 hs).1] at hstarted ⊢
      exact hstarted
    · rcases eq_or_ne i j with rfl | hij
      · rw [Table.set_svc_self]
        rcases startService_cases (env.spawn i) (t.svc i) with hc | ⟨_, _, _, hc⟩ <;> simp [hc]
      · rw [Table.set_svc_of_ne hij]
        exact hpre (by simpa [hij] using hmem)
  · rw [visit, if_neg hs]
    refine ⟨⟨hcount, hadv⟩, fun hmem hpending => hs ?_⟩
    by_cases hp : i ∈ pre
    · exact absurd hpending (hpre hp)
    · obtain rfl : i = j := by simpa [hp] using hmem
      -- it did not move yet, and what it waits for is still up
      have hsame := (hadv i).eq_of_pending hpending
      refine startable_iff.2 ⟨hpending, ?_, canStart_iff.2 fun d hd hlt => ?_⟩
      · rw [hsame, hsched]
        exact Int.natCast_nonneg _
      · rw [hsame] at hd
        exact (hadv d).up (hdeps d hd (hcount ▸ hlt))

/-- A `STARTING` service that has run into its timeout is up after the pump. -/
theorem supervisorPump_timeout {i : Nat} (hi : i < sup.table.count)
    (hs : (sup.table.svc i).state = .starting)
    (hnow : (env.now : Int) - (sup.table.svc i).startTimeMs ≥ (sup.table.svc i).readyTimeoutMs) :
    ((supervisorPump env sup).1.table.svc i).up = true := by
  refine pump_induct (P := fun t _ => (t.svc i).up = true) ?_ fun t as j _ hj ht => ?_
  · simp only [pollReadiness, if_pos hi, checkReadiness, if_pos hs, if_pos hnow]
    split
    · simp [Service.up]
    · split <;> simp [Service.up]
  · refine Table.set_svc_elim (P := fun _ s => s.up = true) ?_ fun _ => ht
    rintro rfl
    have hpending := (startable_iff.1 hj).1
    simp [Service.up, hpending] at ht

/-! ## The boot -/

section

variable {dir : List DirEntry} (hacc : Accepted dir) (env₀ : PumpEnv) (rounds : Nat → Round)

theorem signals_table (sup : Supervisor) (pids : List Nat) :
    (pids.foldl (fun sup pid => supervisorSignalReady pid sup) sup).table = sup.table ∧
      (pids.foldl (fun sup pid => supervisorSignalReady pid sup) sup).graph = sup.graph := by
  induction pids generalizing sup with
  | nil => exact ⟨rfl, rfl⟩
  | cons pid pids ih =>
    obtain ⟨ht, hg⟩ := ih (supervisorSignalReady pid sup)
    exact ⟨ht.trans supervisorSignalReady_table, hg.trans supervisorSignalReady_graph⟩

include hacc in
theorem boots_stage4 (n : Nat) :
    Stage4 (loaded dir).table (boots env₀ dir rounds n).table ∧
      (boots env₀ dir rounds n).graph = (loaded dir).graph := by
  have hw := wired_of_loaded hacc
  induction n with
  | zero =>
    have hmarked : Stage4 (loaded dir).table (marked (loaded dir)).table := by
      refine ⟨marked_static, fun i hi hc => ?_, fun i hi hc => ?_, fun i hi hb => ?_⟩
      · rw [(marked_loaded hi).2.2.2, if_pos hc]
      · obtain ⟨-, -, hsched, hstate⟩ := marked_loaded hi
        rw [if_neg (by rw [hc]; simp)] at hstate
        exact .inl ⟨hstate, hsched⟩
      · rw [(marked_loaded hi).2.2.2, marked_static.isCompositor, hb.1]
        rfl
    exact ⟨hmarked.pump hw env₀, supervisorPump_graph⟩
  | succ n ih =>
    obtain ⟨hst, hg⟩ := ih
    obtain ⟨ht, hgs⟩ := signals_table (boots env₀ dir rounds n) (rounds n).signals
    refine ⟨?_, supervisorPump_graph.trans (hgs.trans hg)⟩
    refine Stage4.pump ?_ ?_ _
    · rw [ht]
      exact hst
    · rw [hgs, hg]
      exact hw

variable (dir) in
/-- The service is up at some point, and so from then on. -/
def Settles (i : Nat) : Prop := ∃ n, ∀ m ≥ n, ((boots env₀ dir rounds m).table.svc i).up = true

variable (dir) in
theorem boots_advance (n i : Nat) : Advance ((boots env₀ dir rounds n).table.svc i)
    ((boots env₀ dir rounds (n + 1)).table.svc i) := by
  rw [← (signals_table (boots env₀ dir rounds n) (rounds n).signals).1]
  exact supervisorPump_advance i

variable {env₀ rounds}

theorem settles_of_up {n i : Nat} (h : ((boots env₀ dir rounds n).table.svc i).up = true) :
    Settles dir env₀ rounds i := by
  refine ⟨n, fun m hm => ?_⟩
  induction m, hm using Nat.le_induction with
  | base => exact h
  | succ m _ ih => exact (boots_advance dir env₀ rounds m i).up ih

/-- Finitely many services that settle are up together. -/
theorem settle_together {l : List Nat} (h : ∀ i ∈ l, Settles dir env₀ rounds i) :
    ∃ n, ∀ i ∈ l, ((boots env₀ dir rounds n).table.svc i).up = true := by
  have hall : ∃ n, ∀ m ≥ n, ∀ i ∈ l, ((boots env₀ dir rounds m).table.svc i).up = true := by
    induction l with
    | nil => exact ⟨0, by simp⟩
    | cons j l ih =>
      obtain ⟨a, ha⟩ := h j mem_cons_self
      obtain ⟨b, hb⟩ := ih fun i hi => h i (mem_cons_of_mem _ hi)
      refine ⟨max a b, fun m hm i hi => ?_⟩
      rcases mem_cons.1 hi with rfl | hi
      · exact ha m (le_trans (le_max_left a b) hm)
      · exact hb m (le_trans (le_max_right a b) hm) i hi
  obtain ⟨n, hn⟩ := hall
  exact ⟨n, hn n le_rfl⟩

/-- A service that was spawned becomes ready or runs into its timeout. -/
theorem settles_of_starting (hclock : ClockAdvances rounds) {n i : Nat}
    (hi : i < (boots env₀ dir rounds n).table.count)
    (hs : ((boots env₀ dir rounds n).table.svc i).state = .starting) :
    Settles dir env₀ rounds i := by
  -- as long as it is `STARTING` its entry does not change
  have hwait : ∀ m ≥ n, (boots env₀ dir rounds m).table.count =
      (boots env₀ dir rounds n).table.count ∧
      (((boots env₀ dir rounds m).table.svc i).up = true ∨
        (boots env₀ dir rounds m).table.svc i = (boots env₀ dir rounds n).table.svc i) := by
    intro m hm
    induction m, hm using Nat.le_induction with
    | base => exact ⟨rfl, .inr rfl⟩
    | succ m _ ih =>
      obtain ⟨hcount, hcase⟩ := ih
      refine ⟨supervisorPump_count.trans
        ((congrArg Table.count (signals_table _ _).1).trans hcount), ?_⟩
      have hadv := boots_advance dir env₀ rounds m i
      rcases hcase with hup | hsame
      · exact .inl (hadv.up hup)
      · rw [hsame] at hadv
        generalize (boots env₀ dir rounds (m + 1)).table.svc i = s' at hadv ⊢
        cases hadv with
        | same => exact .inr rfl
        | ready | timeout | failed => exact .inl (by simp [Service.up])
        | spawned h => simp [hs] at h
  obtain ⟨k, hk⟩ := hclock (((boots env₀ dir rounds n).table.svc i).startTimeMs +
    ((boots env₀ dir rounds n).table.svc i).readyTimeoutMs)
  obtain ⟨hcount, hcase⟩ := hwait (max n k) (le_max_left n k)
  rcases hcase with hup | hsame
  · exact settles_of_up hup
  · refine settles_of_up (n := max n k + 1) ?_
    have hnow := hk (max n k) (le_max_right n k)
    refine supervisorPump_timeout ?_ ?_ ?_ <;> rw [(signals_table _ _).1]
    · exact hcount ▸ hi
    · rw [hsame]
      exact hs
    · rw [hsame]
      omega

/-- **Every service that is not blocked is `RUNNING` or `DEGRADED` in the end.** -/
theorem settles (hacc : Accepted dir) (hclock : ClockAdvances rounds) {i : Nat}
    (hi : i < (loaded dir).table.count)
    (hc : ((loaded dir).table.svc i).isCompositor = false) (hb : ¬ Blocked (loaded dir).table i) :
    Settles dir env₀ rounds i := by
  have hw := wired_of_loaded hacc
  obtain ⟨order, hsort, hordered, -, hall⟩ := hw.order
  refine hordered.induct (P := fun i => ((loaded dir).table.svc i).isCompositor = false →
    ¬ Blocked (loaded dir).table i → Settles dir env₀ rounds i) ?_ i (hall i hi) hc hb
  intro i hmem ih hc hb
  have hi : i < (loaded dir).table.count := depgraphTopoSort_lt hsort hmem
  -- the dependencies are up together at some point
  have hdeps : ∀ d ∈ ((loaded dir).table.svc i).depIndices,
      Settles dir env₀ rounds d := by
    intro d hd
    have hwait := (hw.deps i hi d).1 hd
    obtain ⟨hdc, hdb⟩ := not_blocked_dep hc hb hwait
    exact ih d (.inl hwait) hdc hdb
  obtain ⟨n, hn⟩ := settle_together hdeps
  obtain ⟨hst, hg⟩ := boots_stage4 hacc env₀ rounds n
  obtain ⟨ht, hgs⟩ := signals_table (boots env₀ dir rounds n) (rounds n).signals
  have hlt : i < (boots env₀ dir rounds n).table.count := hst.static.count ▸ hi
  rcases hst.progress i hlt ((hst.static.isCompositor i).trans hc) with ⟨-, hsched⟩ | hs | hup
  · have hnext : ((boots env₀ dir rounds (n + 1)).table.svc i).state ≠ .pending := by
      refine supervisorPump_starts ?_ ?_ ?_ ?_ <;> rw [ht]
      · rw [hgs, hg]
        exact hw.congr hst.static
      · exact hlt
      · intro d hd _
        rw [(hst.static.entry i).2] at hd
        exact hn d hd
      · exact hsched
    obtain ⟨hst', -⟩ := boots_stage4 hacc env₀ rounds (n + 1)
    have hlt' : i < (boots env₀ dir rounds (n + 1)).table.count := hst'.static.count ▸ hi
    rcases hst'.progress i hlt' ((hst'.static.isCompositor i).trans hc) with ⟨hp, -⟩ | hs | hup
    · exact absurd hp hnext
    · exact settles_of_starting hclock hlt' hs
    · exact settles_of_up hup
  · exact settles_of_starting hclock hlt hs
  · exact settles_of_up hup

end

theorem supervisorIsBootComplete_iff {t : Table} : supervisorIsBootComplete t = true ↔
    ∀ i < t.count, (t.svc i).state = .pending ∨ (t.svc i).state = .starting →
      ∃ d ∈ (t.svc i).depIndices, d < t.count ∧ (t.svc d).state = .stopped := by
  simp only [supervisorIsBootComplete, all_eq_true, mem_range, Bool.or_eq_true,
    Bool.not_eq_true', Bool.or_eq_false_iff, decide_eq_false_iff_not, any_eq_true,
    Bool.and_eq_true, decide_eq_true_eq]
  refine forall₂_congr fun i _ => ?_
  rw [← not_or, ← imp_iff_not_or]

/-- **When Stage 4 ends.**  In every boot of an accepted directory in which no child exits and the
clock advances, `supervisor_is_boot_complete` holds at some point exactly if every service from
which a chain of `after` lists leads to `lgp-compositor` lists it itself. -/
theorem bootComplete_iff {dir : List DirEntry} (hacc : Accepted dir) (env₀ : PumpEnv)
    {rounds : Nat → Round} (hclock : ClockAdvances rounds) :
    (∃ n, supervisorIsBootComplete (boots env₀ dir rounds n).table = true) ↔
      ∀ i, Blocked (loaded dir).table i →
        ∃ c, ((loaded dir).table.svc c).isCompositor = true ∧ (loaded dir).table.Waits i c := by
  have hw := wired_of_loaded hacc
  constructor
  · rintro ⟨n, hn⟩ i hb
    obtain ⟨hst, -⟩ := boots_stage4 hacc env₀ rounds n
    obtain ⟨d₀, hwait, -⟩ := hb.dep
    have hi : i < (boots env₀ dir rounds n).table.count := hst.static.count ▸ hwait.1
    obtain ⟨d, hd, hlt, hstopped⟩ := supervisorIsBootComplete_iff.1 hn i hi
      (.inl (hst.blocked i hi hb))
    refine ⟨d, ?_, (hw.deps i hwait.1 d).1 ((hst.static.entry i).2 ▸ hd)⟩
    rw [← hst.static.isCompositor d]
    by_contra hc
    rcases hst.progress d hlt (by simpa using hc) with ⟨hp, -⟩ | hs | hup
    · simp [hp] at hstopped
    · simp [hs] at hstopped
    · rcases Service.up_iff.1 hup with hup | hup <;> simp [hup] at hstopped
  · intro hdirect
    -- the services that must come up
    have hall : ∃ n, ∀ i < (loaded dir).table.count,
        ((loaded dir).table.svc i).isCompositor = false → ¬ Blocked (loaded dir).table i →
        ((boots env₀ dir rounds n).table.svc i).up = true := by
      classical
      have hsettle : ∀ i ∈ (range (loaded dir).table.count).filter fun i =>
          decide (((loaded dir).table.svc i).isCompositor = false ∧
            ¬ Blocked (loaded dir).table i), Settles dir env₀ rounds i := by
        intro i hi
        simp only [mem_filter, mem_range, decide_eq_true_eq] at hi
        exact settles hacc hclock hi.1 hi.2.1 hi.2.2
      obtain ⟨n, hn⟩ := settle_together hsettle
      exact ⟨n, fun i hi hc hb => hn i (by simp [hi, hc, hb])⟩
    obtain ⟨n, hn⟩ := hall
    refine ⟨n, supervisorIsBootComplete_iff.2 fun i hi hstate => ?_⟩
    obtain ⟨hst, -⟩ := boots_stage4 hacc env₀ rounds n
    have hi₀ : i < (loaded dir).table.count := hst.static.count ▸ hi
    have hnotup : ¬ ((boots env₀ dir rounds n).table.svc i).up = true := by
      rw [Service.up_iff]
      rcases hstate with hs | hs <;> simp [hs]
    have hb : Blocked (loaded dir).table i := by
      by_contra hb
      refine hnotup (hn i hi₀ ?_ hb)
      by_contra hc
      have hstopped := hst.compositor i hi ((hst.static.isCompositor i).trans (by simpa using hc))
      rcases hstate with hs | hs <;> simp [hs] at hstopped
    obtain ⟨c, hc, hwait⟩ := hdirect i hb
    have hlt : c < (boots env₀ dir rounds n).table.count := hst.static.count ▸ hwait.lt
    refine ⟨c, ?_, hlt, hst.compositor c hlt ((hst.static.isCompositor c).trans hc)⟩
    rw [(hst.static.entry i).2]
    exact (hw.deps i hi₀ c).2 hwait

/-! ## Boots -/

/-- Every 100 ms, with forks that succeed and probes that do not. -/
def sampleRounds (n : Nat) : Round := ⟨[], forkingEnv (100 * n) (n + 1)⟩

theorem sampleRounds_clock : ClockAdvances sampleRounds := by
  intro T
  refine ⟨T.toNat, fun m hm => ?_⟩
  simp only [sampleRounds, forkingEnv]
  omega

/-- `luna-shell` waits for `lgp-compositor`. -/
def sampleShell : List DirEntry :=
  [⟨"lgp-compositor.toml", some { name := "lgp-compositor", binary := "/usr/bin/lgp-compositor" }⟩,
    ⟨"luna-shell.toml", some
      { name := "luna-shell", binary := "/usr/bin/luna-shell", after := ["lgp-compositor"] }⟩]

/-- The one service that waits for `lgp-compositor` lists it, so Stage 4 ends. -/
theorem bootComplete_iff_sample : ∃ n,
    supervisorIsBootComplete (boots (forkingEnv 0 1) sampleShell sampleRounds n).table = true := by
  refine (bootComplete_iff (by decide +kernel) _ sampleRounds_clock).2 fun i hb => ?_
  obtain ⟨d, hwait, -⟩ := hb.dep
  obtain rfl : i = 1 := by
    have hlt : i < 2 := hwait.1
    have hcomp : i ≠ 0 := by
      rintro rfl
      exact absurd hb.1 (by decide +kernel)
    omega
  exact ⟨0, by decide +kernel, hwait.1, "lgp-compositor", by decide +kernel, by decide +kernel⟩

/-- `luna-island` waits for `luna-shell`, which waits for `lgp-compositor`. -/
def sampleChain : List DirEntry :=
  sampleShell ++ [⟨"luna-island.toml", some
    { name := "luna-island", binary := "/usr/bin/luna-island", after := ["luna-shell"] }⟩]

/-- Nothing that `luna-island` lists is ever `STOPPED`: Stage 4 does not end. -/
theorem boot_never_completes :
    Accepted sampleChain ∧ ClockAdvances sampleRounds ∧
    ∀ n, supervisorIsBootComplete (boots (forkingEnv 0 1) sampleChain sampleRounds n).table =
      false := by
  have hacc : Accepted sampleChain := by decide +kernel
  have hshell : (loaded sampleChain).table.Waits 1 0 :=
    ⟨by decide +kernel, "lgp-compositor", by decide +kernel, by decide +kernel⟩
  have hisland : (loaded sampleChain).table.Waits 2 1 :=
    ⟨by decide +kernel, "luna-shell", by decide +kernel, by decide +kernel⟩
  have hb : Blocked (loaded sampleChain).table 2 :=
    ⟨by decide +kernel, 0, by decide +kernel, .head hisland (.single hshell)⟩
  refine ⟨hacc, sampleRounds_clock, fun n => ?_⟩
  obtain ⟨hst, -⟩ := boots_stage4 hacc (forkingEnv 0 1) sampleRounds n
  have hcount : (boots (forkingEnv 0 1) sampleChain sampleRounds n).table.count = 3 :=
    hst.static.count.trans (by decide +kernel)
  by_contra hn
  rw [Bool.not_eq_false, supervisorIsBootComplete_iff] at hn
  obtain ⟨d, hd, -, hstopped⟩ := hn 2 (by omega) (.inl (hst.blocked 2 (by omega) hb))
  have hdeps : ((loaded sampleChain).table.svc 2).depIndices = [1] := by decide +kernel
  rw [(hst.static.entry 2).2, hdeps, mem_singleton] at hd
  subst hd
  -- `luna-shell` is blocked as well, so it is `PENDING`
  have hb₁ : Blocked (loaded sampleChain).table 1 :=
    ⟨by decide +kernel, 0, by decide +kernel, .single hshell⟩
  rw [hst.blocked 1 (by omega) hb₁] at hstopped
  cases hstopped

end LunaInit
