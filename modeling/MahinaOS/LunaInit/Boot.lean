import Mathlib.Logic.Relation
import MahinaOS.LunaInit.Supervisor

/-!
# luna-init: the table at the start of Stage 4

Stage 4 loads the service directory, builds the graph and calls `supervisor_start_all`.  This file
collects what the later stages rely on, in terms of the table alone.

* `Table.Precedes` is the order that the `after` and `before` lists declare, and `Table.Waits` the
  part of it that comes from `after`.
* `Wired` ties the supervisor's data to them: the edges are the declared order, the resolved
  dependencies are the `after` lists, and the start order is a topological order of all services
  (`wired_of_loaded`).  It is not touched by anything the supervisor does later (`Wired.congr`).
* `Static` says that two tables differ in runtime state only.
-/

namespace LunaInit

/-- `i` waits for `d`: it lists it in `after`. -/
def Table.Waits (t : Table) (i d : Nat) : Prop :=
  i < t.count ∧ ∃ name ∈ (t.svc i).after, serviceFind t name = some d

/-- `i` lists `j` in `before`. -/
def Table.ListsBefore (t : Table) (i j : Nat) : Prop :=
  i < t.count ∧ ∃ name ∈ (t.svc i).before, serviceFind t name = some j

/-- `i` is to be started before `j`. -/
def Table.Precedes (t : Table) (i j : Nat) : Prop := t.Waits j i ∨ t.ListsBefore i j

instance (t : Table) (i d : Nat) : Decidable (t.Waits i d) :=
  inferInstanceAs (Decidable (_ ∧ ∃ name ∈ (t.svc i).after, _))

instance (t : Table) (i j : Nat) : Decidable (t.ListsBefore i j) :=
  inferInstanceAs (Decidable (_ ∧ ∃ name ∈ (t.svc i).before, _))

instance (t : Table) (i j : Nat) : Decidable (t.Precedes i j) := inferInstanceAs (Decidable (_ ∨ _))

variable {i : Nat} {dir : List DirEntry} {sup : Supervisor}

theorem Table.Waits.lt {t : Table} {d : Nat} (h : t.Waits i d) : d < t.count := by
  obtain ⟨-, name, -, hf⟩ := h
  exact (serviceFind_eq_some hf).1

/-! ## Tables that differ in runtime state only -/

/-- The declarations and the resolved dependencies are the same. -/
structure Static (t t' : Table) : Prop where
  count : t'.count = t.count
  entry : ∀ i, (t'.svc i).toServiceDef = (t.svc i).toServiceDef ∧
    (t'.svc i).depIndices = (t.svc i).depIndices

section

variable {t t' t'' : Table}

theorem Static.refl (t : Table) : Static t t := ⟨rfl, fun _ => ⟨rfl, rfl⟩⟩

section

variable (h : Static t t')

include h

theorem Static.trans (h' : Static t' t'') : Static t t'' :=
  ⟨h'.count.trans h.count, fun i =>
    ⟨(h'.entry i).1.trans (h.entry i).1, (h'.entry i).2.trans (h.entry i).2⟩⟩

theorem Static.isCompositor (i : Nat) : (t'.svc i).isCompositor = (t.svc i).isCompositor := by
  unfold Service.isCompositor
  rw [(h.entry i).1]

theorem Static.serviceFind (name : String) : serviceFind t' name = serviceFind t name :=
  serviceFind_congr h.count (fun i => congrArg ServiceDef.name (h.entry i).1) name

theorem Static.waits {i d : Nat} : t'.Waits i d ↔ t.Waits i d := by
  simp only [Table.Waits, h.count, h.serviceFind, (h.entry i).1]

theorem Static.listsBefore {i j : Nat} : t'.ListsBefore i j ↔ t.ListsBefore i j := by
  simp only [Table.ListsBefore, h.count, h.serviceFind, (h.entry i).1]

theorem Static.set {i : Nat} {s : Service}
    (hs : s.toServiceDef = (t'.svc i).toServiceDef ∧ s.depIndices = (t'.svc i).depIndices) :
    Static t (t'.set i s) :=
  ⟨h.count, fun j => Table.set_svc_elim
    (P := fun j s => s.toServiceDef = (t.svc j).toServiceDef ∧ s.depIndices = (t.svc j).depIndices)
    (fun _ => ⟨hs.1.trans (h.entry i).1, hs.2.trans (h.entry i).2⟩) fun _ => h.entry j⟩

end

end

theorem pollReadiness_static (env : PumpEnv) (sup : Supervisor) :
    Static sup.table (pollReadiness env sup) :=
  ⟨rfl, fun i => (pollReadiness_advance i).static⟩

theorem Service.exited_static (s : Service) (e : ChildExit) :
    (s.exited e).toServiceDef = s.toServiceDef ∧ (s.exited e).depIndices = s.depIndices := by
  unfold Service.exited
  dsimp only
  split
  · exact ⟨rfl, rfl⟩
  · split
    · exact ⟨rfl, rfl⟩
    · split <;> exact ⟨rfl, rfl⟩

/-! ## The start order -/

/-- The graph and the resolved dependencies are those that the table declares. -/
structure Wired (t : Table) (g : Graph) : Prop where
  deps : ∀ i < t.count, ∀ d, d ∈ (t.svc i).depIndices ↔ t.Waits i d
  order : ∃ order, depgraphTopoSort t.count g = some order ∧ Kahn.Ordered t.Precedes order ∧
    order.Nodup ∧ ∀ i < t.count, i ∈ order

theorem Wired.congr {t t' : Table} {g : Graph} (h : Wired t g) (hs : Static t t') : Wired t' g := by
  have hprec : t'.Precedes = t.Precedes := by
    funext i j
    exact propext (or_congr hs.waits hs.listsBefore)
  refine ⟨fun i hi d => ?_, ?_⟩
  · rw [(hs.entry i).2, hs.waits]
    exact h.deps i (hs.count ▸ hi) d
  · rw [hs.count, hprec]
    exact h.order

theorem Built.wired {t t' : Table} {g : Graph} (h : Built t t' g) : Wired t' g := by
  have hedge : ∀ i j, t'.Precedes i j ↔ g.edge i j = true := by
    intro i j
    obtain ⟨b, -, rfl, -⟩ := h.resolved
    rw [depgraphBuild_edge h]
    exact .rfl
  have hcounts := h.counted.counts
  obtain ⟨hsort, hlen⟩ := h.topoSort
  refine ⟨fun i hi d => ?_, _, h.count ▸ hsort, ?_, Kahn.sort_nodup hcounts, fun i hi => ?_⟩
  · rw [h.count] at hi
    rw [depgraphBuild_depIndices h hi, List.mem_filterMap]
    obtain ⟨b, -, rfl, -⟩ := h.resolved
    exact ⟨fun hd => ⟨hi, hd⟩, fun hd => hd.2⟩
  · intro l₁ j l₂ hl i hij
    have he := (hedge i j).1 hij
    exact Kahn.sort_ordered hcounts l₁ j l₂ hl i ⟨(h.counted.lt i j he).1, he⟩
  · exact Kahn.mem_sort hcounts hlen (h.count ▸ hi)

/-- What Stage 4 starts from: the directory is loaded into the empty table. -/
def loaded (dir : List DirEntry) : Supervisor := (loadServices (some dir) Supervisor.zero).1

/-- `depgraph_build` accepted the directory: every name resolves and there is no cycle. -/
def Accepted (dir : List DirEntry) : Prop := (loadServices (some dir) Supervisor.zero).2 = .ok ()

instance (dir : List DirEntry) : Decidable (Accepted dir) :=
  match h : (loadServices (some dir) Supervisor.zero).2 with
  | .ok () => .isTrue h
  | .error _ => .isFalse fun hc => by
    unfold Accepted at hc
    rw [h] at hc
    cases hc

theorem wired_of_loaded (h : Accepted dir) : Wired (loaded dir).table (loaded dir).graph :=
  Built.wired (t := serviceLoadAll (some dir) .zero) (Prod.ext rfl (Prod.ext rfl h))

/-- Nothing has happened to the entries of a table that has just been loaded. -/
theorem loadServices_untouched (hi : i < (loadServices (some dir) sup).1.table.count) :
    ((loadServices (some dir) sup).1.table.svc i).Untouched := by
  obtain ⟨d, hd⟩ := serviceLoadAll_fresh dir sup.table i hi
  have hfresh : ((serviceLoadAll (some dir) sup.table).svc i).Untouched := by
    rw [hd]
    exact ServiceDef.fresh_untouched
  exact hfresh

/-! ## Entering Stage 4 -/

/-- The table as `supervisor_start_all` leaves it to its first pump. -/
def marked (sup : Supervisor) : Supervisor :=
  { sup with
    table := { sup.table with
      svc := fun i =>
        if i < sup.table.count then (sup.table.svc i).startAll else sup.table.svc i } }

theorem marked_static : Static sup.table (marked sup).table := by
  refine ⟨rfl, fun i => ?_⟩
  simp only [marked]
  split
  · unfold Service.startAll
    split
    · exact ⟨rfl, rfl⟩
    · split <;> exact ⟨rfl, rfl⟩
  · exact ⟨rfl, rfl⟩

/-- At the start of Stage 4 `lgp-compositor` is `STOPPED` and every other service `PENDING`, and
nothing has been spawned. -/
theorem marked_loaded (hi : i < (loaded dir).table.count) :
    let s := (marked (loaded dir)).table.svc i
    s.pid = 0 ∧ s.restartCount = 0 ∧ s.scheduledStartMs = 0 ∧
      s.state = if s.isCompositor then .stopped else .pending := by
  obtain ⟨hstate, hpid, hrestart⟩ : ((loaded dir).table.svc i).Untouched :=
    loadServices_untouched hi
  simp only [marked, if_pos hi, Service.startAll]
  split
  · next hc =>
    refine ⟨hpid, hrestart, rfl, ?_⟩
    rw [if_pos (by exact hc)]
  · next hc =>
    rw [if_pos (by simp [hstate])]
    refine ⟨hpid, hrestart, rfl, ?_⟩
    rw [if_neg (by exact hc)]

end LunaInit
