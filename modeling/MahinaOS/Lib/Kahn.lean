import Mathlib.Data.Finset.Card
import Mathlib.Data.Finset.Range
import Mathlib.Data.Fintype.EquivFin
import Mathlib.Data.List.Range

/-!
# Kahn's algorithm

A directed graph on the nodes `0, …, n - 1` is given by its edge matrix and its in-degrees.  Kahn's
algorithm emits a node once all its predecessors are emitted: it keeps a queue of the nodes whose
remaining in-degree is zero, and emitting one lowers the in-degree of its successors.

`sort n edge indeg` is the list of emitted nodes.  It is correct for every graph, acyclic or not:

* `sort_nodup`, `sort_lt`: the emitted nodes are distinct nodes of the graph;
* **`sort_ordered`**: every predecessor of an emitted node is emitted before it;
* `mem_sort`: if as many nodes are emitted as there are, then all are;
* **`length_sort_iff`**: as many nodes are emitted as there are exactly if the graph has no cycle;
* `rounds_enqueued_le`: at no time have more nodes been enqueued than there are.

The invariant of the loop is `Inv`; it is kept by one round (`Inv.next`).  `rounds` is the loop
round by round, without a bound on the number of rounds.
-/

namespace Kahn

open List Function

/-- In the list, everything that is related to an element stands before it. -/
def Ordered (r : Nat → Nat → Prop) (l : List Nat) : Prop :=
  ∀ l₁ j l₂, l = l₁ ++ j :: l₂ → ∀ i, r i j → i ∈ l₁

theorem ordered_nil (r : Nat → Nat → Prop) : Ordered r [] := by
  intro l₁ j l₂ h
  simp at h

variable {r : Nat → Nat → Prop} {l : List Nat} {j : Nat}

theorem Ordered.concat (h : Ordered r l) (hj : ∀ i, r i j → i ∈ l) : Ordered r (l ++ [j]) := by
  intro l₁ a l₂ hl i hi
  rcases eq_nil_or_concat l₂ with rfl | ⟨l₂, b, rfl⟩
  · obtain ⟨rfl, hja⟩ := append_inj' hl rfl
    rw [cons.injEq] at hja
    exact hj i (hja.1 ▸ hi)
  · have hl' : l ++ [j] = (l₁ ++ a :: l₂) ++ [b] := by simpa using hl
    exact h l₁ a l₂ (append_inj' hl' rfl).1 i hi

theorem Ordered.of_concat (h : Ordered r (l ++ [j])) : Ordered r l ∧ ∀ i, r i j → i ∈ l :=
  ⟨fun l₁ a l₂ hl i hi => h l₁ a (l₂ ++ [j]) (by simp [hl]) i hi, fun i hi => h l j [] rfl i hi⟩

/-- No element of an ordered list is a predecessor of an earlier one. -/
theorem Ordered.not_of_mem {l₂ : List Nat} {i : Nat} (h : Ordered r (l ++ j :: l₂))
    (hnodup : (l ++ j :: l₂).Nodup) (hi : i ∈ l) : ¬ r j i := by
  intro hji
  obtain ⟨a, b, rfl⟩ := append_of_mem hi
  have hj : j ∈ a := h a i (b ++ j :: l₂) (by simp) j hji
  exact (nodup_append.1 hnodup).2.2 j (by simp [hj]) j mem_cons_self rfl

/-- Induction along an ordered list: a property that passes from the predecessors of an element to
the element holds of all elements. -/
theorem Ordered.induct {P : Nat → Prop} (h : Ordered r l)
    (hstep : ∀ j ∈ l, (∀ i, r i j → P i) → P j) : ∀ j ∈ l, P j := by
  induction l using reverseRecOn with
  | nil => simp
  | append_singleton l a ih =>
    obtain ⟨hl, ha⟩ := h.of_concat
    have hinit := ih hl fun j hj => hstep j (mem_append_left _ hj)
    intro j hj
    rcases mem_append.1 hj with hj | hj
    · exact hinit j hj
    · obtain rfl := mem_singleton.1 hj
      exact hstep j (by simp) fun i hi => hinit i (ha i hi)

/-- Lower the in-degree of `j` if there is an edge to it, and enqueue it when that makes it zero. -/
def relax (edge : Nat → Nat → Bool) (node : Nat) (st : (Nat → Int) × List Nat) (j : Nat) :
    (Nat → Int) × List Nat :=
  if edge node j then
    let d := st.1 j - 1
    (update st.1 j d, if d = 0 then st.2 ++ [j] else st.2)
  else st

/-- The main loop: emit the first node of the queue and relax its successors.  Every round emits a
node, so `n` rounds are enough. -/
def loop (n : Nat) (edge : Nat → Nat → Bool) :
    Nat → (Nat → Int) → List Nat → List Nat → List Nat
  | 0, _, _, out => out
  | _ + 1, _, [], out => out
  | fuel + 1, indeg, node :: queue, out =>
    let st := (range n).foldl (relax edge node) (indeg, queue)
    loop n edge fuel st.1 st.2 (out ++ [node])

def sources (n : Nat) (indeg : Nat → Int) : List Nat := (range n).filter (indeg · = 0)

def sort (n : Nat) (edge : Nat → Nat → Bool) (indeg : Nat → Int) : List Nat :=
  loop n edge n indeg (sources n indeg) []

/-! ## One round -/

variable {n : Nat} {edge : Nat → Nat → Bool} {indeg : Nat → Int} {queue out : List Nat} {node : Nat}

theorem foldl_relax {js : List Nat} (hjs : js.Nodup) :
    js.foldl (relax edge node) (indeg, queue) =
      (fun j => if j ∈ js ∧ edge node j = true then indeg j - 1 else indeg j,
        queue ++ js.filter fun j => edge node j && decide (indeg j = 1)) := by
  induction js generalizing indeg queue with
  | nil => simp
  | cons j js ih =>
    rw [nodup_cons] at hjs
    rw [foldl_cons, relax]
    by_cases hj : edge node j = true
    · simp only [hj, if_true]
      rw [ih hjs.2]
      refine Prod.ext (funext fun k => ?_) ?_
      · rcases eq_or_ne k j with rfl | hk
        · simp [hjs.1, hj]
        · simp [hk]
      · have hrest : js.filter (fun k => edge node k &&
            decide (update indeg j (indeg j - 1) k = 1)) =
            js.filter fun k => edge node k && decide (indeg k = 1) :=
          filter_congr fun k hk => by
            rw [update_of_ne (ne_of_mem_of_not_mem hk hjs.1)]
        rw [hrest]
        by_cases h1 : indeg j = 1
        · simp [hj, h1]
        · have h0 : indeg j - 1 ≠ 0 := by omega
          simp [hj, h1, h0]
    · rw [if_neg hj, ih hjs.2]
      refine Prod.ext (funext fun k => ?_) ?_
      · rcases eq_or_ne k j with rfl | hk
        · simp [hj]
        · simp [hk]
      · simp [hj]

/-- The predecessors of `j` that are not emitted yet. -/
def waiting (n : Nat) (edge : Nat → Nat → Bool) (out : List Nat) (j : Nat) : Finset Nat :=
  (Finset.range n).filter fun i => edge i j = true ∧ i ∉ out

theorem waiting_concat : waiting n edge (out ++ [node]) j = (waiting n edge out j).erase node := by
  ext i
  simp only [waiting, Finset.mem_filter, mem_append, mem_singleton, Finset.mem_erase]
  tauto

/-- The invariant of the loop: in-degrees count the predecessors still to come, and the nodes
without any are the emitted and the queued ones. -/
structure Inv (n : Nat) (edge : Nat → Nat → Bool) (indeg : Nat → Int) (queue out : List Nat) :
    Prop where
  nodup : (out ++ queue).Nodup
  lt : ∀ j ∈ out ++ queue, j < n
  count : ∀ j < n, indeg j = (waiting n edge out j).card
  zero : ∀ j < n, j ∈ out ++ queue ↔ indeg j = 0
  ordered : Ordered (fun i j => i < n ∧ edge i j = true) out

theorem Inv.pred_mem (h : Inv n edge indeg queue out) (hj : j < n) (h0 : indeg j = 0) {i : Nat}
    (hi : i < n) (he : edge i j = true) : i ∈ out := by
  rw [h.count j hj, Int.natCast_eq_zero, Finset.card_eq_zero] at h0
  by_contra hout
  have hmem : i ∈ waiting n edge out j :=
    Finset.mem_filter.2 ⟨Finset.mem_range.2 hi, he, hout⟩
  rw [h0] at hmem
  exact absurd hmem (Finset.notMem_empty i)

theorem Inv.next (h : Inv n edge indeg (node :: queue) out) :
    Inv n edge ((range n).foldl (relax edge node) (indeg, queue)).1
      ((range n).foldl (relax edge node) (indeg, queue)).2 (out ++ [node]) := by
  rw [foldl_relax nodup_range]
  have hnode : node < n := h.lt node (by simp)
  have hnout : node ∉ out := by
    have hnd := h.nodup
    simp only [nodup_append] at hnd
    exact fun hmem => hnd.2.2 node hmem node mem_cons_self rfl
  have happ : ∀ l : List Nat, out ++ [node] ++ (queue ++ l) = (out ++ node :: queue) ++ l := by
    simp
  -- a node that joins the queue still had one predecessor, so it is new there
  have hnew : ∀ j ∈ (range n).filter (fun j => edge node j && decide (indeg j = 1)),
      j < n ∧ edge node j = true ∧ indeg j = 1 := fun j hj => by
    simpa using hj
  have hcount : ∀ j < n, (if j ∈ range n ∧ edge node j = true then indeg j - 1 else indeg j) =
        ((waiting n edge (out ++ [node]) j).card : Int) := by
    intro j hj
    rw [waiting_concat, h.count j hj]
    by_cases he : edge node j = true
    · have hmem : node ∈ waiting n edge out j :=
        Finset.mem_filter.2 ⟨Finset.mem_range.2 hnode, he, hnout⟩
      have hpos := Finset.card_pos.2 ⟨node, hmem⟩
      rw [if_pos ⟨mem_range.2 hj, he⟩, Finset.card_erase_of_mem hmem]
      omega
    · have hmem : node ∉ waiting n edge out j := fun hm => he (Finset.mem_filter.1 hm).2.1
      rw [if_neg fun hc => he hc.2, Finset.erase_eq_of_notMem hmem]
  refine ⟨?_, ?_, hcount, ?_, ?_⟩
  · rw [happ, nodup_append]
    refine ⟨h.nodup, nodup_range.filter _, fun i hi j hj hij => ?_⟩
    obtain ⟨hjn, -, h1⟩ := hnew j hj
    have h0 := (h.zero j hjn).1 (hij ▸ hi)
    omega
  · rw [happ]
    intro j hj
    rcases mem_append.1 hj with hj | hj
    · exact h.lt j hj
    · exact (hnew j hj).1
  · intro j hj
    dsimp only
    rw [happ, mem_append, h.zero j hj]
    by_cases he : edge node j = true
    · -- the edge from `node` is counted in the in-degree of `j`
      have hpos : indeg j ≠ 0 := fun h0 => hnout (h.pred_mem hj h0 hnode he)
      rw [if_pos ⟨mem_range.2 hj, he⟩]
      simp only [mem_filter, mem_range, hj, he, Bool.true_and, true_and, decide_eq_true_eq]
      omega
    · simp [he]
  · refine h.ordered.concat ?_
    rintro i ⟨hi, he⟩
    exact h.pred_mem hnode ((h.zero node hnode).1 (by simp)) hi he

/-! ## The whole run -/

/-- The local variables of the loop. -/
structure State where
  indeg : Nat → Int
  queue : List Nat
  out : List Nat

/-- The nodes enqueued so far: those emitted and those still waiting. -/
def State.enqueued (st : State) : List Nat := st.out ++ st.queue

/-- One round.  Nothing happens any more once the queue is empty. -/
def State.next (n : Nat) (edge : Nat → Nat → Bool) (st : State) : State :=
  match st.queue with
  | [] => st
  | node :: queue =>
    let r := (range n).foldl (relax edge node) (st.indeg, queue)
    ⟨r.1, r.2, st.out ++ [node]⟩

/-- The variables after `k` rounds. -/
def rounds (n : Nat) (edge : Nat → Nat → Bool) (indeg : Nat → Int) (k : Nat) : State :=
  (State.next n edge)^[k] ⟨indeg, sources n indeg, []⟩

theorem loop_eq_iterate (fuel : Nat) (st : State) :
    loop n edge fuel st.indeg st.queue st.out = ((State.next n edge)^[fuel] st).out := by
  induction fuel generalizing st with
  | zero => rfl
  | succ fuel ih =>
    obtain ⟨indeg, queue, out⟩ := st
    rw [iterate_succ_apply]
    rcases queue with - | ⟨node, queue⟩
    · have hdone : ∀ k, (State.next n edge)^[k] ⟨indeg, [], out⟩ = ⟨indeg, [], out⟩ :=
        fun k => iterate_fixed rfl k
      rw [show State.next n edge ⟨indeg, [], out⟩ = ⟨indeg, [], out⟩ from rfl, hdone]
      rfl
    · exact ih (.next n edge ⟨indeg, node :: queue, out⟩)

theorem loop_lt {fuel : Nat} (h : ∀ j ∈ out ++ queue, j < n)
    (hj : j ∈ loop n edge fuel indeg queue out) : j < n := by
  induction fuel generalizing indeg queue out with
  | zero => exact h j (mem_append_left _ hj)
  | succ fuel ih =>
    rcases queue with - | ⟨node, queue⟩
    · exact h j (mem_append_left _ hj)
    · refine ih ?_ hj
      rw [foldl_relax nodup_range]
      intro k hk
      simp only [mem_append, mem_singleton, mem_filter, mem_range] at hk
      rcases hk with (hk | rfl) | hk | hk
      · exact h k (mem_append_left _ hk)
      · exact h k (by simp)
      · exact h k (by simp [hk])
      · exact hk.1

theorem sort_lt (hj : j ∈ sort n edge indeg) : j < n := by
  refine loop_lt (fun k hk => ?_) hj
  rw [nil_append, sources, mem_filter, mem_range] at hk
  exact hk.1

/-- The in-degrees that are given count the edges of the graph. -/
def Counts (n : Nat) (edge : Nat → Nat → Bool) (indeg : Nat → Int) : Prop :=
  ∀ j < n, indeg j = ((Finset.range n).filter fun i => edge i j = true).card

theorem Inv.start (h : Counts n edge indeg) : Inv n edge indeg (sources n indeg) [] where
  nodup := nodup_range.filter _
  lt j hj := by
    simp only [sources, nil_append, mem_filter, mem_range] at hj
    exact hj.1
  count j hj := by simpa [waiting] using h j hj
  zero j hj := by simp [sources, hj]
  ordered := ordered_nil _

theorem rounds_succ (k : Nat) :
    rounds n edge indeg (k + 1) = State.next n edge (rounds n edge indeg k) :=
  iterate_succ_apply' ..

theorem Inv.rounds (h : Counts n edge indeg) (k : Nat) :
    Inv n edge (rounds n edge indeg k).indeg (rounds n edge indeg k).queue
      (rounds n edge indeg k).out := by
  induction k with
  | zero => exact Inv.start h
  | succ k ih =>
    rw [rounds_succ]
    generalize Kahn.rounds n edge indeg k = st at ih
    obtain ⟨indeg, queue, out⟩ := st
    rcases queue with - | ⟨node, queue⟩
    · exact ih
    · exact ih.next

theorem Inv.length_le (h : Inv n edge indeg queue out) : (out ++ queue).length ≤ n := by
  have hsub : (out ++ queue).toFinset ⊆ Finset.range n := fun i hi =>
    Finset.mem_range.2 (h.lt i (mem_toFinset.1 hi))
  have hcard := Finset.card_le_card hsub
  rwa [toFinset_card_of_nodup h.nodup, Finset.card_range] at hcard

/-- Every round emits a node, until the queue is empty. -/
theorem length_rounds (n : Nat) (edge : Nat → Nat → Bool) (indeg : Nat → Int) (k : Nat) :
    (rounds n edge indeg k).queue = [] ∨ (rounds n edge indeg k).out.length = k := by
  induction k with
  | zero => exact .inr rfl
  | succ k ih =>
    rw [rounds_succ]
    generalize rounds n edge indeg k = st at ih
    obtain ⟨indeg, queue, out⟩ := st
    rcases queue with - | ⟨node, queue⟩
    · exact .inl rfl
    · right
      simpa [State.next] using ih.resolve_left (by simp)

section

variable (h : Counts n edge indeg)
include h

/-- **At no time have more nodes been enqueued than there are.** -/
theorem rounds_enqueued_le (k : Nat) : (rounds n edge indeg k).enqueued.length ≤ n :=
  (Inv.rounds h k).length_le

/-- The loop is through after `n` rounds. -/
theorem rounds_queue : (rounds n edge indeg n).queue = [] := by
  rcases length_rounds n edge indeg n with hq | hlen
  · exact hq
  · have hle := rounds_enqueued_le h n
    rw [State.enqueued, length_append, hlen] at hle
    exact eq_nil_of_length_eq_zero (by omega)

/-- The invariant at the end: nothing is waiting in the queue. -/
theorem sort_inv : ∃ indeg', Inv n edge indeg' [] (sort n edge indeg) := by
  have hinv := Inv.rounds h n
  rw [rounds_queue h, rounds, ← loop_eq_iterate] at hinv
  exact ⟨_, hinv⟩

theorem sort_nodup : (sort n edge indeg).Nodup := by
  obtain ⟨_, hi⟩ := sort_inv h
  exact (nodup_append.1 hi.nodup).1

/-- **Every predecessor of an emitted node is emitted before it.** -/
theorem sort_ordered : Ordered (fun i j => i < n ∧ edge i j = true) (sort n edge indeg) := by
  obtain ⟨_, hi⟩ := sort_inv h
  exact hi.ordered

/-- If as many nodes are emitted as there are, all are. -/
theorem mem_sort (hlen : (sort n edge indeg).length = n) {j : Nat} (hj : j < n) :
    j ∈ sort n edge indeg := by
  have hsub : (sort n edge indeg).toFinset ⊆ Finset.range n := fun i hi =>
    Finset.mem_range.2 (sort_lt (mem_toFinset.1 hi))
  have hcard : (sort n edge indeg).toFinset.card = (Finset.range n).card := by
    rw [toFinset_card_of_nodup (sort_nodup h), hlen, Finset.card_range]
  have heq := Finset.eq_of_subset_of_card_le hsub hcard.ge
  exact mem_toFinset.1 (heq ▸ Finset.mem_range.2 hj)

/-- An edge between nodes of the graph. -/
def Edge (n : Nat) (edge : Nat → Nat → Bool) (i j : Nat) : Prop := i < n ∧ j < n ∧ edge i j = true

omit h in
/-- The nodes of an acyclic graph can be counted down along its edges. -/
theorem wellFounded_edge (hacyclic : ∀ i, ¬Relation.TransGen (Edge n edge) i i) :
    WellFounded fun i j : Fin n => edge i j = true := by
  let r : Fin n → Fin n → Prop := fun i j => edge i j = true
  have hirrefl : ∀ i : Fin n, ¬Relation.TransGen r i i := fun i hi =>
    hacyclic i (hi.lift Fin.val fun a b hab => ⟨a.2, b.2, hab⟩)
  have : Std.Irrefl (Relation.TransGen r) := ⟨hirrefl⟩
  have hwf : WellFounded (Relation.TransGen r) := Finite.wellFounded_of_trans_of_irrefl _
  have hsub : Subrelation r (Relation.TransGen r) := .single
  exact hsub.wf hwf

/-- **All nodes are emitted exactly if the graph has no cycle.** -/
theorem length_sort_iff :
    (sort n edge indeg).length = n ↔ ∀ i, ¬Relation.TransGen (Edge n edge) i i := by
  constructor
  · intro hlen
    -- a cycle through a node also goes through the predecessor by which it returns
    have hemitted : ∀ j ∈ sort n edge indeg, ¬Relation.TransGen (Edge n edge) j j := by
      refine (sort_ordered h).induct fun j _ ih hj => ?_
      obtain ⟨i, hji, hij⟩ := Relation.TransGen.tail'_iff.1 hj
      exact ih i ⟨hij.1, hij.2.2⟩ (.head' hij hji)
    intro j hj
    obtain ⟨i, -, hij⟩ := Relation.TransGen.tail'_iff.1 hj
    exact hemitted j (mem_sort h hlen hij.2.1) hj
  · intro hacyclic
    obtain ⟨indeg', hinv⟩ := sort_inv h
    -- otherwise some node is left, and below it one whose predecessors are all emitted
    have hall : ∀ j : Fin n, (j : Nat) ∈ sort n edge indeg := by
      intro j
      induction j using (wellFounded_edge hacyclic).induction with
      | _ j ih =>
        have hwait : waiting n edge (sort n edge indeg) j = ∅ := by
          rw [waiting, Finset.filter_eq_empty_iff]
          rintro i hi ⟨he, hout⟩
          exact hout (ih ⟨i, Finset.mem_range.1 hi⟩ he)
        have hzero : indeg' j = 0 := by rw [hinv.count j j.2, hwait]; rfl
        have hmem := (hinv.zero j j.2).2 hzero
        rwa [append_nil] at hmem
    have hsub : Finset.range n ⊆ (sort n edge indeg).toFinset := fun i hi =>
      mem_toFinset.2 (hall ⟨i, Finset.mem_range.1 hi⟩)
    have hcard := Finset.card_le_card hsub
    rw [Finset.card_range, toFinset_card_of_nodup (sort_nodup h)] at hcard
    have hle := hinv.length_le
    rw [append_nil] at hle
    omega

end

end Kahn
