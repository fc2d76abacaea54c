import MahinaOS.Lib.Kahn
import MahinaOS.LunaInit.Service

/-!
# luna-init: the dependency graph

`depgraph_build` turns the names in `after` and `before` into indices and fills the edge matrix and
the in-degrees; `depgraph_topo_sort` is Kahn's algorithm on them.  The two nested loops of
`depgraph_build` are one pass over the list of their iterations, `declarations`, which stops at the
first name that does not resolve.  What was written until then stays: the reload ignores the return
value.

* `depgraphBuild_counts`: after any build, successful or not, the in-degrees count the edges, so
  everything the library proves about Kahn's algorithm applies.
* `depgraphBuild_edge`: after a successful build there is an edge from `i` to `j` exactly if `i` is
  named in the `after` of `j` or `j` in the `before` of `i`.
* **`depgraphBuild_depIndices`**: the indices that the supervisor waits for are those of the `after`
  list only.  `depgraphBuild_deps` is what is left of this when the build fails halfway: they are
  edges for the services that the loops came to, and as before for the others.
* **`depgraphBuild_correct`**: when the build succeeds, and that the order is then a start order.
-/

namespace LunaInit

open List Function

variable {j i : Nat}

/-- `g_edge` and `g_indegree`. -/
structure Graph where
  edge : Nat → Nat → Bool
  indegree : Nat → Int

def Graph.empty : Graph := ⟨fun _ _ => false, fun _ => 0⟩

/-- Set `g_edge[i][j]` and count it, unless it is set already. -/
def Graph.addEdge (g : Graph) (i j : Nat) : Graph :=
  if g.edge i j then g
  else
    { edge := fun a b => decide (a = i ∧ b = j) || g.edge a b
      indegree := update g.indegree j (g.indegree j + 1) }

/-- Why `depgraph_build` fails.  `overrun` is a list longer than its array of eight names: the loop
bound is the declared count, so the loop reads past the array. -/
inductive BuildError
  | missingAfter (service dependency : String)
  | missingBefore (service target : String)
  | overrun (service : String)
  | cycle
  deriving DecidableEq, Repr

/-- One iteration of the loops of `depgraph_build`. -/
inductive Decl
  | service (i : Nat)
  | after (i : Nat) (name : String)
  | before (i : Nat) (name : String)
  | overrun (i : Nat)

/-- The iterations for the names of one list. -/
def declNames (i : Nat) (mk : Nat → String → Decl) (names : List String) : List Decl :=
  (names.take serviceMaxDeps).map (mk i) ++
    if names.length > serviceMaxDeps then [.overrun i] else []

/-- The iterations for service `i`. -/
def declarationsOf (t : Table) (i : Nat) : List Decl :=
  .service i :: (declNames i .after (t.svc i).after ++ declNames i .before (t.svc i).before)

def declarations (t : Table) : List Decl := (range t.count).flatMap (declarationsOf t)

/-- What `depgraph_build` writes: the `dep_indices` of the services, and the graph. -/
structure Build where
  deps : Nat → List Nat
  graph : Graph

def resolve (t : Table) (b : Build) : Decl → Except BuildError Build
  | .service i => .ok { b with deps := update b.deps i [] }
  | .after i name =>
    match serviceFind t name with
    | none => .error (.missingAfter (t.svc i).name name)
    | some k =>
      .ok
        { deps := update b.deps i
            (if (b.deps i).length < serviceMaxDeps then b.deps i ++ [k] else b.deps i)
          graph := b.graph.addEdge k i }
  | .before i name =>
    match serviceFind t name with
    | none => .error (.missingBefore (t.svc i).name name)
    | some k => .ok { b with graph := b.graph.addEdge i k }
  | .overrun i => .error (.overrun (t.svc i).name)

/-- Run the iterations up to the first that fails. -/
def resolveAll (t : Table) : List Decl → Build → Build × Except BuildError Unit
  | [], b => (b, .ok ())
  | d :: ds, b =>
    match resolve t b d with
    | .ok b' => resolveAll t ds b'
    | .error e => (b, .error e)

/-- `depgraph_topo_sort`: the order, or −1 (`none`) when not every service could be emitted.  The
caller's array holds as many indices as the table holds entries. -/
def depgraphTopoSort (n : Nat) (g : Graph) : Option (List Nat) :=
  let order := Kahn.sort n g.edge g.indegree
  if order.length = n then some order else none

/-- `depgraph_has_cycle`: the same algorithm, for the number of emitted services only. -/
def depgraphHasCycle (n : Nat) (g : Graph) : Bool := (Kahn.sort n g.edge g.indegree).length ≠ n

/-- Store the resolved indices in the table. -/
def Table.withDeps (t : Table) (deps : Nat → List Nat) : Table :=
  { t with svc := fun i => { t.svc i with depIndices := deps i } }

/-- `depgraph_build`: the table with its `dep_indices`, the graph, and the result. -/
def depgraphBuild (t : Table) : Table × Graph × Except BuildError Unit :=
  let r := resolveAll t (declarations t) ⟨fun i => (t.svc i).depIndices, Graph.empty⟩
  (t.withDeps r.1.deps, r.1.graph,
    match r.2 with
    | .error e => .error e
    | .ok () => if depgraphHasCycle t.count r.1.graph then .error .cycle else .ok ())

/-! ## Edges -/

/-- The graph is one on `n` nodes, and its in-degrees count its edges. -/
structure Graph.Counted (n : Nat) (g : Graph) : Prop where
  lt : ∀ i j, g.edge i j = true → i < n ∧ j < n
  counts : Kahn.Counts n g.edge g.indegree

variable {n i : Nat} {g : Graph} {t : Table} {b b' : Build} {names : List String}

theorem Graph.counted_empty : Graph.empty.Counted n where
  lt i j h := by cases h
  counts j _ := by simp [Graph.empty]

theorem Graph.addEdge_edge {a b : Nat} :
    (g.addEdge i j).edge a b = true ↔ (a = i ∧ b = j) ∨ g.edge a b = true := by
  rw [Graph.addEdge]
  split
  · next h =>
    refine ⟨.inr, ?_⟩
    rintro (⟨rfl, rfl⟩ | hab)
    · exact h
    · exact hab
  · simp

theorem Graph.addEdge_indegree {k : Nat} : (g.addEdge i j).indegree k =
    if k = j ∧ g.edge i j = false then g.indegree k + 1 else g.indegree k := by
  rw [Graph.addEdge]
  cases g.edge i j with
  | true => simp
  | false =>
    rcases eq_or_ne k j with rfl | hk
    · simp
    · simp [hk]

theorem Graph.Counted.addEdge (h : g.Counted n) (hi : i < n) (hj : j < n) :
    (g.addEdge i j).Counted n := by
  refine ⟨fun a b hab => ?_, fun k hk => ?_⟩
  · rcases Graph.addEdge_edge.1 hab with ⟨rfl, rfl⟩ | hab
    · exact ⟨hi, hj⟩
    · exact h.lt a b hab
  · have hset : (Finset.range n).filter (fun a => (g.addEdge i j).edge a k = true) =
        if k = j then insert i ((Finset.range n).filter fun a => g.edge a k = true)
        else (Finset.range n).filter fun a => g.edge a k = true := by
      ext a
      split
      · next hkj =>
        simp only [Finset.mem_filter, Graph.addEdge_edge, Finset.mem_insert, hkj, and_true,
          Finset.mem_range]
        constructor
        · rintro ⟨ha, rfl | he⟩
          · exact .inl rfl
          · exact .inr ⟨ha, he⟩
        · rintro (rfl | ⟨ha, he⟩)
          · exact ⟨hi, .inl rfl⟩
          · exact ⟨ha, .inr he⟩
      · next hkj => simp [Graph.addEdge_edge, hkj]
    rw [hset, Graph.addEdge_indegree, h.counts k hk]
    by_cases hkj : k = j
    · subst hkj
      cases he : g.edge i k with
      | true =>
        have hmem : i ∈ (Finset.range n).filter fun a => g.edge a k = true :=
          Finset.mem_filter.2 ⟨Finset.mem_range.2 hi, he⟩
        simp [Finset.insert_eq_of_mem hmem]
      | false =>
        have hmem : i ∉ (Finset.range n).filter fun a => g.edge a k = true := by
          simp [he]
        simp [Finset.card_insert_of_notMem hmem]
    · simp [hkj]

/-- The declaration asks for an edge from `i` to `j`. -/
def Declares (t : Table) (d : Decl) (i j : Nat) : Prop :=
  match d with
  | .after k name => serviceFind t name = some i ∧ j = k
  | .before k name => i = k ∧ serviceFind t name = some j
  | .service _ | .overrun _ => False

/-- The service whose iteration this is. -/
def Decl.owner : Decl → Nat
  | .service i | .after i _ | .before i _ | .overrun i => i

variable {d : Decl}

theorem resolve_edge (h : resolve t b d = .ok b') :
    b'.graph.edge i j = true ↔ Declares t d i j ∨ b.graph.edge i j = true := by
  cases d with
  | service k =>
    cases h
    simp [Declares]
  | overrun k => cases h
  | after k name | before k name =>
    rw [resolve] at h
    rcases hf : serviceFind t name with - | m
    · simp [hf] at h
    · simp only [hf, Except.ok.injEq] at h
      subst h
      simp only [Graph.addEdge_edge, Declares, hf, Option.some.injEq]
      tauto

theorem resolve_counted (h : resolve t b d = .ok b') (hd : d.owner < t.count)
    (hb : b.graph.Counted t.count) : b'.graph.Counted t.count := by
  cases d with
  | service k =>
    cases h
    exact hb
  | overrun k => cases h
  | after k name | before k name =>
    rw [resolve] at h
    rcases hf : serviceFind t name with - | m
    · simp [hf] at h
    · simp only [hf, Except.ok.injEq] at h
      subst h
      have hm := (serviceFind_eq_some hf).1
      first | exact hb.addEdge hm hd | exact hb.addEdge hd hm

variable {ds : List Decl}

theorem resolveAll_counted (hds : ∀ d ∈ ds, d.owner < t.count) (hb : b.graph.Counted t.count) :
    (resolveAll t ds b).1.graph.Counted t.count := by
  induction ds generalizing b with
  | nil => exact hb
  | cons d ds ih =>
    rw [resolveAll]
    rcases hr : resolve t b d with e | b'
    · exact hb
    · exact ih (fun d hd => hds d (mem_cons_of_mem _ hd))
        (resolve_counted hr (hds d mem_cons_self) hb)

theorem owner_of_mem_declarationsOf (h : d ∈ declarationsOf t i) : d.owner = i := by
  simp only [declarationsOf, declNames, mem_cons, mem_append, mem_map] at h
  rcases h with rfl | (⟨_, -, rfl⟩ | h) | (⟨_, -, rfl⟩ | h)
  · rfl
  · rfl
  · split at h <;> simp at h
    rw [h, Decl.owner]
  · rfl
  · split at h <;> simp at h
    rw [h, Decl.owner]

theorem owner_of_mem_declarations (h : d ∈ declarations t) : d.owner < t.count := by
  obtain ⟨i, hi, hd⟩ := mem_flatMap.1 h
  rw [owner_of_mem_declarationsOf hd]
  exact mem_range.1 hi

theorem depgraphBuild_counts (t : Table) : (depgraphBuild t).2.1.Counted t.count :=
  resolveAll_counted (fun _ => owner_of_mem_declarations) Graph.counted_empty

/-! ## Any build -/

theorem resolveAll_append {es : List Decl} :
    resolveAll t (ds ++ es) b =
      match resolveAll t ds b with
      | (b₁, .ok ()) => resolveAll t es b₁
      | (b₁, .error e) => (b₁, .error e) := by
  induction ds generalizing b with
  | nil => rfl
  | cons d ds ih =>
    rw [cons_append, resolveAll, resolveAll]
    rcases resolve t b d with e | b₁
    · rfl
    · exact ih

/-- What the iterations of service `k` do: they write its own indices only, an edge with each, and
remove no edge. -/
structure Resolved (k : Nat) (b b' : Build) : Prop where
  others : ∀ i, i ≠ k → b'.deps i = b.deps i
  edges : ∀ i j, b.graph.edge i j = true → b'.graph.edge i j = true
  own : (∀ d ∈ b.deps k, b.graph.edge d k = true) → ∀ d ∈ b'.deps k, b'.graph.edge d k = true

theorem Resolved.refl (k : Nat) (b : Build) : Resolved k b b := ⟨fun _ _ => rfl, fun _ _ => id, id⟩

theorem Resolved.trans {k : Nat} {b₁ b₂ : Build} (h : Resolved k b b₁) (h' : Resolved k b₁ b₂) :
    Resolved k b b₂ :=
  ⟨fun i hi => (h'.others i hi).trans (h.others i hi),
    fun i j he => h'.edges i j (h.edges i j he), fun hb => h'.own (h.own hb)⟩

theorem resolve_resolved (h : resolve t b d = .ok b') : Resolved d.owner b b' := by
  have hedges : ∀ i j, b.graph.edge i j = true → b'.graph.edge i j = true :=
    fun i j he => (resolve_edge h).2 (.inr he)
  cases d with
  | service k =>
    cases h
    refine ⟨fun i hi => update_of_ne hi .., hedges, fun _ d hd => ?_⟩
    simp [Decl.owner] at hd
  | overrun k => cases h
  | after k name =>
    rw [resolve] at h
    rcases hf : serviceFind t name with - | m
    · simp [hf] at h
    · simp only [hf, Except.ok.injEq] at h
      subst h
      refine ⟨fun i hi => update_of_ne hi .., hedges, fun hown d hd => ?_⟩
      simp only [Decl.owner, update_self] at hd hown ⊢
      split at hd
      · rcases mem_append.1 hd with hd | hd
        · exact hedges d k (hown d hd)
        · rw [mem_singleton.1 hd, Graph.addEdge_edge]
          exact .inl ⟨rfl, rfl⟩
      · exact hedges d k (hown d hd)
  | before k name =>
    rw [resolve] at h
    rcases hf : serviceFind t name with - | m
    · simp [hf] at h
    · simp only [hf, Except.ok.injEq] at h
      subst h
      exact ⟨fun _ _ => rfl, hedges, fun hown d hd => hedges d _ (hown d hd)⟩

/-! ## A successful build -/

theorem resolveAll_append_ok {es : List Decl} :
    resolveAll t (ds ++ es) b = (b', .ok ()) ↔
      ∃ b₁, resolveAll t ds b = (b₁, .ok ()) ∧ resolveAll t es b₁ = (b', .ok ()) := by
  rw [resolveAll_append]
  rcases resolveAll t ds b with ⟨b₁, e | ⟨⟩⟩ <;> simp

theorem resolveAll_edge (h : resolveAll t ds b = (b', .ok ())) :
    b'.graph.edge i j = true ↔ (∃ d ∈ ds, Declares t d i j) ∨ b.graph.edge i j = true := by
  induction ds generalizing b with
  | nil =>
    cases h
    simp
  | cons d ds ih =>
    rw [resolveAll] at h
    rcases hr : resolve t b d with e | b₁
    · simp [hr] at h
    · rw [hr] at h
      rw [ih h, resolve_edge hr, exists_mem_cons_iff]
      exact or_left_comm.trans or_assoc.symm

/-- A list of names that resolves fits its array. -/
theorem declNames_ok {mk : Nat → String → Decl}
    (h : resolveAll t (declNames i mk names) b = (b', .ok ())) :
    names.length ≤ serviceMaxDeps ∧ resolveAll t (names.map (mk i)) b = (b', .ok ()) := by
  rw [declNames] at h
  by_cases hlen : names.length > serviceMaxDeps
  · rw [if_pos hlen, resolveAll_append_ok] at h
    obtain ⟨b₁, -, h⟩ := h
    cases h
  · rw [if_neg hlen, append_nil, take_of_length_le (Nat.le_of_not_lt hlen)] at h
    exact ⟨Nat.le_of_not_lt hlen, h⟩

theorem resolveAll_after (hlen : (b.deps i).length + names.length ≤ serviceMaxDeps)
    (h : resolveAll t (names.map (.after i)) b = (b', .ok ())) :
    b'.deps = update b.deps i (b.deps i ++ names.filterMap (serviceFind t)) := by
  induction names generalizing b with
  | nil =>
    cases h
    simp
  | cons name names ih =>
    rw [map_cons, resolveAll, resolve] at h
    rcases hf : serviceFind t name with - | k
    · simp [hf] at h
    · rw [length_cons] at hlen
      have hlt : (b.deps i).length < serviceMaxDeps := by omega
      simp only [hf, hlt, if_true] at h
      have hrest := ih (by simp only [update_self, length_append, length_singleton]; omega) h
      rw [hrest]
      simp [hf]

theorem resolveAll_before (h : resolveAll t (names.map (.before i)) b = (b', .ok ())) :
    b'.deps = b.deps := by
  induction names generalizing b with
  | nil =>
    cases h
    rfl
  | cons name names ih =>
    rw [map_cons, resolveAll, resolve] at h
    rcases hf : serviceFind t name with - | k
    · simp [hf] at h
    · simp only [hf] at h
      have hrest := ih h
      exact hrest

/-- The iterations of one service write its own `dep_indices`. -/
theorem resolveAll_declarationsOf (h : resolveAll t (declarationsOf t i) b = (b', .ok ())) :
    b'.deps = update b.deps i ((t.svc i).after.filterMap (serviceFind t)) := by
  obtain ⟨b₁, hafter, hbefore⟩ := resolveAll_append_ok.1 h
  obtain ⟨hlen, hafter⟩ := declNames_ok hafter
  rw [resolveAll_before (declNames_ok hbefore).2, resolveAll_after (by simpa using hlen) hafter]
  simp

theorem resolveAll_range
    (h : resolveAll t ((range n).flatMap (declarationsOf t)) b = (b', .ok ())) (hi : i < n) :
    b'.deps i = (t.svc i).after.filterMap (serviceFind t) := by
  induction n generalizing b' with
  | zero => exact absurd hi (Nat.not_lt_zero i)
  | succ n ih =>
    rw [range_succ, flatMap_append, resolveAll_append_ok, flatMap_singleton] at h
    obtain ⟨b₁, hinit, hlast⟩ := h
    rw [resolveAll_declarationsOf hlast]
    rcases Nat.lt_succ_iff_lt_or_eq.1 hi with hlt | rfl
    · rw [update_of_ne (Nat.ne_of_lt hlt)]
      exact ih hinit hlt
    · rw [update_self]

theorem declarations_edge
    (hb : resolveAll t (declarations t) ⟨fun i => (t.svc i).depIndices, Graph.empty⟩ = (b, .ok ()))
    : b.graph.edge i j = true ↔
    (j < t.count ∧ ∃ name ∈ (t.svc j).after, serviceFind t name = some i) ∨
      (i < t.count ∧ ∃ name ∈ (t.svc i).before, serviceFind t name = some j) := by
  rw [resolveAll_edge hb]
  simp only [Graph.empty, Bool.false_eq_true, or_false]
  constructor
  · rintro ⟨d, hd, hdecl⟩
    have howner := owner_of_mem_declarations hd
    obtain ⟨k, hk, hd⟩ := mem_flatMap.1 hd
    simp only [declarationsOf, declNames, mem_cons, mem_append, mem_map] at hd
    rcases hd with rfl | (⟨name, hname, rfl⟩ | hd) | (⟨name, hname, rfl⟩ | hd)
    · exact hdecl.elim
    · obtain ⟨hf, rfl⟩ := hdecl
      exact .inl ⟨howner, name, mem_of_mem_take hname, hf⟩
    · split at hd <;> simp at hd
      exact (hd ▸ hdecl : Declares t (.overrun k) i j).elim
    · obtain ⟨rfl, hf⟩ := hdecl
      exact .inr ⟨howner, name, mem_of_mem_take hname, hf⟩
    · split at hd <;> simp at hd
      exact (hd ▸ hdecl : Declares t (.overrun k) i j).elim
  · -- a successful build has read every list to its end
    have hfits : ∀ k < t.count, (t.svc k).after.length ≤ serviceMaxDeps ∧
        (t.svc k).before.length ≤ serviceMaxDeps := by
      intro k hk
      obtain ⟨l₁, l₂, hl⟩ := append_of_mem (mem_range.2 hk)
      rw [declarations, hl, flatMap_append, resolveAll_append_ok] at hb
      obtain ⟨b₁, -, hb⟩ := hb
      obtain ⟨b₂, hb, -⟩ := resolveAll_append_ok.1 hb
      obtain ⟨b₃, hafter, hbefore⟩ := resolveAll_append_ok.1 hb
      exact ⟨(declNames_ok hafter).1, (declNames_ok hbefore).1⟩
    rintro (⟨hj, name, hname, hf⟩ | ⟨hi, name, hname, hf⟩)
    · refine ⟨.after j name, mem_flatMap.2 ⟨j, mem_range.2 hj, ?_⟩, hf, rfl⟩
      simp only [declarationsOf, declNames, take_of_length_le (hfits j hj).1, mem_cons,
        mem_append, mem_map]
      exact .inr (.inl (.inl ⟨name, hname, rfl⟩))
    · refine ⟨.before i name, mem_flatMap.2 ⟨i, mem_range.2 hi, ?_⟩, rfl, hf⟩
      simp only [declarationsOf, declNames, take_of_length_le (hfits i hi).2, mem_cons,
        mem_append, mem_map]
      exact .inr (.inr (.inl ⟨name, hname, rfl⟩))

/-- `depgraph_build` returned 0. -/
def Built (t t' : Table) (g : Graph) : Prop := depgraphBuild t = (t', g, .ok ())

section

variable {t t' : Table} {g : Graph} (h : Built t t' g)
include h

theorem Built.resolved : ∃ b, resolveAll t (declarations t)
    ⟨fun i => (t.svc i).depIndices, Graph.empty⟩ = (b, .ok ()) ∧ t' = t.withDeps b.deps ∧
    g = b.graph ∧ depgraphHasCycle t.count b.graph = false := by
  unfold Built depgraphBuild at h
  generalize resolveAll t (declarations t) ⟨fun i => (t.svc i).depIndices, .empty⟩ = r at h
  obtain ⟨b, res⟩ := r
  rcases res with e | u
  · simp at h
  · refine ⟨b, rfl, ?_⟩
    simp only [Prod.mk.injEq] at h
    obtain ⟨rfl, rfl, hcycle⟩ := h
    cases hc : depgraphHasCycle t.count b.graph with
    | true => simp [hc] at hcycle
    | false => exact ⟨rfl, rfl, rfl⟩

theorem Built.count : t'.count = t.count := by
  obtain ⟨b, -, rfl, -⟩ := h.resolved
  rfl

theorem Built.counted : g.Counted t.count := by
  have hc := depgraphBuild_counts t
  rwa [show depgraphBuild t = _ from h] at hc

/-- The supervisor waits for the services of the `after` list. -/
theorem depgraphBuild_depIndices (hi : i < t.count) :
    (t'.svc i).depIndices = (t.svc i).after.filterMap (serviceFind t) := by
  obtain ⟨b, hb, rfl, -⟩ := h.resolved
  exact resolveAll_range hb hi

theorem depgraphBuild_edge : g.edge i j = true ↔
    (j < t.count ∧ ∃ name ∈ (t.svc j).after, serviceFind t name = some i) ∨
      (i < t.count ∧ ∃ name ∈ (t.svc i).before, serviceFind t name = some j) := by
  obtain ⟨b, hb, -, rfl, -⟩ := h.resolved
  exact declarations_edge hb

theorem Built.topoSort : depgraphTopoSort t.count g = some (Kahn.sort t.count g.edge g.indegree) ∧
    (Kahn.sort t.count g.edge g.indegree).length = t.count := by
  obtain ⟨b, -, -, rfl, hcycle⟩ := h.resolved
  simp only [depgraphHasCycle, decide_not, Bool.not_eq_false', decide_eq_true_eq] at hcycle
  exact ⟨by simp [depgraphTopoSort, hcycle], hcycle⟩

end

/-! ## When a build succeeds -/

/-- The lists of every service fit their arrays. -/
def Table.Fits (t : Table) : Prop :=
  ∀ i < t.count, (t.svc i).after.length ≤ serviceMaxDeps ∧
    (t.svc i).before.length ≤ serviceMaxDeps

/-- Every name in a list is the name of a service. -/
def Table.Closed (t : Table) : Prop :=
  ∀ i < t.count, ∀ name ∈ (t.svc i).after ++ (t.svc i).before, ∃ j < t.count, (t.svc j).name = name

/-- Service `i` has to start before `j`: `j` has it in its `after` list, or it has `j` in its
`before` list. -/
def Table.Declared (t : Table) (i j : Nat) : Prop :=
  i < t.count ∧ j < t.count ∧
    ((t.svc i).name ∈ (t.svc j).after ∨ (t.svc j).name ∈ (t.svc i).before)

/-- The iteration does not fail. -/
def Decl.Resolves (t : Table) : Decl → Prop
  | .service _ => True
  | .after _ name | .before _ name => ∃ j < t.count, (t.svc j).name = name
  | .overrun _ => False

section

variable {t : Table} {name : String} {b : Build} {ds : List Decl}

theorem exists_serviceFind :
    (∃ j, serviceFind t name = some j) ↔ ∃ j < t.count, (t.svc j).name = name := by
  constructor
  · rintro ⟨j, hj⟩
    exact ⟨j, serviceFind_eq_some hj⟩
  · rintro ⟨j, hj, hname⟩
    rcases hf : serviceFind t name with - | k
    · exact absurd hname (serviceFind_eq_none.1 hf j hj)
    · exact ⟨k, rfl⟩

theorem resolve_ok_iff {d : Decl} : (∃ b', resolve t b d = .ok b') ↔ d.Resolves t := by
  cases d with
  | service i => exact iff_of_true ⟨_, rfl⟩ trivial
  | overrun i => exact iff_of_false nofun id
  | after i name | before i name =>
    rw [Decl.Resolves, ← exists_serviceFind, resolve]
    rcases hf : serviceFind t name with - | k
    · simp
    · simp

theorem resolveAll_ok_iff : (∃ b', resolveAll t ds b = (b', .ok ())) ↔ ∀ d ∈ ds, d.Resolves t := by
  induction ds generalizing b with
  | nil => simp [resolveAll]
  | cons d ds ih =>
    rw [forall_mem_cons, ← resolve_ok_iff (b := b), resolveAll]
    rcases hr : resolve t b d with e | b₁
    · simp
    · rw [ih]
      simp

theorem resolveAll_resolved {k : Nat} (hds : ∀ d ∈ ds, d.owner = k) (b : Build) :
    Resolved k b (resolveAll t ds b).1 := by
  induction ds generalizing b with
  | nil => exact .refl k b
  | cons d ds ih =>
    rw [forall_mem_cons] at hds
    rw [resolveAll]
    rcases hr : resolve t b d with e | b₁
    · exact .refl k b
    · exact (hds.1 ▸ resolve_resolved hr).trans (ih hds.2 b₁)

/-- After the iterations of a service its indices are edges, whatever they were before. -/
theorem resolveAll_own (k : Nat) (b : Build) :
    ∀ d ∈ (resolveAll t (declarationsOf t k) b).1.deps k,
      (resolveAll t (declarationsOf t k) b).1.graph.edge d k = true := by
  rw [declarationsOf, resolveAll]
  refine (resolveAll_resolved (k := k) (fun d hd => ?_) _).own fun d hd => by simp at hd
  exact owner_of_mem_declarationsOf (mem_cons_of_mem _ hd)

/-- An iteration of the service fails. -/
def Table.Fails (t : Table) (i : Nat) : Prop := ∃ d ∈ declarationsOf t i, ¬ d.Resolves t

/-- The build stops in an earlier service: the iterations of `i` are not run. -/
def Table.Skips (t : Table) (i : Nat) : Prop := ∃ j < i, t.Fails j

/-- The loops come to service `n` exactly if none of the services before it fails. -/
theorem resolveAll_range_ok_iff (n : Nat) (b : Build) :
    (∃ b', resolveAll t ((range n).flatMap (declarationsOf t)) b = (b', .ok ())) ↔
      ¬ t.Skips n := by
  rw [resolveAll_ok_iff]
  simp only [mem_flatMap, mem_range, forall_exists_index, and_imp, Table.Skips,
    Table.Fails, not_exists, not_and, not_not]
  exact ⟨fun h j hj d hd => h d j hj hd, fun h d j hj hd => h j hj d hd⟩

theorem Table.Skips.mono {t : Table} {n : Nat} (h : t.Skips i) (hle : i ≤ n) : t.Skips n := by
  obtain ⟨j, hj, hfails⟩ := h
  exact ⟨j, Nat.lt_of_lt_of_le hj hle, hfails⟩

/-- The loops over the first `n` services. -/
theorem resolveAll_range_deps (n : Nat) (b : Build) :
    let b' := (resolveAll t ((range n).flatMap (declarationsOf t)) b).1
    (∀ i, n ≤ i ∨ t.Skips i → b'.deps i = b.deps i) ∧
      ∀ i < n, ¬ t.Skips i → ∀ d ∈ b'.deps i, b'.graph.edge d i = true := by
  induction n with
  | zero => exact ⟨fun _ _ => rfl, fun i hi => absurd hi (Nat.not_lt_zero i)⟩
  | succ n ih =>
    obtain ⟨hkept, hown⟩ := ih
    have hok := resolveAll_range_ok_iff (t := t) n b
    rw [range_succ, flatMap_append, flatMap_singleton, resolveAll_append]
    cases hr : resolveAll t ((range n).flatMap (declarationsOf t)) b with
    | mk b₁ r =>
      rw [hr] at hkept hown hok
      rcases r with e | u
      · have hskip : t.Skips n := by
          by_contra hno
          obtain ⟨b', hb'⟩ := hok.2 hno
          cases hb'
        refine ⟨fun i hi => hkept i (hi.imp_left Nat.le_of_succ_le), fun i hi hno => ?_⟩
        rcases Nat.lt_succ_iff_lt_or_eq.1 hi with hlt | rfl
        · exact hown i hlt hno
        · exact absurd hskip hno
      · have hno : ¬ t.Skips n := hok.1 ⟨b₁, rfl⟩
        have hstep : Resolved n b₁ (resolveAll t (declarationsOf t n) b₁).1 :=
          resolveAll_resolved (fun _ => owner_of_mem_declarationsOf) b₁
        refine ⟨fun i hi => ?_, fun i hi hi' d hd => ?_⟩
        · have hlt : n < i := by
            rcases hi with hi | hi
            · exact hi
            · exact Nat.lt_of_not_le fun hle => hno (hi.mono hle)
          exact (hstep.others i (Nat.ne_of_gt hlt)).trans (hkept i (.inl (Nat.le_of_lt hlt)))
        · rcases Nat.lt_succ_iff_lt_or_eq.1 hi with hlt | rfl
          · rw [hstep.others i (Nat.ne_of_lt hlt)] at hd
            exact hstep.edges d i (hown i hlt hi' d hd)
          · exact resolveAll_own i b₁ d hd

/-- **After any build**, successful or not, the indices of a service are edges if its iterations
were run, and what they were before otherwise. -/
theorem depgraphBuild_deps (t : Table) :
    (∀ i, t.Skips i → ((depgraphBuild t).1.svc i).depIndices = (t.svc i).depIndices) ∧
      ∀ i < t.count, ¬ t.Skips i → ∀ d ∈ ((depgraphBuild t).1.svc i).depIndices,
        (depgraphBuild t).2.1.edge d i = true := by
  obtain ⟨hkept, hown⟩ := resolveAll_range_deps (t := t) t.count
    ⟨fun i => (t.svc i).depIndices, .empty⟩
  exact ⟨fun i hi => hkept i (.inr hi), hown⟩

/-- The loops run to their end if every list fits and every name exists. -/
theorem declarations_resolve (hfits : t.Fits) :
    (∀ d ∈ declarations t, d.Resolves t) ↔ t.Closed := by
  simp only [declarations, mem_flatMap, mem_range, forall_exists_index, and_imp]
  rw [forall_comm]
  refine forall_congr' fun i => ⟨fun h hi => ?_, fun h d hi hd => ?_⟩
  all_goals obtain ⟨hafter, hbefore⟩ := hfits i hi
  · intro name hname
    rcases mem_append.1 hname with hname | hname
    · refine h (.after i name) hi ?_
      rw [declarationsOf, declNames, take_of_length_le hafter]
      simp [hname]
    · refine h (.before i name) hi ?_
      rw [declarationsOf, declNames, declNames, take_of_length_le hbefore]
      simp [hname]
  · rw [declarationsOf, declNames, declNames, if_neg (Nat.not_lt.2 hafter),
      if_neg (Nat.not_lt.2 hbefore), append_nil, append_nil,
      take_of_length_le hafter, take_of_length_le hbefore] at hd
    simp only [mem_cons, mem_append, mem_map] at hd
    rcases hd with rfl | ⟨name, hname, rfl⟩ | ⟨name, hname, rfl⟩
    · trivial
    · exact h hi name (mem_append_left _ hname)
    · exact h hi name (mem_append_right _ hname)

theorem Table.Distinct.serviceFind_iff (h : t.Distinct) :
    serviceFind t name = some i ↔ i < t.count ∧ (t.svc i).name = name := by
  refine ⟨serviceFind_eq_some, ?_⟩
  rintro ⟨hi, rfl⟩
  exact h.serviceFind_name hi

/-- With distinct names the edges are the declared ones. -/
theorem declarations_edge_iff (h : t.Distinct)
    (hb : resolveAll t (declarations t) ⟨fun i => (t.svc i).depIndices, Graph.empty⟩ = (b, .ok ()))
    : Kahn.Edge t.count b.graph.edge i j ↔ t.Declared i j := by
  simp only [Kahn.Edge, declarations_edge hb, h.serviceFind_iff]
  constructor
  · rintro ⟨hi, hj, ⟨-, name, hname, -, rfl⟩ | ⟨-, name, hname, -, rfl⟩⟩
    · exact ⟨hi, hj, .inl hname⟩
    · exact ⟨hi, hj, .inr hname⟩
  · rintro ⟨hi, hj, hname | hname⟩
    · exact ⟨hi, hj, .inl ⟨hj, _, hname, hi, rfl⟩⟩
    · exact ⟨hi, hj, .inr ⟨hi, _, hname, hj, rfl⟩⟩

/-- **The dependency graph is built exactly if there is an order to start in**, for every table with
distinct names whose lists fit their arrays: every name exists and the declarations have no cycle.
The order that comes out then has every service once, each after those declared before it; and
whatever the build came to, the queue of the two loops never takes more entries than there are
services. -/
theorem depgraphBuild_correct (hfits : t.Fits) (hdistinct : t.Distinct) :
    ((depgraphBuild t).2.2 = .ok () ↔
      t.Closed ∧ ∀ i, ¬Relation.TransGen t.Declared i i) ∧
    ((depgraphBuild t).2.2 = .ok () →
      ∃ order, depgraphTopoSort t.count (depgraphBuild t).2.1 = some order ∧ order.Nodup ∧
        (∀ i, i ∈ order ↔ i < t.count) ∧ Kahn.Ordered t.Declared order) ∧
    ∀ k, (Kahn.rounds t.count (depgraphBuild t).2.1.edge (depgraphBuild t).2.1.indegree
      k).enqueued.length ≤ t.count := by
  have hcounts := (depgraphBuild_counts t).counts
  have hedge : ∀ {b : Build}, resolveAll t (declarations t)
      ⟨fun i => (t.svc i).depIndices, .empty⟩ = (b, .ok ()) →
      Kahn.Edge t.count b.graph.edge = t.Declared := fun hb => by
    funext i j
    exact propext (declarations_edge_iff hdistinct hb)
  refine ⟨⟨fun hok => ?_, ?_⟩, fun hok => ?_, Kahn.rounds_enqueued_le hcounts⟩
  · have hbuilt : Built t (depgraphBuild t).1 (depgraphBuild t).2.1 :=
      Prod.ext rfl (Prod.ext rfl hok)
    obtain ⟨b, hb, -, hg, -⟩ := hbuilt.resolved
    refine ⟨(declarations_resolve hfits).1 (resolveAll_ok_iff.1 ⟨b, hb⟩), ?_⟩
    have hacyclic := (Kahn.length_sort_iff hcounts).1 hbuilt.topoSort.2
    rw [hg, hedge hb] at hacyclic
    exact hacyclic
  · rintro ⟨hclosed, hacyclic⟩
    obtain ⟨b, hb⟩ := resolveAll_ok_iff.2 ((declarations_resolve hfits).2 hclosed)
    have hgraph : (depgraphBuild t).2.1 = b.graph := by rw [depgraphBuild, hb]
    rw [hgraph] at hcounts
    have hlen := (Kahn.length_sort_iff hcounts).2 (by rwa [hedge hb])
    simp [depgraphBuild, hb, depgraphHasCycle, hlen]
  · have hbuilt : Built t (depgraphBuild t).1 (depgraphBuild t).2.1 :=
      Prod.ext rfl (Prod.ext rfl hok)
    obtain ⟨b, hb, -, hg, -⟩ := hbuilt.resolved
    obtain ⟨hsort, hlen⟩ := hbuilt.topoSort
    refine ⟨_, hsort, Kahn.sort_nodup hcounts,
      fun i => ⟨Kahn.sort_lt, Kahn.mem_sort hcounts hlen⟩, ?_⟩
    intro l₁ j l₂ hl i hij
    rw [← hedge hb, ← hg] at hij
    exact Kahn.sort_ordered hcounts l₁ j l₂ hl i ⟨hij.1, hij.2.2⟩

end

/-- Two services that wait for each other: `audio` is after `dbus`, and also before it. -/
def sampleLoop : Table where
  count := 2
  svc i :=
    if i = 0 then { name := "dbus", binary := "/usr/bin/dbus-daemon" }
    else { name := "audio", binary := "/usr/bin/audiod", after := ["dbus"], before := ["dbus"] }
  count_le := by decide

theorem depgraphBuild_correct_sample :
    ((depgraphBuild sampleLoop).2.2 = .ok () ↔
      sampleLoop.Closed ∧ ∀ i, ¬Relation.TransGen sampleLoop.Declared i i) ∧
    ((depgraphBuild sampleLoop).2.2 = .ok () →
      ∃ order, depgraphTopoSort 2 (depgraphBuild sampleLoop).2.1 = some order ∧ order.Nodup ∧
        (∀ i, i ∈ order ↔ i < 2) ∧ Kahn.Ordered sampleLoop.Declared order) ∧
    ∀ k, (Kahn.rounds 2 (depgraphBuild sampleLoop).2.1.edge
      (depgraphBuild sampleLoop).2.1.indegree k).enqueued.length ≤ 2 :=
  have hfits : ∀ i < 2, (sampleLoop.svc i).after.length ≤ serviceMaxDeps ∧
      (sampleLoop.svc i).before.length ≤ serviceMaxDeps := by decide
  have hdistinct : ∀ i < 2, ∀ j < 2, (sampleLoop.svc i).name = (sampleLoop.svc j).name → i = j := by
    decide
  depgraphBuild_correct hfits hdistinct

end LunaInit
