import MahinaOS.Control.Protocol
import MahinaOS.Lib.Fifo

/-!
# The idempotency cache

`IdempotencyStore` (`mahina-control/src/idempotency.rs`) remembers the responses of mutating
requests by their request id: a hash map for the responses, and a queue of the ids for eviction.  It
is a bounded map that forgets its oldest entry; `IdempotencyStore.Holds` says which list of entries
it stands for, and `Holds.get` and `Holds.insert` that the two operations are those of the list.

* **`insertAll_spec`**: what the queue and the map hold after any insertions.
-/

namespace Control

def defaultCapacity : Nat := 1024

/-- `StoreInner`.  The mutex around it is never poisoned, so both operations get at it. -/
structure IdempotencyStore where
  capacity : Nat
  entries : AList fun _ : String => Response
  queue : List String

namespace IdempotencyStore

def withCapacity (capacity : Nat) : IdempotencyStore :=
  { capacity := capacity, entries := ∅, queue := [] }

/-- `IdempotencyStore::new`. -/
def new : IdempotencyStore := withCapacity defaultCapacity

def get (s : IdempotencyStore) (requestId : String) : Option Response := s.entries.lookup requestId

/-- Forget the oldest entry if the cache is full. -/
def evictIfFull (s : IdempotencyStore) : IdempotencyStore :=
  if s.entries.keys.length ≥ s.capacity then
    match s.queue with
    | [] => s
    | oldest :: queue => { s with entries := s.entries.erase oldest, queue := queue }
  else s

/-- `IdempotencyStore::insert`. -/
def insert (s : IdempotencyStore) (requestId : String) (response : Response) : IdempotencyStore :=
  if requestId ∈ s.entries then { s with entries := s.entries.insert requestId response }
  else
    let s := s.evictIfFull
    { s with
      entries := s.entries.insert requestId response
      queue := s.queue ++ [requestId] }

/-- The cache holds exactly these entries, oldest first. -/
def Holds (s : IdempotencyStore) (l : List (String × Response)) : Prop :=
  Fifo.Represents s.entries s.queue l

variable {s : IdempotencyStore} {l : List (String × Response)}

theorem Holds.get (h : s.Holds l) (id : String) : s.get id = Fifo.get l id := h.lookup id

@[simp] theorem evictIfFull_capacity : s.evictIfFull.capacity = s.capacity := by
  rw [evictIfFull]
  split
  · split <;> rfl
  · rfl

@[simp] theorem insert_capacity {id : String} {r : Response} :
    (s.insert id r).capacity = s.capacity := by
  rw [insert]
  split
  · rfl
  · exact evictIfFull_capacity

theorem Holds.evictIfFull (h : s.Holds l) : s.evictIfFull.Holds (Fifo.evict s.capacity l) := by
  unfold IdempotencyStore.evictIfFull Fifo.evict
  rw [h.length]
  split
  · rcases hq : s.queue with - | ⟨oldest, queue⟩
    · have hl : l = [] := List.map_eq_nil_iff.1 (h.ages.symm.trans hq)
      subst hl
      exact h
    · have hpop : Fifo.Represents s.entries (oldest :: queue) l := hq ▸ h
      exact hpop.pop
  · exact h

theorem Holds.insert (h : s.Holds l) (id : String) (r : Response) :
    (s.insert id r).Holds (Fifo.insert s.capacity l id r) := by
  unfold IdempotencyStore.insert Fifo.insert
  by_cases hid : id ∈ s.entries
  · rw [if_pos hid, if_pos (h.mem.1 hid)]
    exact Fifo.Represents.replace h hid r
  · have hl : id ∉ l.map Prod.fst := fun hmem => hid (h.mem.2 hmem)
    have hev := h.evictIfFull
    rw [if_neg hid, if_neg hl]
    refine Fifo.Represents.push hev (fun hmem => hl ?_) r
    exact ((Fifo.evict_sublist s.capacity l).map _).subset (hev.mem.1 hmem)

/-! ## Sequences of insertions -/

def insertAll (capacity : Nat) (inserts : List (String × Response)) : IdempotencyStore :=
  inserts.foldl (fun s i => s.insert i.1 i.2) (withCapacity capacity)

theorem insertAll_concat (capacity : Nat) (inserts : List (String × Response)) (id : String)
    (r : Response) :
    insertAll capacity (inserts ++ [(id, r)]) = (insertAll capacity inserts).insert id r := by
  rw [insertAll, List.foldl_append]
  rfl

theorem capacity_insertAll (capacity : Nat) (inserts : List (String × Response)) :
    (insertAll capacity inserts).capacity = capacity := by
  induction inserts using List.reverseRecOn with
  | nil => rfl
  | append_singleton inserts i ih => rw [insertAll_concat, insert_capacity, ih]

/-- The store stands for what a bounded map remembers of the insertions. -/
theorem exists_remembers {capacity : Nat} (hc : 0 < capacity)
    (inserts : List (String × Response)) :
    ∃ l, (insertAll capacity inserts).Holds l ∧ Fifo.Remembers capacity inserts l := by
  induction inserts using List.reverseRecOn with
  | nil => exact ⟨[], Fifo.represents_empty, List.drop_nil.symm, fun _ _ h => h⟩
  | append_singleton inserts i ih =>
    obtain ⟨l, hholds, hremembers⟩ := ih
    refine ⟨Fifo.insert capacity l i.1 i.2, ?_, hremembers.insert hc hholds.nodup i.1 i.2⟩
    have hinsert := hholds.insert i.1 i.2
    rw [capacity_insertAll] at hinsert
    rw [insertAll_concat]
    exact hinsert

/-- **The cache after any insertions.**  With a capacity of at least one, the queue has the last ids
that came, as many as the capacity allows, without repetition; the map has the same ids; and an id
is found exactly if it is one of them, with the response of its latest insertion. -/
theorem insertAll_spec {capacity : Nat} (hc : 1 ≤ capacity)
    (inserts : List (String × Response)) :
    (insertAll capacity inserts).queue =
        Fifo.recent capacity (Fifo.arrivals capacity (inserts.map Prod.fst)) ∧
      (insertAll capacity inserts).entries.keys.Perm (insertAll capacity inserts).queue ∧
      (insertAll capacity inserts).queue.Nodup ∧
      (insertAll capacity inserts).queue.length ≤ capacity ∧
      ∀ id, (insertAll capacity inserts).get id =
        if id ∈ (insertAll capacity inserts).queue then Fifo.latest inserts id else none := by
  obtain ⟨l, hholds, hremembers⟩ := exists_remembers hc inserts
  have hqueue := hholds.ages.trans hremembers.keys
  refine ⟨hqueue, hholds.keys, ?_, ?_, fun id => ?_⟩
  · rw [hholds.ages]
    exact hholds.nodup
  · rw [hqueue, Fifo.recent_length]
    exact Nat.min_le_left _ _
  · rw [hholds.get, hremembers.get_eq, hholds.ages]

/-- Of three ids in a cache for two, one is inserted again while it is there and one after it has
gone. -/
theorem insertAll_spec_two :
    let inserts := [("a", Response.success 1 .null), ("b", Response.success 2 .null),
      ("a", Response.success 3 .null), ("c", Response.success 4 .null),
      ("a", Response.success 5 .null)]
    Fifo.recent 2 (Fifo.arrivals 2 (inserts.map Prod.fst)) = ["c", "a"] ∧
      (insertAll 2 inserts).queue = ["c", "a"] ∧
      (insertAll 2 inserts).get "a" = Fifo.latest inserts "a" ∧
      (insertAll 2 inserts).get "b" = none := by
  intro inserts
  obtain ⟨hqueue, -, -, -, hget⟩ := insertAll_spec (show 1 ≤ 2 by decide) inserts
  have harrivals : Fifo.recent 2 (Fifo.arrivals 2 (inserts.map Prod.fst)) = ["c", "a"] := by
    decide +kernel
  refine ⟨harrivals, hqueue, ?_, ?_⟩
  · rw [hget, hqueue, if_pos (by decide)]
  · rw [hget, hqueue, if_neg (by decide)]

end IdempotencyStore

end Control
