import Mathlib.Data.Finset.Card
import Mathlib.Data.List.AList

/-!
# Bounded maps that forget their oldest entry

A bounded map is the list of its entries, oldest first, with distinct keys.  Inserting a key that is
there replaces its value in place; inserting a new one at capacity `c` first drops the oldest entry.

* **`insert_recent`**: as long as only new keys are inserted, the map holds the last `c` insertions
  (`recent`).
* **`Remembers.insert`**: for any insertions, the map holds the last `c` of the keys that came
  (`arrivals`: a key that has gone may come again), each with the value of its last insertion.
* `Spaced c l` is what that makes of the sequence `l` of all keys ever inserted: a key comes again
  only after `c` other keys.  By **`Spaced.length_lt`** a key is then among the last `c` until `c`
  distinct others were inserted after it.

The usual implementation has a hash map for the values and a queue for the age of the keys.
`Represents entries queue l` says that such a pair stands for the list `l`; `Represents.replace`,
`Represents.push` and `Represents.pop` are the three ways in which it is changed.
-/

namespace Fifo

open List

universe u v

variable {κ : Type u} {ν : Type v} [DecidableEq κ]

def get (l : List (κ × ν)) (k : κ) : Option ν := (l.find? (·.1 = k)).map Prod.snd

/-- Make room for a new entry. -/
def evict (c : Nat) (l : List (κ × ν)) : List (κ × ν) := if l.length ≥ c then l.tail else l

def insert (c : Nat) (l : List (κ × ν)) (k : κ) (v : ν) : List (κ × ν) :=
  if k ∈ l.map Prod.fst then l.map fun e => if e.1 = k then (k, v) else e
  else evict c l ++ [(k, v)]

/-- The last `c` elements. -/
def recent {α : Type v} (c : Nat) (l : List α) : List α := l.drop (l.length - c)

/-! ## The list -/

variable {l : List (κ × ν)} {k : κ} {v : ν} {c : Nat}

theorem get_eq_none : get l k = none ↔ k ∉ l.map Prod.fst := by
  rw [get, Option.map_eq_none_iff, find?_eq_none]
  constructor
  · intro h hk
    obtain ⟨e, he, hek⟩ := mem_map.1 hk
    exact h e he (decide_eq_true hek)
  · intro h e he hek
    exact h (mem_map.2 ⟨e, he, of_decide_eq_true hek⟩)

theorem get_concat {k' : κ} (hk : k ∉ l.map Prod.fst) :
    get (l ++ [(k, v)]) k' = if k' = k then some v else get l k' := by
  rcases eq_or_ne k' k with rfl | hne
  · have hnone : l.find? (·.1 = k') = none := by
      rw [find?_eq_none]
      intro e he hek
      exact hk (of_decide_eq_true hek ▸ mem_map_of_mem he)
    simp [get, hnone]
  · have hlast : [(k, v)].find? (·.1 = k') = none := by simp [hne.symm]
    rw [if_neg hne, get, get, find?_append, hlast, Option.or_none]

theorem mem_of_get (h : get l k = some v) : (k, v) ∈ l := by
  obtain ⟨e, he, rfl⟩ := Option.map_eq_some_iff.1 h
  have hk : e.1 = k := by simpa using find?_some he
  exact hk ▸ mem_of_find?_eq_some he

theorem get_of_mem (hl : (l.map Prod.fst).Nodup) (h : (k, v) ∈ l) : get l k = some v := by
  rcases hg : get l k with - | w
  · exact absurd (mem_map_of_mem h) (get_eq_none.1 hg)
  · have heq := inj_on_of_nodup_map hl (mem_of_get hg) h rfl
    rw [(Prod.mk.inj heq).2]

theorem get_eq_some (hl : (l.map Prod.fst).Nodup) :
    get l k = some v ↔ (k, v) ∈ l := ⟨mem_of_get, get_of_mem hl⟩

omit [DecidableEq κ] in
theorem evict_sublist (c : Nat) (l : List (κ × ν)) : (evict c l).Sublist l := by
  rw [evict]
  split
  · exact tail_sublist l
  · exact .refl l

theorem map_fst_replace :
    (l.map fun e => if e.1 = k then (k, v) else e).map Prod.fst = l.map Prod.fst := by
  rw [map_map]
  refine map_congr_left fun e _ => ?_
  by_cases he : e.1 = k <;> simp [he]

theorem recent_length {α : Type v} (c : Nat) (l : List α) :
    (recent c l).length = min c l.length := by
  rw [recent, length_drop]
  omega

/-- Dropping the oldest of the last `c` elements makes room for one more. -/
theorem recent_concat {α : Type v} (hc : 0 < c) (l : List α) (a : α) :
    recent c (l ++ [a]) =
      (if (recent c l).length ≥ c then (recent c l).tail else recent c l) ++ [a] := by
  have hlen := recent_length c l
  by_cases hfull : c ≤ l.length
  · rw [if_pos (by omega), recent, recent, tail_drop, length_append,
      length_singleton, drop_append_of_le_length (by omega)]
    congr 2
    omega
  · rw [if_neg (by omega), recent, length_append, length_singleton,
      drop_append_of_le_length (by omega)]
    congr 2
    omega

/-- **Inserting new keys only, the map holds the last `c` insertions.** -/
theorem insert_recent (hc : 0 < c) (v : ν) (hk : k ∉ (recent c l).map Prod.fst) :
    insert c (recent c l) k v = recent c (l ++ [(k, v)]) := by
  rw [insert, if_neg hk, recent_concat hc, evict]

/-! ## What a sequence of insertions leaves -/

/-- The keys in the order in which they came.  A key that is among the last `c` has not gone since,
so it does not come again. -/
def arrivals (c : Nat) (keys : List κ) : List κ :=
  keys.foldl (fun seen k => if k ∈ recent c seen then seen else seen ++ [k]) []

theorem arrivals_concat (c : Nat) (keys : List κ) (k : κ) :
    arrivals c (keys ++ [k]) =
      if k ∈ recent c (arrivals c keys) then arrivals c keys else arrivals c keys ++ [k] := by
  rw [arrivals, foldl_append]
  rfl

/-- The value of the last insertion of a key. -/
def latest (inserts : List (κ × ν)) (k : κ) : Option ν := get inserts.reverse k

theorem latest_concat (inserts : List (κ × ν)) (k k' : κ) (v : ν) :
    latest (inserts ++ [(k, v)]) k' = if k' = k then some v else latest inserts k' := by
  rw [latest, reverse_append, reverse_singleton, singleton_append, get, find?_cons]
  split_ifs with h
  · rw [decide_eq_true h.symm]
    rfl
  · rw [decide_eq_false fun heq => h heq.symm]
    rfl

theorem keys_insert (hc : 0 < c) {seen : List κ} (h : l.map Prod.fst = recent c seen) (k : κ)
    (v : ν) :
    (insert c l k v).map Prod.fst =
      recent c (if k ∈ recent c seen then seen else seen ++ [k]) := by
  have hlen : l.length = (recent c seen).length := by rw [← h, length_map]
  rw [insert, h]
  split_ifs
  · rw [map_fst_replace, h]
  · rw [recent_concat hc, ← hlen, map_append, evict, map_singleton]
    split_ifs
    · rw [map_tail, h]
    · rw [h]

/-- What is found after an insertion was put there by it or was there before. -/
theorem get_of_get_insert (hl : (l.map Prod.fst).Nodup) {k' : κ} {w : ν}
    (h : get (insert c l k v) k' = some w) : (k' = k ∧ w = v) ∨ (k' ≠ k ∧ get l k' = some w) := by
  have hmem := mem_of_get h
  rw [insert] at hmem
  split_ifs at hmem with hk
  · obtain ⟨e, he, heq⟩ := mem_map.1 hmem
    split_ifs at heq with hek
    · obtain ⟨hk', hw⟩ := Prod.mk.inj heq
      exact .inl ⟨hk'.symm, hw.symm⟩
    · obtain rfl := heq
      exact .inr ⟨hek, get_of_mem hl he⟩
  · rcases mem_append.1 hmem with hmem | hmem
    · have he : (k', w) ∈ l := (evict_sublist c l).subset hmem
      exact .inr ⟨fun heq => hk (heq ▸ mem_map_of_mem he), get_of_mem hl he⟩
    · exact .inl (Prod.mk.inj (mem_singleton.1 hmem))

/-- The entries are those of the last `c` keys that came, each with its latest value. -/
structure Remembers (c : Nat) (inserts : List (κ × ν)) (l : List (κ × ν)) : Prop where
  keys : l.map Prod.fst = recent c (arrivals c (inserts.map Prod.fst))
  value : ∀ k v, get l k = some v → latest inserts k = some v

/-- **One more insertion.** -/
theorem Remembers.insert (hc : 0 < c) {inserts : List (κ × ν)} (h : Remembers c inserts l)
    (hl : (l.map Prod.fst).Nodup) (k : κ) (v : ν) :
    Remembers c (inserts ++ [(k, v)]) (insert c l k v) where
  keys := by
    rw [keys_insert hc h.keys, map_append, map_singleton, arrivals_concat]
  value k' w hw := by
    rw [latest_concat]
    rcases get_of_get_insert hl hw with ⟨hk', rfl⟩ | ⟨hk', hget⟩
    · rw [if_pos hk']
    · rw [if_neg hk', h.value k' w hget]

/-- What is found, by the keys and the insertions alone. -/
theorem Remembers.get_eq {inserts : List (κ × ν)} (h : Remembers c inserts l) (k : κ) :
    get l k = if k ∈ l.map Prod.fst then latest inserts k else none := by
  split_ifs with hk
  · rcases hget : get l k with - | v
    · exact absurd hk (get_eq_none.1 hget)
    · exact (h.value k v hget).symm
  · exact get_eq_none.2 hk

/-! ## How far apart a key comes again -/

/-- No element is among the `c` before it. -/
def Spaced {α : Type v} (c : Nat) (l : List α) : Prop :=
  ∀ l₁ k l₂, l = l₁ ++ k :: l₂ → k ∉ recent c l₁

section

variable {α : Type v} {c : Nat} {l l₁ l₂ : List α} {k : α}

theorem spaced_nil : Spaced c ([] : List α) := fun l₁ k l₂ h => by
  cases l₁ <;> cases h

theorem Spaced.concat (h : Spaced c l) (hk : k ∉ recent c l) : Spaced c (l ++ [k]) := by
  intro l₁ k' l₂ heq
  rcases eq_nil_or_concat l₂ with rfl | ⟨l₂, b, rfl⟩
  · obtain ⟨rfl, hlast⟩ := append_inj' heq rfl
    cases hlast
    exact hk
  · rw [concat_eq_append, ← cons_append, ← append_assoc] at heq
    exact h l₁ k' l₂ (append_inj' heq rfl).1

theorem Spaced.of_append (h : Spaced c (l₁ ++ l₂)) : Spaced c l₁ := by
  rintro m₁ k m₂ rfl
  exact h m₁ k (m₂ ++ l₂) (by simp)

theorem mem_recent_of_lt (hlen : l₂.length < c) : k ∈ recent c (l₁ ++ k :: l₂) := by
  have hle : (l₁ ++ k :: l₂).length - c ≤ l₁.length := by
    rw [length_append, length_cons]
    omega
  rw [recent, drop_append_of_le_length hle]
  exact mem_append_right _ mem_cons_self

theorem Spaced.nodup (h : Spaced c (l₁ ++ k :: l₂)) (hlen : l₂.length ≤ c) : (k :: l₂).Nodup := by
  induction l₂ using reverseRecOn with
  | nil => exact nodup_singleton k
  | append_singleton l₂ b ih =>
    rw [length_append, length_singleton] at hlen
    have hsplit : l₁ ++ k :: (l₂ ++ [b]) = (l₁ ++ k :: l₂) ++ b :: [] := by simp
    have hnot : b ∉ k :: l₂ := fun hb => by
      refine h _ b [] hsplit ?_
      obtain ⟨m₁, m₂, hm⟩ := append_of_mem hb
      have hm₂ : m₂.length < c := by
        have hl := congrArg length hm
        simp only [length_cons, length_append] at hl
        omega
      rw [hm, ← append_assoc]
      exact mem_recent_of_lt hm₂
    rw [hsplit] at h
    rw [← cons_append]
    exact (ih h.of_append (by omega)).append (nodup_singleton b) (by simpa using hnot)

/-- **Until `c` distinct others came after a key, fewer than `c` keys came after it.** -/
theorem Spaced.length_lt [DecidableEq α] (h : Spaced c (l₁ ++ k :: l₂))
    (hfew : (l₂.toFinset.erase k).card < c) : l₂.length < c := by
  by_contra hlen
  -- otherwise the next `c` keys are distinct and differ from `k`
  have hsplit : l₁ ++ k :: l₂ = (l₁ ++ k :: l₂.take c) ++ l₂.drop c := by simp
  rw [hsplit] at h
  have hnodup := h.of_append.nodup (length_take_le c l₂)
  rw [nodup_cons] at hnodup
  have hsub : (l₂.take c).toFinset ⊆ l₂.toFinset.erase k := by
    intro x hx
    rw [mem_toFinset] at hx
    exact Finset.mem_erase.2 ⟨fun hxk => hnodup.1 (hxk ▸ hx), mem_toFinset.2 (mem_of_mem_take hx)⟩
  have hcard := Finset.card_le_card hsub
  rw [toFinset_card_of_nodup hnodup.2, length_take] at hcard
  omega

end

/-! ## A map and a queue -/

/-- The map and the queue stand for the list. -/
structure Represents (entries : AList fun _ : κ => ν) (queue : List κ) (l : List (κ × ν)) :
    Prop where
  keys : entries.keys.Perm queue
  ages : queue = l.map Prod.fst
  lookup : ∀ k, entries.lookup k = get l k

section

variable {entries : AList fun _ : κ => ν} {queue : List κ} {l : List (κ × ν)}

theorem represents_empty : Represents (∅ : AList fun _ : κ => ν) [] [] where
  keys := Perm.refl _
  ages := rfl
  lookup _ := rfl

section

variable (h : Represents entries queue l)

include h

theorem Represents.nodup : (l.map Prod.fst).Nodup := by
  rw [← h.ages]
  exact h.keys.nodup_iff.1 entries.nodupKeys

variable {k : κ}

theorem Represents.mem : k ∈ entries ↔ k ∈ l.map Prod.fst := by
  rw [← h.ages, ← h.keys.mem_iff, AList.mem_keys]

theorem Represents.length : entries.keys.length = l.length := by
  rw [h.keys.length_eq, h.ages, length_map]

theorem Represents.replace (hk : k ∈ entries) (v : ν) :
    Represents (entries.insert k v) queue (l.map fun e => if e.1 = k then (k, v) else e) where
  ages := by rw [map_fst_replace, h.ages]
  keys := by
    rw [AList.keys_insert]
    exact (perm_cons_erase (AList.mem_keys.1 hk)).symm.trans h.keys
  lookup k' := by
    have hnodup : ((l.map fun e => if e.1 = k then (k, v) else e).map Prod.fst).Nodup := by
      rw [map_fst_replace]
      exact h.nodup
    rcases eq_or_ne k' k with rfl | hne
    · obtain ⟨e, he, hek⟩ := mem_map.1 (h.mem.1 hk)
      rw [AList.lookup_insert, eq_comm, get_eq_some hnodup]
      exact mem_map.2 ⟨e, he, by rw [if_pos hek]⟩
    · rw [AList.lookup_insert_ne hne, h.lookup]
      refine Option.ext fun w => ?_
      rw [get_eq_some h.nodup, get_eq_some hnodup, mem_map]
      constructor
      · intro hw
        exact ⟨(k', w), hw, if_neg hne⟩
      · rintro ⟨e, he, heq⟩
        split at heq
        · exact absurd (congrArg Prod.fst heq).symm hne
        · exact heq ▸ he

theorem Represents.push (hk : k ∉ entries) (v : ν) :
    Represents (entries.insert k v) (queue ++ [k]) (l ++ [(k, v)]) where
  ages := by rw [h.ages, map_append, map_singleton]
  keys := by
    rw [AList.keys_insert, erase_of_not_mem (fun hmem => hk (AList.mem_keys.2 hmem))]
    exact (h.keys.cons k).trans (perm_append_singleton k queue).symm
  lookup k' := by
    rw [get_concat fun hmem => hk (h.mem.2 hmem)]
    rcases eq_or_ne k' k with rfl | hne
    · rw [AList.lookup_insert, if_pos rfl]
    · rw [AList.lookup_insert_ne hne, if_neg hne, h.lookup]

end

theorem Represents.pop (h : Represents entries (k :: queue) l) :
    Represents (entries.erase k) queue l.tail := by
  have hq := h.ages
  rcases l with - | ⟨e, l⟩
  · cases hq
  · obtain ⟨hk, htail⟩ := cons.inj hq
    subst hk
    refine ⟨?_, htail, fun k' => ?_⟩
    · rw [AList.keys_erase]
      have hperm := h.keys.erase e.1
      rwa [erase_cons_head] at hperm
    · have hnodup := h.nodup
      rw [map_cons, nodup_cons] at hnodup
      rcases eq_or_ne k' e.1 with rfl | hne
      · rw [AList.lookup_erase, eq_comm, get_eq_none]
        exact hnodup.1
      · rw [AList.lookup_erase_ne hne, h.lookup, tail_cons, get, get, find?_cons,
          decide_eq_false hne.symm]

end

end Fifo
