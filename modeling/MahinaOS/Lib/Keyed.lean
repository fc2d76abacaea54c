import MahinaOS.Lib.ListUpdate

/-!
# Maps from a key that the values carry

A hash map whose values know their key is a list of values in which no key occurs twice: that is
`Keyed key`.  Its order stands for the order of an iteration, which such a map does not promise.

The operations are those of a map (`get`, `insert`, `erase`, and `map` for a loop over the values
that changes them in place), and each has one lemma that says which values there are afterwards, and
one that says what a search finds then (`get_map`, `get_erase`, `get_insert`).
-/

universe u v

variable {α : Type u} {κ : Type v}

/-- Values with distinct keys. -/
structure Keyed (key : α → κ) where
  list : List α
  nodup : (list.map key).Nodup

namespace Keyed

open List

variable {key : α → κ}

def empty : Keyed key := ⟨[], nodup_nil⟩

/-- A change of the values that keeps their keys. -/
def map (t : Keyed key) (f : α → α) (hf : ∀ a, key (f a) = key a) : Keyed key where
  list := t.list.map f
  nodup := by
    rw [map_map]
    exact (map_congr_left fun a _ => hf a) ▸ t.nodup

variable {t : Keyed key} {f : α → α} {a : α} {hf : ∀ a, key (f a) = key a}

theorem mem_map {b : α} : b ∈ (t.map f hf).list ↔ ∃ a ∈ t.list, f a = b := List.mem_map

variable [DecidableEq κ]

def get (t : Keyed key) (k : κ) : Option α := t.list.find? (key · = k)

def erase (t : Keyed key) (k : κ) : Keyed key :=
  ⟨t.list.filter (key · ≠ k), t.nodup.sublist (filter_sublist.map key)⟩

variable {k : κ}

theorem mem_erase : a ∈ (t.erase k).list ↔ a ∈ t.list ∧ key a ≠ k := by
  simp [erase]

/-- With a value, which takes the place of the one with its key. -/
def insert (t : Keyed key) (a : α) : Keyed key where
  list := a :: (t.erase (key a)).list
  nodup := by
    rw [map_cons, nodup_cons]
    refine ⟨fun h => ?_, (t.erase (key a)).nodup⟩
    obtain ⟨b, hb, heq⟩ := List.mem_map.1 h
    exact (mem_erase.1 hb).2 heq

theorem mem_insert {b : α} : b ∈ (t.insert a).list ↔ b = a ∨ b ∈ t.list ∧ key b ≠ key a := by
  rw [insert, mem_cons, mem_erase]

theorem get_eq_some : t.get k = some a ↔ a ∈ t.list ∧ key a = k :=
  ListUpdate.find?_key_iff t.nodup

theorem get_eq_none : t.get k = none ↔ ∀ a ∈ t.list, key a ≠ k := by
  simp [get]

theorem key_of_get (h : t.get k = some a) : key a = k :=
  (get_eq_some.1 h).2

/-! ### What an operation does to a search -/

theorem get_map (k : κ) : (t.map f hf).get k = (t.get k).map f := by
  rw [get, map, find?_map]
  congr 2
  funext a
  simp [hf]

theorem get_erase (k k' : κ) : (t.erase k').get k = if k = k' then none else t.get k := by
  split_ifs with h
  · refine get_eq_none.2 fun a ha => ?_
    rw [h]
    exact (mem_erase.1 ha).2
  · refine Option.ext fun a => ?_
    rw [get_eq_some, get_eq_some, mem_erase]
    exact ⟨fun ha => ⟨ha.1.1, ha.2⟩, fun ha => ⟨⟨ha.1, ha.2 ▸ h⟩, ha.2⟩⟩

theorem get_insert (a : α) (k : κ) :
    (t.insert a).get k = if k = key a then some a else t.get k := by
  split_ifs with h
  · exact get_eq_some.2 ⟨mem_insert.2 (.inl rfl), h.symm⟩
  · refine Option.ext fun b => ?_
    rw [get_eq_some, get_eq_some, mem_insert]
    constructor
    · rintro ⟨rfl | ⟨hb, -⟩, hkey⟩
      · exact absurd hkey.symm h
      · exact ⟨hb, hkey⟩
    · rintro ⟨hb, hkey⟩
      exact ⟨.inr ⟨hb, hkey ▸ h⟩, hkey⟩

/-- A loop over the values that has something to say only about the one with a key. -/
theorem filterMap_key {β : Type*} (t : Keyed key) (g : α → Option β) (k : κ) :
    (t.list.filterMap fun a => if key a = k then g a else none) = ((t.get k).bind g).toList := by
  obtain ⟨l, hl⟩ := t
  rw [get]
  induction l with
  | nil => rfl
  | cons a l ih =>
    rw [map_cons, nodup_cons] at hl
    rw [filterMap_cons]
    by_cases ha : key a = k
    · have hrest : (l.filterMap fun b => if key b = k then g b else none) = [] := by
        refine filterMap_eq_nil_iff.2 fun b hb => if_neg fun hkey => ?_
        exact hl.1 (List.mem_map.2 ⟨b, hb, hkey.trans ha.symm⟩)
      rw [if_pos ha, hrest, find?_cons_of_pos (by simpa using ha), Option.bind_some]
      rcases g a with - | b <;> rfl
    · rw [if_neg ha, find?_cons_of_neg (by simpa using ha)]
      exact ih hl.2

end Keyed
