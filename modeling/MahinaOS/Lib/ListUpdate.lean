import Mathlib.Data.List.Forall2
import Mathlib.Data.List.Nodup

/-!
# Tables with a unique key

`modifyFirst p f l` changes the first element of `l` that satisfies `p`: it is what a program does
that searches a table for an entry and writes through the reference it found.  On a table whose key
is unique it is the same as changing *every* match (`modifyFirst_eq_map`), which is the form
invariants are proved in; entry by entry it is `forall₂_modifyFirst`; and a test that singles out
one key is passed by exactly one entry (`map_filter_eq_singleton`), so that a search for the key
finds that entry (`find?_key_iff`), also after a change (`find?_modifyFirst`).  Changing the entries
with given keys lowers a count by as many as there are keys (`countP_update_add`).
-/

namespace ListUpdate

open List

universe u v

variable {α : Type u} {κ : Type v}

/-- Apply `f` to the first element that satisfies `p`. -/
def modifyFirst (p : α → Bool) (f : α → α) : List α → List α
  | [] => []
  | a :: l => if p a then f a :: l else a :: modifyFirst p f l

variable {p : α → Bool} {f : α → α} {key : α → κ} {R : α → α → Prop} {l : List α}

theorem map_modifyFirst (hf : ∀ a, key (f a) = key a) (l : List α) :
    (modifyFirst p f l).map key = l.map key := by
  induction l with
  | nil => rfl
  | cons a l ih =>
    rw [modifyFirst]
    split
    · rw [map_cons, hf, map_cons]
    · rw [map_cons, ih, map_cons]

/-- A view of the elements in which the change is a change, and the test a test. -/
theorem map_modifyFirst_comm {view : α → κ} {q : κ → Bool} {g : κ → κ}
    (hq : ∀ a, q (view a) = p a) (hg : ∀ a, p a = true → view (f a) = g (view a)) (l : List α) :
    (modifyFirst p f l).map view = modifyFirst q g (l.map view) := by
  induction l with
  | nil => rfl
  | cons a l ih =>
    rw [modifyFirst, map_cons, modifyFirst, hq]
    cases hp : p a with
    | true => simp [hg a hp]
    | false => simp [ih]

theorem length_modifyFirst (p : α → Bool) (f : α → α) (l : List α) :
    (modifyFirst p f l).length = l.length := by
  induction l with
  | nil => rfl
  | cons a l ih =>
    rw [modifyFirst]
    split
    · rfl
    · rw [length_cons, ih, length_cons]

/-- Entry by entry, nothing changes but the entry that the search finds. -/
theorem forall₂_modifyFirst (hrefl : ∀ a, R a a) (hf : ∀ a, l.find? p = some a → R a (f a)) :
    Forall₂ R l (modifyFirst p f l) := by
  induction l with
  | nil => exact .nil
  | cons a l ih =>
    rw [modifyFirst]
    split
    · next hp =>
      exact .cons (hf a (find?_cons_of_pos hp)) (forall₂_same.2 fun b _ => hrefl b)
    · next hp => exact .cons (hrefl a) (ih fun b hb => hf b ((find?_cons_of_neg hp).trans hb))

/-- A search for the entry that was changed finds what it has become. -/
theorem find?_modifyFirst (hf : ∀ a, p (f a) = p a) (l : List α) :
    (modifyFirst p f l).find? p = (l.find? p).map f := by
  induction l with
  | nil => rfl
  | cons a l ih =>
    rw [modifyFirst]
    split
    · next hp => rw [find?_cons_of_pos hp, find?_cons_of_pos ((hf a).trans hp)]; rfl
    · next hp => rw [find?_cons_of_neg hp, find?_cons_of_neg hp, ih]

/-- A search that passes over the entry, before and after, is not affected. -/
theorem find?_modifyFirst_of_disjoint {q : α → Bool}
    (hq : ∀ a, p a = true → q a = false ∧ q (f a) = false) (l : List α) :
    (modifyFirst p f l).find? q = l.find? q := by
  induction l with
  | nil => rfl
  | cons a l ih =>
    rw [modifyFirst]
    split
    · next hp =>
      obtain ⟨hbefore, hafter⟩ := hq a hp
      rw [find?_cons_of_neg (by simp [hafter]), find?_cons_of_neg (by simp [hbefore])]
    · rw [find?_cons, find?_cons, ih]

/-- Of two tables related entry by entry, every entry of the second comes from one of the first. -/
theorem exists_of_forall₂ {β : Type v} {R : α → β → Prop} {l' : List β} (h : Forall₂ R l l')
    {b : β} (hb : b ∈ l') : ∃ a ∈ l, R a b := by
  induction h with
  | nil => cases hb
  | cons hab _ ih =>
    rcases mem_cons.1 hb with rfl | hb
    · exact ⟨_, mem_cons_self, hab⟩
    · obtain ⟨a, ha, hab⟩ := ih hb
      exact ⟨a, mem_cons_of_mem _ ha, hab⟩

theorem forall₂_trans {l' l'' : List α} (h : Forall₂ R l l') (h' : Forall₂ R l' l'')
    (htrans : ∀ a b c, R a b → R b c → R a c) : Forall₂ R l l'' := by
  induction h generalizing l'' with
  | nil => exact h'
  | cons hab _ ih =>
    cases h' with
    | cons hbc h' => exact .cons (htrans _ _ _ hab hbc) (ih h')

/-- Where the key is unique, a test that holds exactly at a listed key holds exactly once. -/
theorem map_filter_eq_singleton {k : κ} (hn : (l.map key).Nodup) (hk : k ∈ l.map key)
    (hp : ∀ a ∈ l, p a = true ↔ key a = k) : (l.filter p).map key = [k] := by
  induction l with
  | nil => simp at hk
  | cons a l ih =>
    rw [map_cons, nodup_cons] at hn
    by_cases ha : key a = k
    · have hrest : l.filter p = [] := filter_eq_nil_iff.2 fun b hb hpb =>
        hn.1 (mem_map.2 ⟨b, hb, ((hp b (mem_cons_of_mem _ hb)).1 hpb).trans ha.symm⟩)
      rw [filter_cons_of_pos ((hp a mem_cons_self).2 ha), hrest, map_singleton, ha]
    · rw [filter_cons_of_neg fun h => ha ((hp a mem_cons_self).1 h)]
      exact ih hn.2 ((mem_cons.1 hk).resolve_left (Ne.symm ha))
        fun b hb => hp b (mem_cons_of_mem _ hb)

variable [DecidableEq κ]

theorem find?_key_iff (hl : (l.map key).Nodup) {k : κ} {a : α} :
    l.find? (key · = k) = some a ↔ a ∈ l ∧ key a = k := by
  constructor
  · exact fun h => ⟨mem_of_find?_eq_some h, by simpa using find?_some h⟩
  · rintro ⟨ha, rfl⟩
    rcases hfind : l.find? (key · = key a) with - | b
    · exact absurd (find?_eq_none.1 hfind a ha) (by simp)
    · have hb : key b = key a := by simpa using find?_some hfind
      rw [inj_on_of_nodup_map hl (mem_of_find?_eq_some hfind) ha hb]

theorem modifyFirst_eq_map (hl : (l.map key).Nodup) (k : κ) (f : α → α) :
    modifyFirst (key · = k) f l = l.map fun a => if key a = k then f a else a := by
  induction l with
  | nil => rfl
  | cons a l ih =>
    rw [map_cons, nodup_cons] at hl
    rw [modifyFirst]
    by_cases ha : key a = k
    · have hrest : ∀ b ∈ l, key b ≠ k := fun b hb h =>
        hl.1 (mem_map.2 ⟨b, hb, h.trans ha.symm⟩)
      have hid : l.map (fun a => if key a = k then f a else a) = l :=
        (map_congr_left fun b hb => if_neg (hrest b hb)).trans (map_id' l)
      simp [ha, hid]
    · simp [ha, ih hl.2]

/-- Distinct keys of a keyed list are as many as the members they are the keys of. -/
theorem countP_key_mem {ks : List κ} (hl : (l.map key).Nodup) (hks : ks.Nodup)
    (hsub : ∀ k ∈ ks, k ∈ l.map key) : l.countP (key · ∈ ks) = ks.length := by
  have hperm : ((l.map key).filter (· ∈ ks)).Perm ks := by
    refine (perm_ext_iff_of_nodup (hl.filter _) hks).2 fun k => ?_
    rw [mem_filter, decide_eq_true_iff]
    exact ⟨fun h => h.2, fun h => ⟨hsub k h, h⟩⟩
  rw [← hperm.length_eq, ← countP_eq_length_filter, countP_map]
  rfl

/-- Updating the members with given keys so that they no longer satisfy `p`, which they did. -/
theorem countP_update_add {ks : List κ} (hl : (l.map key).Nodup) (hks : ks.Nodup)
    (hsub : ∀ k ∈ ks, k ∈ l.map key) (hp : ∀ a ∈ l, key a ∈ ks → p a = true)
    (hf : ∀ a, p (f a) = false) :
    (l.map fun a => if key a ∈ ks then f a else a).countP p + ks.length = l.countP p := by
  rw [← countP_key_mem hl hks hsub]
  clear hl hsub
  induction l with
  | nil => rfl
  | cons a l ih =>
    have ih := ih fun b hb => hp b (mem_cons_of_mem _ hb)
    rw [map_cons]
    by_cases ha : key a ∈ ks
    · simp only [ha, if_true, countP_cons, hf, hp a mem_cons_self ha, decide_true]
      simp only [Bool.false_eq_true, if_false]
      omega
    · simp only [ha, if_false, countP_cons, decide_false, Bool.false_eq_true]
      omega
end ListUpdate
