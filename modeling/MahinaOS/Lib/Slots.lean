import MahinaOS.Lib.ListUpdate

/-!
# Tables of slots

A fixed array of slots, each free or holding an entry, is a list of options.  A program fills the
first free slot, frees the first slot whose entry passes a test, or frees all of those; what is in
the table afterwards is said by one lemma each.

When two slots may hold entries that pass the same test, freeing the first leaves the other: that is
why `mem_freeFirst` speaks of the table without its first match.

`follow` keeps a second table beside the first, with some of its entries: those it has already, as
long as they stay, and new ones if it is told to take them.  A table that follows (`Follows`) does
what the table it follows does, restricted to its own entries.
-/

namespace Slots

open ListUpdate List

universe u

variable {α : Type u}

def fillFirst (a : α) (l : List (Option α)) : List (Option α) :=
  modifyFirst Option.isNone (fun _ => some a) l

def freeFirst (p : α → Bool) (l : List (Option α)) : List (Option α) :=
  modifyFirst (Option.any p) (fun _ => none) l

def freeAll (p : α → Bool) (l : List (Option α)) : List (Option α) :=
  l.map (Option.filter fun a => !p a)

variable {p : α → Bool} {a b : α} {l : List (Option α)}

theorem mem_fillFirst (hfree : none ∈ l) : some b ∈ fillFirst a l ↔ b = a ∨ some b ∈ l := by
  induction l with
  | nil => cases hfree
  | cons o l ih =>
    rcases o with - | c
    · simp [fillFirst, modifyFirst]
    · have hrest := ih (by simpa using hfree)
      simp only [fillFirst] at hrest
      simp [fillFirst, modifyFirst, hrest, or_left_comm]

theorem mem_freeFirst : some b ∈ freeFirst p l ↔ some b ∈ l.eraseP (Option.any p) := by
  induction l with
  | nil => exact .rfl
  | cons o l ih =>
    rw [freeFirst] at ih ⊢
    rw [modifyFirst, eraseP_cons]
    cases ho : Option.any p o with
    | true => simp
    | false => simp [ih]

theorem mem_freeAll : some b ∈ freeAll p l ↔ some b ∈ l ∧ p b = false := by
  constructor
  · intro h
    obtain ⟨o, ho, hb⟩ := mem_map.1 h
    obtain ⟨rfl, hp⟩ := Option.filter_eq_some_iff.1 hb
    exact ⟨ho, by simpa using hp⟩
  · rintro ⟨h, hp⟩
    exact mem_map.2 ⟨some b, h, by simp [hp]⟩

/-- Filling a slot and freeing it with others is freeing the others. -/
theorem freeAll_fillFirst (ha : p a = true) : freeAll p (fillFirst a l) = freeAll p l := by
  induction l with
  | nil => rfl
  | cons o l ih =>
    rcases o with - | b
    · simp [freeAll, fillFirst, modifyFirst, ha]
    · simp only [freeAll, fillFirst] at ih
      simp [freeAll, fillFirst, modifyFirst, ih]

/-! ## Following a table -/

/-- The entry of a slot that is followed: an old one while it stays, a new one if it is taken. -/
def followSlot (taken : Bool) (before after followed : Option α) : Option α :=
  if followed.isSome || before.isNone && taken then after else none

/-- Follow a table from `before` to `after`. -/
def follow (taken : Bool) : List (Option α) → List (Option α) → List (Option α) → List (Option α)
  | b :: before, a :: after, f :: followed =>
    followSlot taken b a f :: follow taken before after followed
  | _, _, _ => []

/-- Slot by slot, the second table has the entry of the first, or none. -/
def Follows (table followed : List (Option α)) : Prop :=
  Forall₂ (fun t f => f = none ∨ f = t) table followed

theorem follows_none (l : List (Option α)) : Follows l (l.map fun _ => none) := by
  rw [Follows, forall₂_map_right_iff, forall₂_same]
  exact fun _ _ => .inl rfl

variable {taken : Bool} {table after followed : List (Option α)}

theorem Follows.follow (hlen : table.length = after.length) (h : Follows table followed) :
    Follows after (follow taken table after followed) := by
  induction h generalizing after with
  | nil =>
    rw [eq_nil_of_length_eq_zero hlen.symm]
    exact .nil
  | cons _ _ ih =>
    rcases after with - | ⟨a, after⟩
    · cases hlen
    · refine .cons ?_ (ih (Nat.succ.inj hlen))
      rw [followSlot]
      split
      · exact .inr rfl
      · exact .inl rfl

theorem followSlot_same {t f : Option α} (h : f = none ∨ f = t) : followSlot taken t t f = f := by
  rcases h with rfl | rfl
  · cases t <;> simp [followSlot]
  · cases f <;> simp [followSlot]

section

variable (h : Follows table followed)

include h

theorem Follows.same : Slots.follow taken table table followed = followed := by
  induction h with
  | nil => rfl
  | cons hslot _ ih => rw [Slots.follow, followSlot_same hslot, ih]

theorem Follows.freeAll :
    Slots.follow taken table (freeAll p table) followed = Slots.freeAll p followed := by
  induction h with
  | nil => rfl
  | @cons t f _ _ hslot _ ih =>
    have hhead : followSlot taken t (t.filter fun a => !p a) f = f.filter fun a => !p a := by
      rcases hslot with rfl | rfl
      · cases t <;> simp [followSlot]
      · cases f <;> simp [followSlot]
    exact congrArg₂ cons hhead ih

theorem Follows.mem_fillFirst (hfree : none ∈ table) :
    some b ∈ Slots.follow taken table (fillFirst a table) followed ↔
      taken = true ∧ b = a ∨ some b ∈ followed := by
  induction h with
  | nil => cases hfree
  | @cons t f table followed hslot hrest ih =>
    rcases t with - | c
    · have hf : f = none := hslot.elim id id
      have hsame : Slots.follow taken table table followed = followed := Follows.same hrest
      cases taken <;> simp [fillFirst, modifyFirst, Slots.follow, followSlot, hf, hsame]
    · have htail := ih (by simpa using hfree)
      rw [fillFirst] at htail ⊢
      rw [modifyFirst, if_neg (by simp), Slots.follow, followSlot_same hslot, mem_cons, htail,
        mem_cons, or_left_comm]

/-- The entries followed, without that of the first slot whose entry passes a test. -/
def without (p : α → Bool) (table followed : List (Option α)) : List (Option α) :=
  ((table.zip followed).eraseP fun x => x.1.any p).map Prod.snd

theorem Follows.mem_freeFirst :
    some b ∈ Slots.follow taken table (freeFirst p table) followed ↔
      some b ∈ without p table followed := by
  induction h with
  | nil => exact .rfl
  | @cons t f table followed hslot hrest ih =>
    have hsame : Slots.follow taken table table followed = followed := Follows.same hrest
    have hsnd : (table.zip followed).map Prod.snd = followed :=
      map_snd_zip (Nat.le_of_eq (Forall₂.length_eq hrest).symm)
    rw [without, freeFirst] at ih ⊢
    rw [modifyFirst, zip_cons_cons, eraseP_cons]
    cases ht : t.any p with
    | true => simp [Slots.follow, followSlot, hsame, hsnd]
    | false => simp [Slots.follow, followSlot_same hslot, ih]

/-- What is left out passes the test. -/
theorem Follows.mem_without (hb : p b = false) :
    some b ∈ without p table followed ↔ some b ∈ followed := by
  induction h with
  | nil => exact .rfl
  | @cons t f table followed hslot hrest ih =>
    have hsnd : (table.zip followed).map Prod.snd = followed :=
      map_snd_zip (Nat.le_of_eq (Forall₂.length_eq hrest).symm)
    rw [without] at ih ⊢
    rw [zip_cons_cons, eraseP_cons]
    cases ht : t.any p with
    | true =>
      have hne : some b ≠ f := fun hf => by
        rcases hslot with hnone | heq
        · rw [hnone] at hf
          cases hf
        · rw [← heq, ← hf, Option.any_some, hb] at ht
          cases ht
      simp [hsnd, hne]
    | false => simp [ih]

end

theorem mem_of_mem_without (h : some b ∈ without p table followed) : some b ∈ followed := by
  obtain ⟨x, hx, hb⟩ := mem_map.1 h
  exact hb ▸ (of_mem_zip (mem_of_mem_eraseP hx)).2

end Slots
