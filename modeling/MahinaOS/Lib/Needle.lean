import Mathlib.Data.List.Infix

/-!
# Needles in texts

Programs that do not parse look for one text inside another.  Whether that finds what was meant
depends on separators: a word without a separator can not reach across one.

* `infix_append_cons`: a word without the separator is on one side of it;
* `infix_iff_splitOnP`: such a word is inside one of the parts of the text;
* `tagged_infix_iff`: a tagged word is inside another tagged word if the second word starts with
  the first, under a matching tag, or has the tagged word inside itself.
-/

namespace Needle

open List

variable {α : Type} {sep : α} {p : α → Bool}

theorem infix_append_cons {w l r : List α} (h : sep ∉ w) :
    w <:+: l ++ sep :: r ↔ w <:+: l ∨ w <:+: r := by
  rw [infix_append_iff, infix_cons_iff]
  constructor
  · rintro (hl | (hp | hr) | ⟨l₁, l₂, rfl, h₁, h₂⟩)
    · exact .inl hl
    · rcases prefix_cons_iff.1 hp with rfl | ⟨t, rfl, -⟩
      · exact .inl nil_infix
      · exact absurd mem_cons_self h
    · exact .inr hr
    · rcases prefix_cons_iff.1 h₂ with rfl | ⟨t, rfl, -⟩
      · rw [append_nil]
        exact .inl h₁.isInfix
      · exact absurd (mem_append_right _ mem_cons_self) h
  · rintro (hl | hr)
    · exact .inl hl
    · exact .inr (.inl (.inr hr))

/-- What holds for texts without separators, and for two texts with a separator between them if it
holds for both, holds for every text. -/
theorem separators_induct {motive : List α → Prop}
    (plain : ∀ l, (∀ c ∈ l, p c = false) → motive l)
    (cut : ∀ a c b, p c = true → motive a → motive b → motive (a ++ c :: b)) (l : List α) :
    motive l := by
  induction hn : l.length using Nat.strong_induction_on generalizing l with
  | _ n ih =>
    by_cases hsep : ∃ c ∈ l, p c = true
    · obtain ⟨c, hc, hpc⟩ := hsep
      obtain ⟨a, b, rfl⟩ := append_of_mem hc
      rw [length_append, length_cons] at hn
      exact cut a c b hpc (ih _ (by omega) a rfl) (ih _ (by omega) b rfl)
    · exact plain l fun c hc => by simpa using fun hp => hsep ⟨c, hc, hp⟩

theorem infix_iff_splitOnP {w : List α} (hw : ∀ c ∈ w, p c = false) (l : List α) :
    w <:+: l ↔ ∃ part ∈ l.splitOnP p, w <:+: part := by
  induction l using separators_induct (p := p) with
  | plain l hl => simp [splitOnP_eq_singleton hl]
  | cut a c b hc iha ihb =>
    have hcw : c ∉ w := fun hmem => by simp [hw c hmem] at hc
    rw [infix_append_cons hcw, splitOnP_append_cons a b hc, iha, ihb]
    simp only [mem_append, or_and_right, exists_or]

/-- Every part is inside the text, and has no separators. -/
theorem infix_of_mem_splitOnP {part l : List α} (h : part ∈ l.splitOnP p) :
    part <:+: l ∧ ∀ c ∈ part, p c = false := by
  induction l using separators_induct (p := p) with
  | plain l hl =>
    rw [splitOnP_eq_singleton hl, mem_singleton] at h
    subst h
    exact ⟨infix_rfl, hl⟩
  | cut a c b hc iha ihb =>
    rw [splitOnP_append_cons a b hc, mem_append] at h
    rcases h with h | h
    · exact ⟨(iha h).1.trans (prefix_append a _).isInfix, (iha h).2⟩
    · exact ⟨(ihb h).1.trans ((suffix_cons c b).trans (suffix_append a _)).isInfix, (ihb h).2⟩

/-- Two ways to cut a list at the separator are the same if there are as many before both. -/
theorem append_cons_inj_of_count [DecidableEq α] {a a' b b' : List α}
    (hcount : a.count sep = a'.count sep) (h : a ++ sep :: b = a' ++ sep :: b') :
    a = a' ∧ b = b' := by
  rcases append_eq_append_iff.1 h with ⟨as, rfl, hb⟩ | ⟨as, rfl, hb⟩
  · rcases as with - | ⟨c, as⟩
    · simpa using hb
    · obtain ⟨rfl, -⟩ := cons.inj hb
      rw [count_append, count_cons_self] at hcount
      omega
  · rcases as with - | ⟨c, as⟩
    · simpa [eq_comm] using hb
    · obtain ⟨rfl, -⟩ := cons.inj hb
      rw [count_append, count_cons_self] at hcount
      omega

theorem append_cons_inj {a a' b b' : List α} (ha : sep ∉ a) (ha' : sep ∉ a')
    (h : a ++ sep :: b = a' ++ sep :: b') : a = a' ∧ b = b' := by
  classical
  have hcount : a.count sep = a'.count sep := by
    rw [count_eq_zero_of_not_mem ha, count_eq_zero_of_not_mem ha']
  exact append_cons_inj_of_count hcount h

/-- Fields, each after a separator. -/
def fieldsText (sep : α) (fields : List (List α)) : List α := fields.flatMap (sep :: ·)

/-- Fields can be read back if it is known how many separators there are in each. -/
theorem fieldsText_inj [DecidableEq α] {fs gs : List (List α)}
    (hcount : fs.map (count sep) = gs.map (count sep)) (h : fieldsText sep fs = fieldsText sep gs) :
    fs = gs := by
  induction fs generalizing gs with
  | nil => exact (map_eq_nil_iff.1 hcount.symm).symm
  | cons f fs ih =>
    rcases gs with - | ⟨g, gs⟩
    · cases hcount
    · obtain ⟨hfg, hcounts⟩ := cons.inj hcount
      have hrest : f ++ fieldsText sep fs = g ++ fieldsText sep gs := (cons.inj h).2
      rcases fs with - | ⟨f', fs⟩ <;> rcases gs with - | ⟨g', gs⟩
      · rw [fieldsText, flatMap_nil, append_nil, append_nil] at hrest
        rw [hrest]
      · cases hcounts
      · cases hcounts
      · obtain ⟨rfl, htail⟩ := append_cons_inj_of_count hfg hrest
        rw [ih hcounts (congrArg (sep :: ·) htail)]

theorem tagged_infix_iff {tag tag' : List α} (htag : sep ∉ tag) (htag' : sep ∉ tag')
    (n m : List α) :
    tag ++ sep :: n <:+: tag' ++ sep :: m ↔
      tag <:+ tag' ∧ n <+: m ∨ tag ++ sep :: n <:+: m := by
  constructor
  · rw [infix_append_iff, infix_cons_iff]
    rintro (hl | (hp | hr) | ⟨l₁, l₂, heq, h₁, h₂⟩)
    · exact absurd (hl.subset (mem_append_right _ mem_cons_self)) htag'
    · rcases prefix_cons_iff.1 hp with hnil | ⟨t, heq, ht⟩
      · simp at hnil
      · rcases tag with - | ⟨c, tag⟩
        · obtain ⟨-, rfl⟩ := cons.inj heq
          exact .inl ⟨nil_suffix, ht⟩
        · obtain ⟨rfl, -⟩ := cons.inj heq
          exact absurd mem_cons_self htag
    · exact .inr hr
    · have hl₁ : sep ∉ l₁ := fun hmem => htag' (h₁.subset hmem)
      rcases prefix_cons_iff.1 h₂ with rfl | ⟨t, rfl, ht⟩
      · rw [append_nil] at heq
        exact absurd (heq ▸ mem_append_right _ mem_cons_self) hl₁
      · obtain ⟨rfl, rfl⟩ := append_cons_inj htag hl₁ heq
        exact .inl ⟨h₁, ht⟩
  · rintro (⟨⟨a, rfl⟩, ⟨b, rfl⟩⟩ | h)
    · exact ⟨a, b, by simp⟩
    · exact h.trans ((suffix_cons sep m).trans (suffix_append _ _)).isInfix

end Needle
