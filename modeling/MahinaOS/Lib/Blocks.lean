import Mathlib.Data.List.Basic

/-!
# Streams read in blocks

A hash or a cipher reads its input in blocks of a fixed size and keeps what does not fill a block
for later.  `absorb process n s xs` is what it has then: the state after every whole block of `xs`,
and the rest of `xs`, which is shorter than a block.

* **`absorb_append`**: reading a stream in two pieces is reading the second piece after the rest of
  the first, so where the stream is cut does not matter.
* `absorb_map`: a change of the state that every block respects is respected by the stream.
* `absorb_eq_foldl`: the blocks are those at the positions `0`, `n`, `2 * n` and so on.
-/

namespace Blocks

open List

variable {α σ τ : Type*} {process : σ → List α → σ} {n : Nat}

/-- The state after the whole blocks of the stream, and what is left of it. -/
def absorb (process : σ → List α → σ) (n : Nat) (s : σ) (xs : List α) : σ × List α :=
  if 0 < n ∧ n ≤ xs.length then absorb process n (process s (xs.take n)) (xs.drop n) else (s, xs)
termination_by xs.length
decreasing_by
  rw [length_drop]
  omega

theorem absorb_of_lt {xs : List α} (s : σ) (h : xs.length < n) :
    absorb process n s xs = (s, xs) := by
  rw [absorb, if_neg fun hle => absurd hle.2 (Nat.not_le.2 h)]

theorem absorb_of_le {xs : List α} (s : σ) (hn : 0 < n) (h : n ≤ xs.length) :
    absorb process n s xs = absorb process n (process s (xs.take n)) (xs.drop n) := by
  rw [absorb, if_pos ⟨hn, h⟩]

variable {block : List α}

theorem absorb_block_append (s : σ) (xs : List α) (hn : 0 < n) (h : block.length = n) :
    absorb process n s (block ++ xs) = absorb process n (process s block) xs := by
  rw [absorb_of_le s hn (by rw [length_append]; omega), ← h, take_left, drop_left]

theorem absorb_block (s : σ) (hn : 0 < n) (h : block.length = n) :
    absorb process n s block = (process s block, []) := by
  rw [← append_nil block, absorb_block_append s [] hn h, append_nil,
    absorb_of_lt _ (by simpa using hn)]

theorem absorb_append (s : σ) (xs ys : List α) (hn : 0 < n) :
    absorb process n s (xs ++ ys) =
      absorb process n (absorb process n s xs).1 ((absorb process n s xs).2 ++ ys) := by
  rcases Nat.lt_or_ge xs.length n with h | h
  · rw [absorb_of_lt s h]
  · rw [absorb_of_le s hn h, absorb_of_le s hn (by rw [length_append]; omega),
      take_append_of_le_length h, drop_append_of_le_length h]
    exact absorb_append _ _ _ hn
termination_by xs.length
decreasing_by
  rw [length_drop]
  omega

theorem length_absorb (s : σ) (xs : List α) (hn : 0 < n) :
    (absorb process n s xs).2.length = xs.length % n := by
  rcases Nat.lt_or_ge xs.length n with h | h
  · rw [absorb_of_lt s h, Nat.mod_eq_of_lt h]
  · rw [absorb_of_le s hn h, length_absorb _ _ hn, length_drop, ← Nat.mod_eq_sub_mod h]
termination_by xs.length
decreasing_by
  rw [length_drop]
  omega

theorem length_absorb_lt (s : σ) (xs : List α) (hn : 0 < n) :
    (absorb process n s xs).2.length < n := by
  rw [length_absorb s xs hn]
  exact Nat.mod_lt _ hn

/-- Two ways to process a block that agree through `f` agree on a stream. -/
theorem absorb_map {process' : τ → List α → τ} (f : σ → τ)
    (hf : ∀ s block, block.length = n → f (process s block) = process' (f s) block) (s : σ)
    (xs : List α) (hn : 0 < n) :
    (absorb process' n (f s) xs).1 = f (absorb process n s xs).1 := by
  rcases Nat.lt_or_ge xs.length n with h | h
  · rw [absorb_of_lt _ h, absorb_of_lt _ h]
  · have hlen : (xs.take n).length = n := by rw [length_take, Nat.min_eq_left h]
    rw [absorb_of_le _ hn h, absorb_of_le _ hn h, ← hf s _ hlen]
    exact absorb_map f hf _ _ hn
termination_by xs.length
decreasing_by
  rw [length_drop]
  omega

/-- The blocks of a stream stand at the multiples of their size. -/
theorem absorb_eq_foldl (s : σ) (xs : List α) (hn : 0 < n) :
    (absorb process n s xs).1 = (range (xs.length / n)).foldl
      (fun s i => process s ((xs.drop (n * i)).take n)) s := by
  rcases Nat.lt_or_ge xs.length n with h | h
  · rw [absorb_of_lt s h, Nat.div_eq_of_lt h]
    rfl
  · have hcount : xs.length / n = (xs.drop n).length / n + 1 := by
      rw [length_drop, Nat.div_eq_sub_div hn h]
    rw [absorb_of_le s hn h, absorb_eq_foldl _ _ hn, hcount, range_succ_eq_map,
      foldl_cons, foldl_map, Nat.mul_zero, drop_zero]
    simp only [drop_drop, Nat.mul_succ, Nat.add_comm]
termination_by xs.length
decreasing_by
  rw [length_drop]
  omega

end Blocks
