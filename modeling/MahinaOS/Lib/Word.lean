import Mathlib.Algebra.Group.Nat.Defs
import Mathlib.Algebra.Ring.Int.Defs
import Mathlib.Data.Int.Order.Basic

/-!
# Machine integers

C code that mixes 32-bit signed coordinates with unsigned sizes converts between them, and what the
conversions do outside the common range is where it goes wrong.  This file has the conversions and
the loops over them that such code uses:

* `sizeT v` is the cast of a signed value to `size_t`, which sign-extends: `toNat_sizeT` says that
  it is the value itself where that is not negative;
* `upTo a b` are the values of `for (int32_t i = a; i < b; i++)`, and `mem_upTo` says which they
  are;
* `toInt_toInt32`, `toInt_add_cases`, `toInt_sub_of_le` and `toNat_mul_of_lt` compute without the
  wrap-around, or with it where it can happen.
-/

namespace Word

/-- The cast of a 32-bit signed value to a 64-bit unsigned one. -/
def sizeT (v : Int32) : UInt64 := UInt64.ofInt v.toInt

theorem toNat_sizeT {v : Int32} (h : 0 ≤ v.toInt) : (sizeT v).toNat = v.toInt.toNat := by
  have hlt := v.toInt_lt
  have hmod : v.toInt % 2 ^ 64 = v.toInt := Int.emod_eq_of_lt h (by omega)
  rw [sizeT, UInt64.ofInt, hmod, UInt64.toNat_ofNat_of_lt']
  rw [UInt64.size]
  omega

/-- The values of a loop from `a` up to `b`. -/
def upTo (a b : Int32) : List Int32 :=
  (List.range (b.toInt - a.toInt).toNat).map fun k : Nat => Int32.ofInt (a.toInt + k)

theorem mem_upTo {a b v : Int32} (h : v ∈ upTo a b) : a.toInt ≤ v.toInt ∧ v.toInt < b.toInt := by
  obtain ⟨k, hk, rfl⟩ := List.mem_map.1 h
  have hk := List.mem_range.1 hk
  have ha := a.le_toInt
  have hb := b.toInt_lt
  rw [Int32.toInt_ofInt, Int32.size, Int.bmod_eq_of_le (by omega) (by omega)]
  omega

theorem mem_upTo_iff {a b v : Int32} : v ∈ upTo a b ↔ a.toInt ≤ v.toInt ∧ v.toInt < b.toInt := by
  refine ⟨mem_upTo, fun h => ?_⟩
  refine List.mem_map.2 ⟨(v.toInt - a.toInt).toNat, List.mem_range.2 (by omega), ?_⟩
  have hsum : a.toInt + ((v.toInt - a.toInt).toNat : Int) = v.toInt := by omega
  rw [hsum, Int32.ofInt_toInt]

/-- As a signed value, a word is itself or negative. -/
theorem toInt_toInt32_le (w : UInt32) : w.toInt32.toInt ≤ w.toNat := by
  show w.toBitVec.toInt ≤ w.toNat
  show (if 2 * w.toNat < 2 ^ 32 then (w.toNat : Int) else w.toNat - (2 ^ 32 : Nat)) ≤ w.toNat
  split
  · exact Int.le_refl _
  · omega

theorem toInt_toInt32 {w : UInt32} (h : w.toNat < 2 ^ 31) : w.toInt32.toInt = w.toNat := by
  show w.toBitVec.toInt = w.toNat
  exact if_pos (by show 2 * w.toNat < 2 ^ 32; omega)

/-- A sum is exact, or it wraps to a negative value. -/
theorem toInt_add_cases {a b : Int32} (hb : 0 ≤ b.toInt) :
    (a + b).toInt = a.toInt + b.toInt ∨ (a + b).toInt < 0 := by
  have ha := a.le_toInt
  have ha' := a.toInt_lt
  have hb' := b.toInt_lt
  rw [Int32.toInt_add]
  rcases Int.lt_or_le (a.toInt + b.toInt) (2 ^ 31) with hlt | hle
  · left
    exact Int.bmod_eq_of_le (by omega) (by omega)
  · right
    rw [Int.bmod_def]
    omega

theorem toInt_sub_of_le {a b : Int32} (hb : b.toInt ≤ a.toInt) (h : a.toInt - b.toInt < 2 ^ 31) :
    (a - b).toInt = a.toInt - b.toInt := by
  rw [Int32.toInt_sub]
  exact Int.bmod_eq_of_le (by omega) (by omega)

theorem toNat_mul_of_lt {a b : UInt64} (ha : a.toNat < 2 ^ 32) (hb : b.toNat < 2 ^ 32) :
    (a * b).toNat = a.toNat * b.toNat := by
  have hlt : a.toNat * b.toNat < 2 ^ 32 * 2 ^ 32 := Nat.mul_lt_mul'' ha hb
  exact Nat.mod_eq_of_lt hlt

end Word
