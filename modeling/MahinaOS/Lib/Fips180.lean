import Mathlib.Algebra.Group.Nat.Defs
import Mathlib.Data.Nat.NthRoot.Defs
import Mathlib.Data.Nat.Prime.Nth
import MahinaOS.Lib.Blocks
import MahinaOS.Lib.Bytes

/-!
# SHA-256 as FIPS 180-4 defines it

The standard, section by section, on strings of bits.  Nothing here is a program: the schedule is
its recurrence, the padding is the smallest one that the congruence allows, and the constants are
not a table but what the tables are taken from.

* §3.2, §4.1.2: `ch`, `maj` and the four functions `bigSigma0`, `bigSigma1`, `sigma0`, `sigma1` of
  32-bit words.
* §4.2.2, §5.3.3: `k t` and `initialHash` are the first thirty-two bits of the fractional parts of
  the cube roots of the first sixty-four primes and of the square roots of the first eight.
  `nth_prime_eq` reads them off a list of primes.
* §5.1.1: `pad` adds a one bit, zeros, and the length as a 64-bit number; `zeros_spec` and
  `zeros_least` say how many zeros there are.
* §5.2.1, §6.2.2: `word` parses a block, `schedule` expands it, `compress` is the loop of sixty-four
  rounds and the addition after it.
* **`sha256`** is the digest of a message.

A message of bytes is its bits, the most significant one of each byte first (`ofBytes`), and
**`sha256_ofBytes`** is the digest as a stream of 64-byte blocks.
-/

namespace Fips180

open List

/-! ## Functions and constants -/

def ch (x y z : BitVec 32) : BitVec 32 := (x &&& y) ^^^ (~~~x &&& z)

def maj (x y z : BitVec 32) : BitVec 32 := (x &&& y) ^^^ (x &&& z) ^^^ (y &&& z)

def bigSigma0 (x : BitVec 32) : BitVec 32 :=
  x.rotateRight 2 ^^^ x.rotateRight 13 ^^^ x.rotateRight 22

def bigSigma1 (x : BitVec 32) : BitVec 32 :=
  x.rotateRight 6 ^^^ x.rotateRight 11 ^^^ x.rotateRight 25

def sigma0 (x : BitVec 32) : BitVec 32 := x.rotateRight 7 ^^^ x.rotateRight 18 ^^^ (x >>> 3)

def sigma1 (x : BitVec 32) : BitVec 32 := x.rotateRight 17 ^^^ x.rotateRight 19 ^^^ (x >>> 10)

/-- The first thirty-two bits of the fractional part of the `n`-th root of `p`: the root of
`p * 2 ^ (32 * n)` is that of `p` moved by thirty-two places. -/
def rootBits (n p : Nat) : BitVec 32 := BitVec.ofNat 32 (Nat.nthRoot n (p * 2 ^ (32 * n)))

/-- The constant of round `t`. -/
noncomputable def k (t : Nat) : BitVec 32 := rootBits 3 (Nat.nth Nat.Prime t)

/-- Word `j` of the initial hash value. -/
noncomputable def initialWord (j : Nat) : BitVec 32 := rootBits 2 (Nat.nth Nat.Prime j)

/-- The primes below `n`, in order. -/
def primesBelow (n : Nat) : List Nat := (range n).filter Nat.Prime

theorem primesBelow_succ (n : Nat) :
    primesBelow (n + 1) = primesBelow n ++ if n.Prime then [n] else [] := by
  rw [primesBelow, range_succ, filter_append]
  congr 1
  by_cases hn : n.Prime <;> simp [hn]

theorem length_primesBelow (n : Nat) : (primesBelow n).length = Nat.count Nat.Prime n := by
  induction n with
  | zero => rfl
  | succ n ih =>
    rw [primesBelow_succ, length_append, ih, Nat.count_succ]
    by_cases hn : n.Prime <;> simp [hn]

variable {n t : Nat} {m : Nat → BitVec 32}

theorem nth_prime_eq (h : t < (primesBelow n).length) :
    Nat.nth Nat.Prime t = (primesBelow n).getD t 0 := by
  induction n with
  | zero => exact absurd h (Nat.not_lt_zero t)
  | succ n ih =>
    rw [primesBelow_succ] at h ⊢
    rcases Nat.lt_or_ge t (primesBelow n).length with ht | ht
    · rw [ih ht, getD_append _ _ _ _ ht]
    · rw [length_append] at h
      by_cases hn : n.Prime
      · -- as many primes are below the last one as stand before it in the list
        rw [if_pos hn, length_singleton] at h
        have hlast : t = (primesBelow n).length := by omega
        rw [if_pos hn, hlast, getD_append_right _ _ _ _ (Nat.le_refl _), Nat.sub_self,
          length_primesBelow, Nat.nth_count hn]
        rfl
      · rw [if_neg hn, length_nil] at h
        omega

/-! ## Padding -/

/-- The number as a string of bits, the most significant one first. -/
def bitsOf {n : Nat} (w : BitVec n) : List Bool := ofFn fun i : Fin n => w.getMsbD i

variable (w : BitVec n) (bytes : Bytes)

@[simp] theorem length_bitsOf : (bitsOf w).length = n := by
  simp [bitsOf]

theorem getElem?_bitsOf {i : Nat} (h : i < n) : (bitsOf w)[i]? = some (w.getMsbD i) := by
  rw [bitsOf, List.getElem?_ofFn, dif_pos h]

/-- How many zeros stand between the one bit and the length of a message of `l` bits. -/
def zeros (l : Nat) : Nat := (959 - l % 512) % 512

theorem zeros_spec (l : Nat) : (l + 1 + zeros l) % 512 = 448 := by
  rw [zeros]
  omega

theorem zeros_least {l z : Nat} (h : (l + 1 + z) % 512 = 448) : zeros l ≤ z := by
  rw [zeros]
  omega

def pad (m : List Bool) : List Bool :=
  m ++ true :: replicate (zeros m.length) false ++ bitsOf (BitVec.ofNat 64 m.length)

/-! ## The hash computation -/

/-- Word `t` of a block. -/
def word (block : List Bool) (t : Nat) : BitVec 32 :=
  (BitVec.ofBoolListBE ((block.drop (32 * t)).take 32)).setWidth 32

/-- The message schedule of a block with the words `m`. -/
def schedule (m : Nat → BitVec 32) (t : Nat) : BitVec 32 :=
  if t < 16 then m t
  else sigma1 (schedule m (t - 2)) + schedule m (t - 7) + sigma0 (schedule m (t - 15)) +
    schedule m (t - 16)

/-- Eight words: the working variables, and the words of a hash value. -/
@[ext]
structure Words where
  a : BitVec 32
  b : BitVec 32
  c : BitVec 32
  d : BitVec 32
  e : BitVec 32
  f : BitVec 32
  g : BitVec 32
  h : BitVec 32

/-- One round, with the constant `kt` and the schedule's word `wt`. -/
def round (v : Words) (kt wt : BitVec 32) : Words :=
  let t1 := v.h + bigSigma1 v.e + ch v.e v.f v.g + kt + wt
  let t2 := bigSigma0 v.a + maj v.a v.b v.c
  { a := t1 + t2, b := v.a, c := v.b, d := v.c, e := v.d + t1, f := v.e, g := v.f, h := v.g }

/-- The working variables after the first `n` rounds over a block. -/
noncomputable def rounds (v : Words) (m : Nat → BitVec 32) (n : Nat) : Words :=
  (range n).foldl (fun v t => round v (k t) (schedule m t)) v

/-- The next intermediate hash value. -/
noncomputable def compress (hash : Words) (m : Nat → BitVec 32) : Words :=
  let v := rounds hash m 64
  { a := hash.a + v.a, b := hash.b + v.b, c := hash.c + v.c, d := hash.d + v.d
    e := hash.e + v.e, f := hash.f + v.f, g := hash.g + v.g, h := hash.h + v.h }

noncomputable def initialHash : Words where
  a := initialWord 0
  b := initialWord 1
  c := initialWord 2
  d := initialWord 3
  e := initialWord 4
  f := initialWord 5
  g := initialWord 6
  h := initialWord 7

/-- The hash value after the blocks of a padded message. -/
noncomputable def hashBlocks (hash : Words) (padded : List Bool) : Words :=
  (range (padded.length / 512)).foldl
    (fun hash i => compress hash (word ((padded.drop (512 * i)).take 512))) hash

def digest (v : Words) : List Bool := [v.a, v.b, v.c, v.d, v.e, v.f, v.g, v.h].flatMap bitsOf

/-- The SHA-256 digest of a message. -/
noncomputable def sha256 (m : List Bool) : List Bool := digest (hashBlocks initialHash (pad m))

/-! ## Messages of bytes -/

/-- The bits of a string of bytes. -/
def ofBytes (bytes : Bytes) : List Bool := bytes.flatMap fun b => bitsOf b.toBitVec

@[simp] theorem ofBytes_nil : ofBytes [] = [] := rfl

@[simp] theorem ofBytes_cons (b : UInt8) (bytes : Bytes) :
    ofBytes (b :: bytes) = bitsOf b.toBitVec ++ ofBytes bytes := rfl

@[simp] theorem ofBytes_append (xs ys : Bytes) :
    ofBytes (xs ++ ys) = ofBytes xs ++ ofBytes ys := flatMap_append

@[simp] theorem length_ofBytes : (ofBytes bytes).length = 8 * bytes.length := by
  induction bytes with
  | nil => rfl
  | cons b bytes ih =>
    rw [ofBytes_cons, length_append, length_bitsOf, ih, length_cons]
    omega

theorem drop_ofBytes (n : Nat) : (ofBytes bytes).drop (8 * n) = ofBytes (bytes.drop n) := by
  induction n generalizing bytes with
  | zero => rfl
  | succ n ih =>
    rcases bytes with - | ⟨b, bytes⟩
    · simp
    · rw [ofBytes_cons, drop_succ_cons, ← ih bytes, drop_append,
        drop_eq_nil_of_le (by rw [length_bitsOf]; omega)]
      congr 1

theorem take_ofBytes (n : Nat) : (ofBytes bytes).take (8 * n) = ofBytes (bytes.take n) := by
  induction n generalizing bytes with
  | zero => rfl
  | succ n ih =>
    cases bytes with
    | nil => simp
    | cons b bytes =>
      rw [ofBytes_cons, take_succ_cons, ofBytes_cons, ← ih bytes, take_append,
        take_of_length_le (by rw [length_bitsOf]; omega)]
      congr 2

/-- The bytes of a number, the most significant one first. -/
def beBytes {n : Nat} (count : Nat) (w : BitVec n) : Bytes :=
  (range count).map fun i => ⟨w.extractLsb' (8 * (count - 1 - i)) 8⟩

@[simp] theorem length_beBytes (count : Nat) (w : BitVec n) : (beBytes count w).length = count := by
  simp [beBytes]

theorem getElem_ofBytes {i j : Nat} (hj : j < 8) :
    (ofBytes bytes)[8 * i + j]? = bytes[i]?.map fun b => b.toBitVec.getMsbD j := by
  have hhead : bytes[i]? = (bytes.drop i)[0]? := by rw [getElem?_drop, Nat.add_zero]
  rw [← getElem?_drop, drop_ofBytes, hhead]
  rcases bytes.drop i with - | ⟨b, -⟩
  · simp
  · rw [ofBytes_cons, getElem?_append_left (by simpa using hj), getElem?_bitsOf _ hj]
    rfl

theorem ofBytes_beBytes {count : Nat} (h : n = 8 * count) :
    ofBytes (beBytes count w) = bitsOf w := by
  refine ext_getElem? fun m => ?_
  obtain ⟨i, j, hj, rfl⟩ : ∃ i j, j < 8 ∧ m = 8 * i + j :=
    ⟨m / 8, m % 8, Nat.mod_lt _ (by omega), by omega⟩
  rw [getElem_ofBytes _ hj, beBytes, getElem?_map]
  rcases Nat.lt_or_ge i count with hi | hi
  · have hin : 8 * i + j < n := by omega
    have hpos : 8 * (count - 1 - i) + (8 - 1 - j) = n - 1 - (8 * i + j) := by omega
    have hbyte : 8 - 1 - j < 8 := by omega
    rw [getElem?_range hi, getElem?_bitsOf _ hin]
    simp [Option.map_some, BitVec.getMsbD, hj, hin, hpos, hbyte, decide_true, Bool.true_and]
  · rw [getElem?_eq_none (by simpa using hi), getElem?_eq_none (by simp; omega)]
    rfl

theorem bitsOf_append {k : Nat} (v : BitVec n) (w : BitVec k) :
    bitsOf (v ++ w) = bitsOf v ++ bitsOf w := by
  refine ext_getElem? fun i => ?_
  rcases Nat.lt_or_ge i (n + k) with hi | hi
  · rw [getElem?_bitsOf _ hi, BitVec.getMsbD_append]
    rcases Nat.lt_or_ge i n with hn | hn
    · rw [getElem?_append_left (by simpa using hn), getElem?_bitsOf _ hn, if_neg (Nat.not_le.2 hn)]
    · rw [getElem?_append_right (by simpa using hn), length_bitsOf,
        getElem?_bitsOf _ (by omega), if_pos hn]
  · rw [getElem?_eq_none (by simpa using hi), getElem?_eq_none (by simpa using hi)]

theorem setWidth_ofBoolListBE : (BitVec.ofBoolListBE (bitsOf w)).setWidth n = w := by
  refine BitVec.eq_of_getMsbD_eq fun i hi => ?_
  simp [hi, bitsOf]

/-- The word of four bytes, the most significant one first. -/
def ofBeBytes (b0 b1 b2 b3 : UInt8) : BitVec 32 :=
  b0.toBitVec ++ b1.toBitVec ++ b2.toBitVec ++ b3.toBitVec

theorem word_ofBytes {block : Bytes} (h : 4 * t + 4 ≤ block.length) :
    word (ofBytes block) t = ofBeBytes (block.getD (4 * t) 0) (block.getD (4 * t + 1) 0)
      (block.getD (4 * t + 2) 0) (block.getD (4 * t + 3) 0) := by
  have hbytes : (block.drop (4 * t)).take 4 = [block.getD (4 * t) 0, block.getD (4 * t + 1) 0,
      block.getD (4 * t + 2) 0, block.getD (4 * t + 3) 0] := by
    refine ext_getElem (by simp; omega) fun i hi hi' => ?_
    have hcases : i = 0 ∨ i = 1 ∨ i = 2 ∨ i = 3 := by
      simp only [length_cons, length_nil] at hi'
      omega
    rw [getElem_take, getElem_drop]
    rcases hcases with rfl | rfl | rfl | rfl <;> exact (getD_eq_getElem _ _ _).symm
  have hbits : ((ofBytes block).drop (32 * t)).take 32 = bitsOf (ofBeBytes (block.getD (4 * t) 0)
      (block.getD (4 * t + 1) 0) (block.getD (4 * t + 2) 0) (block.getD (4 * t + 3) 0)) := by
    rw [show 32 * t = 8 * (4 * t) by omega, drop_ofBytes, take_ofBytes _ 4, hbytes, ofBeBytes,
      bitsOf_append, bitsOf_append, bitsOf_append]
    simp
  rw [word, hbits, setWidth_ofBoolListBE]

/-- Padding a message of bytes adds a byte with its highest bit set, zero bytes and the length. -/
def padBytes (bytes : Bytes) : Bytes :=
  bytes ++ 0x80 :: replicate (zeros (8 * bytes.length) / 8) 0 ++
    beBytes 8 (BitVec.ofNat 64 (8 * bytes.length))

theorem ofBytes_replicate_zero (n : Nat) : ofBytes (replicate n 0) = replicate (8 * n) false := by
  induction n with
  | zero => rfl
  | succ n ih =>
    rw [replicate_succ, ofBytes_cons, ih, show 8 * (n + 1) = 8 + 8 * n by omega, replicate_add]
    congr 1

theorem pad_ofBytes : pad (ofBytes bytes) = ofBytes (padBytes bytes) := by
  obtain ⟨z, hz⟩ : ∃ z, zeros (8 * bytes.length) = 7 + 8 * z := by
    refine ⟨zeros (8 * bytes.length) / 8, ?_⟩
    rw [zeros]
    omega
  have hdiv : (7 + 8 * z) / 8 = z := by omega
  have hone : bitsOf (0x80 : UInt8).toBitVec = true :: replicate 7 false := by decide
  rw [pad, padBytes, ofBytes_append, ofBytes_append, ofBytes_cons, ofBytes_replicate_zero,
    ofBytes_beBytes _ rfl, length_ofBytes, hone, hz, hdiv, replicate_add]
  rfl

theorem hashBlocks_ofBytes (hash : Words) (bytes : Bytes) :
    hashBlocks hash (ofBytes bytes) =
      (Blocks.absorb (fun hash block => compress hash (word (ofBytes block))) 64 hash bytes).1 := by
  have hcount : 8 * bytes.length / 512 = bytes.length / 64 := by omega
  have hblock (i : Nat) :
      ((ofBytes bytes).drop (512 * i)).take 512 = ofBytes ((bytes.drop (64 * i)).take 64) := by
    rw [show 512 * i = 8 * (64 * i) by omega, drop_ofBytes, take_ofBytes _ 64]
  rw [Blocks.absorb_eq_foldl _ _ (by omega), hashBlocks, length_ofBytes, hcount]
  simp only [hblock]

theorem sha256_ofBytes : sha256 (ofBytes bytes) = digest (Blocks.absorb
      (fun hash block => compress hash (word (ofBytes block))) 64 initialHash (padBytes bytes)).1 :=
  by rw [sha256, pad_ofBytes, hashBlocks_ofBytes]

end Fips180
