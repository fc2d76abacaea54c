import Mathlib.Data.Vector.Defs
import MahinaOS.Lib.Fips180

/-!
# The SHA-256 of `mahina-control`

`mahina-control/src/sha256.rs` is a streaming hasher: `new`, any number of calls of `update`, and
`finalize`.  A `Sha256` holds the hash value after the whole blocks read so far, a block's worth of
buffer with the bytes that came after them, and the length of everything read.

The file follows the source: `processBlock` is the compression of one block, `update` fills the
buffer and processes whole blocks, and `finalize` pads in the buffer, with a block of its own when
the length does not fit behind the first padding byte.

* `processBlock_spec`: one block is one step of the hash computation of FIPS 180-4, with the tables
  `K` and of `new` being the constants the standard describes (`getD_K`, `words_new`).
* `Represents s xs` says what a hasher that has read `xs` holds; `represents_new` and
  `represents_update` keep it, however the input is cut, and `finalize_spec` pads it.
* **`finalize_updates`**: the bits of the digest of any list of chunks are those the standard gives
  for their concatenation.
-/

namespace Control

open Fips180 Blocks Nat
open List hiding Vector

/-! ## One block -/

def K : List UInt32 := [
  0x428a2f98, 0x71374491, 0xb5c0fbcf, 0xe9b5dba5, 0x3956c25b, 0x59f111f1, 0x923f82a4, 0xab1c5ed5,
  0xd807aa98, 0x12835b01, 0x243185be, 0x550c7dc3, 0x72be5d74, 0x80deb1fe, 0x9bdc06a7, 0xc19bf174,
  0xe49b69c1, 0xefbe4786, 0x0fc19dc6, 0x240ca1cc, 0x2de92c6f, 0x4a7484aa, 0x5cb0a9dc, 0x76f988da,
  0x983e5152, 0xa831c66d, 0xb00327c8, 0xbf597fc7, 0xc6e00bf3, 0xd5a79147, 0x06ca6351, 0x14292967,
  0x27b70a85, 0x2e1b2138, 0x4d2c6dfc, 0x53380d13, 0x650a7354, 0x766a0abb, 0x81c2c92e, 0x92722c85,
  0xa2bfe8a1, 0xa81a664b, 0xc24b8b70, 0xc76c51a3, 0xd192e819, 0xd6990624, 0xf40e3585, 0x106aa070,
  0x19a4c116, 0x1e376c08, 0x2748774c, 0x34b0bcb5, 0x391c0cb3, 0x4ed8aa4a, 0x5b9cca4f, 0x682e6ff3,
  0x748f82ee, 0x78a5636f, 0x84c87814, 0x8cc70208, 0x90befffa, 0xa4506ceb, 0xbef9a3f7, 0xc67178f2]

/-- `u32::rotate_right`. -/
def rotateRight (x : UInt32) (n : Nat) : UInt32 := ⟨x.toBitVec.rotateRight n⟩

/-- `u32::from_be_bytes` of the four bytes of a block from position `i` on. -/
def fromBeBytes (block : Bytes) (i : Nat) : UInt32 :=
  ⟨ofBeBytes (block.getD i 0) (block.getD (i + 1) 0) (block.getD (i + 2) 0) (block.getD (i + 3) 0)⟩

/-- The first loop over `w`: the words of the block. -/
def loadWords (block : Bytes) : List UInt32 :=
  (range 16).foldl (fun w i => w.set i (fromBeBytes block (i * 4))) (replicate 64 0)

/-- The word that the second loop computes for position `i`. -/
def nextWord (w : List UInt32) (i : Nat) : UInt32 :=
  let w15 := w.getD (i - 15) 0
  let w2 := w.getD (i - 2) 0
  let s0 := rotateRight w15 7 ^^^ rotateRight w15 18 ^^^ (w15 >>> 3)
  let s1 := rotateRight w2 17 ^^^ rotateRight w2 19 ^^^ (w2 >>> 10)
  w.getD (i - 16) 0 + s0 + w.getD (i - 7) 0 + s1

/-- The second loop over `w`. -/
def expandWords (w : List UInt32) : List UInt32 :=
  (range' 16 48).foldl (fun w i => w.set i (nextWord w i)) w

/-- The variables `a` to `h`. -/
structure Working where
  a : UInt32
  b : UInt32
  c : UInt32
  d : UInt32
  e : UInt32
  f : UInt32
  g : UInt32
  h : UInt32

/-- The body of the loop over the rounds. -/
def roundStep (w : List UInt32) (v : Working) (i : Nat) : Working :=
  let s1 := rotateRight v.e 6 ^^^ rotateRight v.e 11 ^^^ rotateRight v.e 25
  let ch := (v.e &&& v.f) ^^^ (~~~v.e &&& v.g)
  let temp1 := v.h + s1 + ch + K.getD i 0 + w.getD i 0
  let s0 := rotateRight v.a 2 ^^^ rotateRight v.a 13 ^^^ rotateRight v.a 22
  let maj := (v.a &&& v.b) ^^^ (v.a &&& v.c) ^^^ (v.b &&& v.c)
  let temp2 := s0 + maj
  { h := v.g, g := v.f, f := v.e, e := v.d + temp1, d := v.c, c := v.b, b := v.a
    a := temp1 + temp2 }

/-- The hash value after one more block. -/
def processBlock (state : Vector UInt32 8) (block : Bytes) : Vector UInt32 8 :=
  let w := expandWords (loadWords block)
  let v := (range 64).foldl (roundStep w)
    { a := state[0], b := state[1], c := state[2], d := state[3]
      e := state[4], f := state[5], g := state[6], h := state[7] }
  #v[state[0] + v.a, state[1] + v.b, state[2] + v.c, state[3] + v.d,
    state[4] + v.e, state[5] + v.f, state[6] + v.g, state[7] + v.h]

/-! ## One block is one step of the standard's computation -/

theorem getD_K {t : Nat} (ht : t < 64) : (K.getD t 0).toBitVec = k t := by
  have htable : K.map UInt32.toBitVec = (Fips180.primesBelow 312).map (rootBits 3) := by
    decide +kernel
  have hcount : (Fips180.primesBelow 312).length = 64 := by
    rw [← length_map (rootBits 3), ← htable]
    rfl
  have hK : (K.map UInt32.toBitVec).getD t (rootBits 3 0) = (K.getD t 0).toBitVec :=
    getD_map K 0 UInt32.toBitVec
  rw [k, nth_prime_eq (hcount.symm ▸ ht), ← hK, htable, getD_map]

/-- The words of `w` up to `n` are those of the schedule. -/
structure Scheduled (m : Nat → BitVec 32) (w : List UInt32) (n : Nat) : Prop where
  length_eq : w.length = 64
  getD_eq : ∀ i < n, (w.getD i 0).toBitVec = schedule m i

variable {m : Nat → BitVec 32} {w : List UInt32} {block : Bytes}

theorem Scheduled.set {n : Nat} (h : Scheduled m w n) (hn : n < 64) {v : UInt32}
    (hv : v.toBitVec = schedule m n) : Scheduled m (w.set n v) (n + 1) := by
  refine ⟨by rw [length_set, h.length_eq], fun i hi => ?_⟩
  have hlen := h.length_eq
  rcases Nat.lt_succ_iff_lt_or_eq.1 hi with hi | rfl
  · rw [getD_eq_getElem?_getD, getElem?_set_ne (by omega), ← getD_eq_getElem?_getD, h.getD_eq i hi]
  · rw [getD_eq_getElem?_getD, getElem?_set_self (by omega), Option.getD_some, hv]

theorem scheduled_loadWords (hblock : block.length = 64) :
    Scheduled (word (ofBytes block)) (loadWords block) 16 := by
  have hloop : ∀ n ≤ 16, Scheduled (word (ofBytes block)) ((range n).foldl
      (fun w i => w.set i (fromBeBytes block (i * 4))) (replicate 64 0)) n := by
    intro n hn
    induction n with
    | zero => exact ⟨length_replicate, fun i hi => absurd hi (not_lt_zero i)⟩
    | succ n ih =>
      rw [range_succ, foldl_append]
      refine (ih (by omega)).set (by omega) ?_
      rw [schedule, if_pos (by omega), word_ofBytes (by omega), fromBeBytes, mul_comm n 4]
  exact hloop 16 (le_refl 16)

theorem toBitVec_nextWord {i : Nat} (h : Scheduled m w i) (hi : 16 ≤ i) :
    (nextWord w i).toBitVec = schedule m i := by
  rw [schedule, if_neg (not_lt.2 hi), ← h.getD_eq (i - 2) (by omega),
    ← h.getD_eq (i - 7) (by omega), ← h.getD_eq (i - 15) (by omega),
    ← h.getD_eq (i - 16) (by omega)]
  show _ + sigma0 _ + _ + sigma1 _ = _
  ac_rfl

theorem scheduled_expandWords (h : Scheduled m w 16) : Scheduled m (expandWords w) 64 := by
  have hloop : ∀ n ≤ 48, Scheduled m
      ((range' 16 n).foldl (fun w i => w.set i (nextWord w i)) w) (16 + n) := by
    intro n hn
    induction n with
    | zero => exact h
    | succ n ih =>
      have hscheduled := ih (by omega)
      rw [range'_1_concat, foldl_append]
      exact hscheduled.set (by omega) (toBitVec_nextWord hscheduled (by omega))
  exact hloop 48 (le_refl 48)

/-- The variables as words of the standard. -/
def Working.words (v : Working) : Words where
  a := v.a.toBitVec
  b := v.b.toBitVec
  c := v.c.toBitVec
  d := v.d.toBitVec
  e := v.e.toBitVec
  f := v.f.toBitVec
  g := v.g.toBitVec
  h := v.h.toBitVec

theorem words_rounds (h : Scheduled m w 64) (v : Working) {n : Nat} (hn : n ≤ 64) :
    ((range n).foldl (roundStep w) v).words = rounds v.words m n := by
  induction n with
  | zero => rfl
  | succ n ih =>
    rw [rounds, range_succ, foldl_append, foldl_append, ← rounds, ← ih (by omega)]
    change (roundStep w _ n).words = round _ (k n) (schedule m n)
    rw [← getD_K hn, ← h.getD_eq n hn]
    rfl

/-- The state of a hasher as a hash value of the standard. -/
def hashWords (state : Vector UInt32 8) : Words where
  a := state[0].toBitVec
  b := state[1].toBitVec
  c := state[2].toBitVec
  d := state[3].toBitVec
  e := state[4].toBitVec
  f := state[5].toBitVec
  g := state[6].toBitVec
  h := state[7].toBitVec

theorem processBlock_spec (state : Vector UInt32 8) (hblock : block.length = 64) :
    hashWords (processBlock state block) = compress (hashWords state) (word (ofBytes block)) := by
  have hw := scheduled_expandWords (scheduled_loadWords hblock)
  have hrounds := words_rounds hw ⟨state[0], state[1], state[2], state[3], state[4], state[5],
    state[6], state[7]⟩ (le_refl 64)
  change _ = rounds (hashWords state) _ _ at hrounds
  rw [compress, ← hrounds]
  rfl

/-! ## The hasher -/

/-- `buffer[at..at + data.len()].copy_from_slice(data)`. -/
def copyFromSlice (buffer : Bytes) (start : Nat) (data : Bytes) : Bytes :=
  buffer.take start ++ data ++ buffer.drop (start + data.length)

@[simp] theorem length_copyFromSlice {buffer data : Bytes} {start : Nat}
    (h : start + data.length ≤ buffer.length) :
    (copyFromSlice buffer start data).length = buffer.length := by
  simp only [copyFromSlice, length_append, length_take, length_drop]
  omega

/-- A hasher.  The buffer is a `[u8; 64]`, and between two calls it is never full. -/
structure Sha256 where
  state : Vector UInt32 8
  buffer : Bytes
  bufLen : Nat
  totalLen : UInt64
  length_buffer : buffer.length = 64
  bufLen_lt : bufLen < 64

namespace Sha256

def new : Sha256 where
  state := #v[0x6a09e667, 0xbb67ae85, 0x3c6ef372, 0xa54ff53a,
    0x510e527f, 0x9b05688c, 0x1f83d9ab, 0x5be0cd19]
  buffer := replicate 64 0
  bufLen := 0
  totalLen := 0
  length_buffer := length_replicate
  bufLen_lt := by decide

/-- The end of `update`, where nothing is buffered: the whole blocks of the data, and then the rest
of it into the buffer. -/
def updateBlocks (state : Vector UInt32 8) (buffer : Bytes) (totalLen : UInt64)
    (data : Bytes) (hbuffer : buffer.length = 64) : Sha256 :=
  let read := absorb processBlock 64 state data
  have hrest : read.2.length < 64 := length_absorb_lt _ _ (by decide)
  { state := read.1
    buffer := copyFromSlice buffer 0 read.2
    bufLen := read.2.length
    totalLen := totalLen
    length_buffer := by rw [length_copyFromSlice (by omega), hbuffer]
    bufLen_lt := hrest }

def update (self : Sha256) (data : Bytes) : Sha256 :=
  let totalLen := self.totalLen + UInt64.ofNat data.length
  have hbuffer := self.length_buffer
  have hbufLen := self.bufLen_lt
  if 0 < self.bufLen then
    let needed := 64 - self.bufLen
    if h : needed ≤ data.length then
      let block := copyFromSlice self.buffer self.bufLen (data.take needed)
      updateBlocks (processBlock self.state block) block totalLen (data.drop needed)
        (by rw [length_copyFromSlice (by rw [length_take]; omega), hbuffer])
    else
      { state := self.state
        buffer := copyFromSlice self.buffer self.bufLen data
        bufLen := self.bufLen + data.length
        totalLen := totalLen
        length_buffer := by rw [length_copyFromSlice (by omega), hbuffer]
        bufLen_lt := by omega }
  else updateBlocks self.state self.buffer totalLen data hbuffer

/-- `finalize` up to the length: a block of its own for the first padding bytes where the length
does not fit behind them. -/
def padBuffer (self : Sha256) : Vector UInt32 8 × Bytes × Nat :=
  let buffer := self.buffer.set self.bufLen 0x80
  let bufLen := self.bufLen + 1
  if 56 < bufLen then
    let block := copyFromSlice buffer bufLen (replicate (64 - bufLen) 0)
    (processBlock self.state block, block, 0)
  else (self.state, buffer, bufLen)

def finalize (self : Sha256) : Bytes :=
  let bitLen := self.totalLen * 8
  let (state, buffer, bufLen) := self.padBuffer
  let buffer := copyFromSlice buffer bufLen (replicate (56 - bufLen) 0)
  let block := copyFromSlice buffer 56 (beBytes 8 bitLen.toBitVec)
  (processBlock state block).toList.flatMap fun val => beBytes 4 val.toBitVec

def digest (data : Bytes) : Bytes := (new.update data).finalize

end Sha256

/-- Two hexadecimal digits, as `{:02x}` writes a byte. -/
def hexByte (b : UInt8) : List Char := [Nat.digitChar (b.toNat / 16), Nat.digitChar (b.toNat % 16)]

def toHex (bytes : Bytes) : String := String.ofList (bytes.flatMap hexByte)

def Sha256.digestHex (data : Bytes) : String := toHex (digest data)

/-! ## What a hasher holds -/

namespace Sha256

/-- The hasher has read `xs`. -/
structure Represents (s : Sha256) (xs : Bytes) : Prop where
  absorbed : (s.state, s.buffer.take s.bufLen) = absorb processBlock 64 new.state xs
  totalLen_eq : s.totalLen = UInt64.ofNat xs.length

theorem represents_new : new.Represents [] := by
  refine ⟨?_, rfl⟩
  rw [absorb_of_lt _ (by decide)]
  rfl

theorem take_copyFromSlice (buffer data : Bytes) (start : Nat)
    (h : start + data.length ≤ buffer.length) :
    (copyFromSlice buffer start data).take (start + data.length) =
      buffer.take start ++ data := by
  have hlen : (buffer.take start ++ data).length = start + data.length := by
    rw [length_append, length_take, min_eq_left (by omega)]
  rw [copyFromSlice, ← hlen, take_left]

theorem copyFromSlice_of_full (buffer data : Bytes) (start : Nat)
    (h : start + data.length = buffer.length) :
    copyFromSlice buffer start data = buffer.take start ++ data := by
  rw [copyFromSlice, h, drop_length, append_nil]

variable {buffer xs : Bytes} {s : Sha256}

theorem absorbed_updateBlocks (state : Vector UInt32 8) (totalLen : UInt64) (data : Bytes)
    (hbuffer : buffer.length = 64) : let s := updateBlocks state buffer totalLen data hbuffer
    (s.state, s.buffer.take s.bufLen) = absorb processBlock 64 state data := by
  have hrest : (absorb processBlock 64 state data).2.length < 64 :=
    length_absorb_lt _ _ (by decide)
  have htake := take_copyFromSlice buffer (absorb processBlock 64 state data).2 0 (by omega)
  rw [zero_add] at htake
  simp only [updateBlocks, htake]
  rfl

theorem absorbed_update (s : Sha256) (data : Bytes) :
    ((s.update data).state, (s.update data).buffer.take (s.update data).bufLen) =
      absorb processBlock 64 s.state (s.buffer.take s.bufLen ++ data) := by
  have hbuffer := s.length_buffer
  have hbufLen := s.bufLen_lt
  have htake : (s.buffer.take s.bufLen).length = s.bufLen := by rw [length_take]; omega
  rw [update]
  split
  · dsimp only
    split
    · rename_i hpos hneeded
      -- the data completes the block in the buffer
      have hpiece : (data.take (64 - s.bufLen)).length = 64 - s.bufLen := by
        rw [length_take]
        omega
      have hlen : (s.buffer.take s.bufLen ++ data.take (64 - s.bufLen)).length = 64 := by
        rw [length_append]
        omega
      rw [absorbed_updateBlocks, copyFromSlice_of_full _ _ _ (by omega),
        ← absorb_block_append _ _ (by decide) hlen, append_assoc, take_append_drop]
    · rename_i hpos hneeded
      rw [absorb_of_lt _ (by rw [length_append]; omega), take_copyFromSlice _ _ _ (by omega)]
  · rename_i hpos
    have hzero : s.bufLen = 0 := by omega
    rw [absorbed_updateBlocks, hzero, take_zero, nil_append]

theorem totalLen_update (s : Sha256) (data : Bytes) :
    (s.update data).totalLen = s.totalLen + UInt64.ofNat data.length := by
  rw [update]
  split
  · dsimp only
    split <;> rfl
  · rfl

theorem represents_update (h : s.Represents xs) (data : Bytes) :
    (s.update data).Represents (xs ++ data) := by
  obtain ⟨habsorbed, htotal⟩ := h
  refine ⟨?_, ?_⟩
  · rw [absorbed_update, absorb_append new.state xs data (by decide), ← habsorbed]
  · rw [totalLen_update, htotal, length_append, UInt64.ofNat_add]

theorem represents_updates (h : s.Represents xs) (chunks : List Bytes) :
    (chunks.foldl update s).Represents (xs ++ chunks.flatten) := by
  induction chunks generalizing s xs with
  | nil => simpa using h
  | cons chunk chunks ih =>
    rw [flatten_cons, ← append_assoc]
    exact ih (represents_update h chunk)

/-! ## The digest -/

theorem take_set_succ {n : Nat} (b : UInt8) (h : n < buffer.length) :
    (buffer.set n b).take (n + 1) = buffer.take n ++ [b] := by
  rw [take_add_one, take_set_of_le (le_refl n), getElem?_set_self h]
  rfl

/-- The block that ends with the length, where `n` bytes of the buffer are taken. -/
theorem lastBlock_eq {tail : Bytes} {n : Nat} (hbuffer : buffer.length = 64) (hn : n ≤ 56)
    (htail : tail.length = 8) :
    copyFromSlice (copyFromSlice buffer n (replicate (56 - n) 0)) 56 tail =
      buffer.take n ++ replicate (56 - n) 0 ++ tail := by
  have hzeros : (replicate (56 - n) (0 : UInt8)).length = 56 - n := length_replicate
  have htake := take_copyFromSlice buffer (replicate (56 - n) 0) n (by omega)
  rw [hzeros, show n + (56 - n) = 56 by omega] at htake
  rw [copyFromSlice_of_full _ _ 56, htake]
  rw [length_copyFromSlice (by omega)]
  omega

/-- What `finalize` adds to data of which `n` bytes are buffered. -/
def padding (n : Nat) (bitLen : UInt64) : Bytes :=
  0x80 :: replicate (zeros (8 * n) / 8) 0 ++ beBytes 8 bitLen.toBitVec

/-- `finalize` reads the padding after what is buffered. -/
theorem finalize_eq (s : Sha256) :
    s.finalize = (absorb processBlock 64 s.state
      (s.buffer.take s.bufLen ++ padding s.bufLen (s.totalLen * 8))).1.toList.flatMap
        fun val => beBytes 4 val.toBitVec := by
  have hbuffer := s.length_buffer
  have hbufLen := s.bufLen_lt
  have hset := take_set_succ 0x80 (hbuffer ▸ hbufLen)
  have hsetLen : (s.buffer.set s.bufLen 0x80).length = 64 := by rw [length_set, hbuffer]
  have htail := length_beBytes 8 (s.totalLen * 8).toBitVec
  rcases lt_or_ge 56 (s.bufLen + 1) with hfull | hfits
  · -- no room for the length: the padding goes on in a block of zeros
    have hz : zeros (8 * s.bufLen) / 8 = (64 - (s.bufLen + 1)) + 56 := by rw [zeros]; omega
    have hzeros : (replicate (64 - (s.bufLen + 1)) (0 : UInt8)).length =
        64 - (s.bufLen + 1) := length_replicate
    have hfirst := copyFromSlice_of_full (s.buffer.set s.bufLen 0x80)
      (replicate (64 - (s.bufLen + 1)) 0) (s.bufLen + 1) (by omega)
    rw [hset] at hfirst
    have hlen : (s.buffer.take s.bufLen ++ [0x80] ++
        replicate (64 - (s.bufLen + 1)) 0).length = 64 := by
      simp only [length_append, length_take, length_singleton, hzeros]
      omega
    have hdata : s.buffer.take s.bufLen ++ padding s.bufLen (s.totalLen * 8) =
        s.buffer.take s.bufLen ++ [0x80] ++ replicate (64 - (s.bufLen + 1)) 0 ++
          (replicate 56 0 ++ beBytes 8 (s.totalLen * 8).toBitVec) := by
      rw [padding, hz, replicate_add]
      simp only [append_assoc, cons_append, nil_append]
    simp only [finalize, padBuffer, if_pos hfull]
    rw [hfirst, lastBlock_eq hlen (zero_le 56) htail, hdata,
      absorb_block_append _ _ (by decide) hlen, absorb_block _ (by decide) (by simp)]
    rfl
  · have hz : zeros (8 * s.bufLen) / 8 = 56 - (s.bufLen + 1) := by rw [zeros]; omega
    simp only [finalize, padBuffer, if_neg (not_lt.2 hfits)]
    rw [lastBlock_eq hsetLen (by omega) htail, hset, padding, hz, absorb_block _ (by decide)]
    · simp
    · simp; omega

theorem words_new : hashWords new.state = initialHash := by
  have hprimes : Fips180.primesBelow 20 = [2, 3, 5, 7, 11, 13, 17, 19] := by decide +kernel
  have htable : ∀ j < 8, (new.state.toList.getD j 0).toBitVec =
      rootBits 2 ((Fips180.primesBelow 20).getD j 0) := by
    decide +kernel
  have hword (j : Nat) (hj : j < 8) : (new.state.toList.getD j 0).toBitVec = initialWord j := by
    rw [htable j hj, initialWord, nth_prime_eq (by rw [hprimes]; exact hj)]
  exact Words.ext (hword 0 (by decide)) (hword 1 (by decide)) (hword 2 (by decide))
    (hword 3 (by decide)) (hword 4 (by decide)) (hword 5 (by decide)) (hword 6 (by decide))
    (hword 7 (by decide))

theorem ofBytes_toList (state : Vector UInt32 8) :
    ofBytes (state.toList.flatMap fun val => beBytes 4 val.toBitVec) =
      Fips180.digest (hashWords state) := by
  have hstate : state.toList = [state[0], state[1], state[2], state[3], state[4], state[5],
      state[6], state[7]] := by
    obtain ⟨⟨words⟩, hlen⟩ := state
    match words, hlen with
    | [_, _, _, _, _, _, _, _], _ => rfl
  rw [hstate]
  simp only [flatMap_cons, ofBytes_append, ofBytes_beBytes _ (show 32 = 8 * 4 by rfl)]
  rfl

/-- What `finalize` returns depends on the bytes read and on nothing else. -/
theorem finalize_of_represents (h : s.Represents xs) :
    s.finalize = (absorb processBlock 64 new.state (padBytes xs)).1.toList.flatMap
      fun val => beBytes 4 val.toBitVec := by
  obtain ⟨habsorbed, htotal⟩ := h
  have hbufLen : s.bufLen = xs.length % 64 := by
    have hlen : (absorb processBlock 64 new.state xs).2.length = xs.length % 64 :=
      length_absorb _ _ (by decide)
    rw [← habsorbed, length_take, s.length_buffer] at hlen
    omega
  have hpadding : padBytes xs = xs ++ padding s.bufLen (s.totalLen * 8) := by
    have hzeros : zeros (8 * xs.length) = zeros (8 * s.bufLen) := by
      rw [zeros, zeros, hbufLen]
      omega
    have hbits : (s.totalLen * 8).toBitVec = BitVec.ofNat 64 (8 * xs.length) := by
      rw [htotal, mul_comm, BitVec.ofNat_mul]
      rfl
    rw [padBytes, padding, hzeros, hbits, append_assoc]
  rw [finalize_eq, hpadding, absorb_append new.state xs _ (by decide), ← habsorbed]

theorem finalize_spec (h : s.Represents xs) : ofBytes s.finalize = sha256 (ofBytes xs) := by
  have hblock : ∀ state block, block.length = 64 → hashWords (processBlock state block) =
      compress (hashWords state) (word (ofBytes block)) :=
    fun state _ hblock => processBlock_spec state hblock
  rw [finalize_of_represents h, ofBytes_toList, sha256_ofBytes, ← words_new,
    absorb_map hashWords hblock _ _ (by decide)]

/-- The digest of any list of chunks is the one FIPS 180-4 gives for their concatenation. -/
theorem finalize_updates (chunks : List Bytes) :
    ofBytes (chunks.foldl update new).finalize = sha256 (ofBytes chunks.flatten) ∧
      ∀ chunks' : List Bytes, chunks'.flatten = chunks.flatten →
        (chunks'.foldl update new).finalize = (chunks.foldl update new).finalize := by
  have hread (chunks : List Bytes) : (chunks.foldl update new).Represents chunks.flatten := by
    simpa using represents_updates represents_new chunks
  refine ⟨finalize_spec (hread chunks), fun chunks' hflatten => ?_⟩
  rw [finalize_of_represents (hread chunks'), finalize_of_represents (hread chunks), hflatten]

example : Sha256.digestHex [97, 98, 99] =
    "ba7816bf8f01cfea414140de5dae2223b00361a396177a9cb410ff61f20015ad" := by
  decide +kernel

end Sha256

end Control
