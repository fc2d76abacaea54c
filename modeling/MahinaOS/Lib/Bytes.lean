import Mathlib.Data.List.Basic
import Mathlib.Data.Option.Basic

/-!
# Bytes, and UTF-8

`decode` reads bytes as UTF-8, by the table of well-formed byte sequences of the Unicode
standard: the shortest form only, no surrogates, nothing above `U+10FFFF`.  It goes through the
bytes with the ones of the present character (`step`).

A program that puts a text between ASCII delimiters, or looks for such a delimiter, does not have to
know the encoding of the text:

* `decode_append` reads a well-formed text and what follows it one after the other;
* `isSome_decodeFrom_append_ascii`: a text before an ASCII byte is well formed on its own;
* `decode_between`: so a text between delimiters is read as it is.
-/

/-- Raw bytes, as files and messages have them. -/
abbrev Bytes := List UInt8

namespace Utf8

open Option

/-! ## One character -/

def between (lo hi b : UInt8) : Bool := decide (lo ≤ b) && decide (b ≤ hi)

def isCont (b : UInt8) : Bool := between 0x80 0xBF b

/-- The first two bytes of a sequence of two. -/
def isTwo (a b : UInt8) : Bool := between 0xC2 0xDF a && isCont b

/-- The first two bytes of a sequence of three. -/
def isThree (a b : UInt8) : Bool :=
  (a == 0xE0 && between 0xA0 0xBF b) || (between 0xE1 0xEC a && isCont b) ||
    (a == 0xED && between 0x80 0x9F b) || (between 0xEE 0xEF a && isCont b)

/-- The first two bytes of a sequence of four. -/
def isFour (a b : UInt8) : Bool :=
  (a == 0xF0 && between 0x90 0xBF b) || (between 0xF1 0xF3 a && isCont b) ||
    (a == 0xF4 && between 0x80 0x8F b)

/-- The character whose number has these digits, the first of them in the low bits of its byte. -/
def assemble (mask a : UInt8) (rest : Bytes) : Char :=
  Char.ofNat (rest.foldl (fun n b => n * 64 + (b &&& 0x3F).toNat) (a &&& mask).toNat)

/-- One byte: the bytes of the character it leaves unfinished, and the character it ends. -/
def step : Bytes → UInt8 → Option (Bytes × List Char)
  | [], a =>
    if a < 0x80 then some ([], [Char.ofNat a.toNat])
    else if between 0xC2 0xF4 a then some ([a], []) else none
  | [a], b =>
    if isTwo a b then some ([], [assemble 0x1F a [b]])
    else if isThree a b || isFour a b then some ([a, b], []) else none
  | [a, b], c =>
    if isCont c then
      if a < 0xF0 then some ([], [assemble 0x0F a [b, c]]) else some ([a, b, c], [])
    else none
  | [a, b, c], d => if isCont d then some ([], [assemble 0x07 a [b, c, d]]) else none
  | _, _ => none

/-- The characters of a text, if it is well formed, after the bytes of an unfinished one. -/
def decodeFrom : Bytes → Bytes → Option (List Char)
  | [], [] => some []
  | _ :: _, [] => none
  | pending, b :: bs =>
    (step pending b).bind fun next => (decodeFrom next.1 bs).map (next.2 ++ ·)

/-- The characters of a text, if it is well formed. -/
def decode (bs : Bytes) : Option (List Char) := decodeFrom [] bs

example : decode [0x6D, 0xC3, 0xA9, 0xE2, 0x82, 0xAC, 0xF0, 0x9F, 0x8C, 0x99] =
    some ['m', 'é', '€', '🌙'] := by decide

example : decode [0xC0, 0x80] = none ∧ decode [0xED, 0xA0, 0x80] = none ∧ decode [0xC3] = none := by
  decide

/-! ## Texts one after the other -/

theorem decodeFrom_cons (pending : Bytes) (b : UInt8) (bs : Bytes) :
    decodeFrom pending (b :: bs) =
      (step pending b).bind fun next => (decodeFrom next.1 bs).map (next.2 ++ ·) := by
  cases pending <;> rfl

variable {pending bs : Bytes} {cs : List Char} {a : UInt8}

theorem decodeFrom_cons_eq_some {b : UInt8} (h : decodeFrom pending (b :: bs) = some cs) :
    ∃ pending' out rest, step pending b = some (pending', out) ∧
      decodeFrom pending' bs = some rest ∧ cs = out ++ rest := by
  rw [decodeFrom_cons, bind_eq_some_iff] at h
  obtain ⟨⟨pending', out⟩, hstep, hmap⟩ := h
  obtain ⟨rest, hrest, rfl⟩ := map_eq_some_iff.1 hmap
  exact ⟨pending', out, rest, hstep, hrest, rfl⟩

theorem decodeFrom_append {x : Bytes} (h : decodeFrom pending x = some cs) (y : Bytes) :
    decodeFrom pending (x ++ y) = (decode y).map (cs ++ ·) := by
  induction x generalizing pending cs with
  | nil =>
    rcases pending with - | ⟨a, as⟩
    · cases h
      exact map_id'.symm
    · cases h
  | cons b x ih =>
    obtain ⟨pending', out, rest, hstep, hrest, rfl⟩ := decodeFrom_cons_eq_some h
    rw [List.cons_append, decodeFrom_cons, hstep, bind_some, ih hrest, map_map]
    congr 1
    funext tail
    exact (List.append_assoc out rest tail).symm

/-- A byte that ends no character leaves one unfinished. -/
theorem step_ne_nil {b : UInt8} (h : step pending b = some ([], [])) : False := by
  match pending with
  | [] | [_] | [_, _] | [_, _, _] =>
    rw [step] at h
    split_ifs at h <;> simp at h
  | _ :: _ :: _ :: _ :: _ => simp [step] at h

theorem eq_nil_of_decodeFrom (h : decodeFrom pending bs = some []) : pending = [] ∧ bs = [] := by
  induction bs generalizing pending with
  | nil =>
    rcases pending with - | ⟨a, as⟩
    · exact ⟨rfl, rfl⟩
    · cases h
  | cons b bs ih =>
    obtain ⟨pending', out, rest, hstep, hrest, heq⟩ := decodeFrom_cons_eq_some h
    obtain ⟨rfl, rfl⟩ := List.append_eq_nil_iff.1 heq.symm
    obtain ⟨rfl, -⟩ := ih hrest
    exact (step_ne_nil hstep).elim

theorem decode_append {x : Bytes} (h : decode x = some cs) (y : Bytes) :
    decode (x ++ y) = (decode y).map (cs ++ ·) :=
  decodeFrom_append h y

/-- An ASCII byte does not go on with an unfinished character. -/
theorem eq_nil_of_step_ascii (ha : a < 0x80) (h : (step pending a).isSome = true) :
    pending = [] := by
  have hlow (lo hi : UInt8) (hlo : 0x80 ≤ lo) : between lo hi a = false := by
    have hlt : ¬ lo ≤ a := UInt8.not_le.2 (UInt8.lt_of_lt_of_le ha hlo)
    simp [between, hlt]
  have hcont : isCont a = false := hlow _ _ (by decide)
  match pending with
  | [] => rfl
  | [b] => simp [step, isTwo, isThree, isFour, hcont, hlow 0xA0 0xBF (by decide),
      hlow 0x80 0x9F (by decide), hlow 0x90 0xBF (by decide), hlow 0x80 0x8F (by decide)] at h
  | [b, c] => simp [step, hcont] at h
  | [b, c, d] => simp [step, hcont] at h
  | _ :: _ :: _ :: _ :: _ => simp [step] at h

theorem isSome_decodeFrom_append_ascii {x y : Bytes} (ha : a < 0x80)
    (h : (decodeFrom pending (x ++ a :: y)).isSome = true) :
    (decodeFrom pending x).isSome = true := by
  induction x generalizing pending with
  | nil =>
    obtain ⟨cs, hcs⟩ := isSome_iff_exists.1 h
    obtain ⟨pending', out, rest, hstep, -, -⟩ := decodeFrom_cons_eq_some hcs
    have hnil : pending = [] := eq_nil_of_step_ascii ha (by rw [hstep]; rfl)
    rw [hnil]
    rfl
  | cons b x ih =>
    obtain ⟨cs, hcs⟩ := isSome_iff_exists.1 h
    obtain ⟨pending', out, rest, hstep, hrest, -⟩ := decodeFrom_cons_eq_some hcs
    rw [decodeFrom_cons, hstep, bind_some, isSome_map]
    exact ih (isSome_iff_exists.2 ⟨rest, hrest⟩)

/-- A text between two ASCII texts is well formed exactly if all of it is, and is read as it is. -/
theorem decode_between {l r x : Bytes} {cl cr : List Char} (hl : decode l = some cl)
    (ha : a < 0x80) (hr : decode (a :: r) = some cr) :
    decode (l ++ (x ++ a :: r)) = (decode x).map fun cs => cl ++ (cs ++ cr) := by
  rw [decode_append hl]
  rcases hx : decode x with - | cs
  · have hnone : decode (x ++ a :: r) = none := by
      refine not_isSome_iff_eq_none.1 fun h => ?_
      have : (decode x).isSome = true := isSome_decodeFrom_append_ascii ha h
      rw [hx] at this
      cases this
    rw [hnone]
    rfl
  · rw [decode_append hx, hr]
    rfl

end Utf8
