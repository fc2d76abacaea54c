import Mathlib.Data.List.DropRight

/-!
# Line-oriented text

Text is a list of characters.  This file has the operations a program uses to read a small
line-oriented format back — splitting into lines, trimming, splitting a line at its first
separator, reading a decimal number — as the Rust standard library documents them, and for each of
them the one lemma that undoes the corresponding way of *writing* such a format:

* `lines_cons` peels a newline-terminated line off a text;
* `lines_append` splits a text after a newline;
* `trim_eq_self` says that trimming leaves a text with no outer white space alone;
* `splitFirst_append` splits `key ++ sep :: value` at `sep`, and `headD_splitOn_append_iff` says
  when a split at every `sep` has `key` as its first piece;
* `parseU32_decimal` reads back a number that was printed in decimal.

In the other direction, what is read is well formed whatever the text was: a line has no newline
(`newline_notMem_of_mem_lines`) and a trimmed text has no outer white space (`trimmed_trim`).
-/

namespace Text

open List

/-! ## White space -/

/-- The Unicode `White_Space` property, which is what `char::is_whitespace` tests. -/
def isWhitespace (c : Char) : Bool :=
  let n := c.toNat
  (0x09 ≤ n && n ≤ 0x0D) || n == 0x20 || n == 0x85 || n == 0xA0 || n == 0x1680 ||
    (0x2000 ≤ n && n ≤ 0x200A) || n == 0x2028 || n == 0x2029 || n == 0x202F || n == 0x205F ||
    n == 0x3000

/-- `str::trim`: drop white space at both ends. -/
def trim (cs : List Char) : List Char := (cs.dropWhile isWhitespace).rdropWhile isWhitespace

/-- No white space at either end. -/
def Trimmed (cs : List Char) : Prop :=
  ∀ c, cs.head? = some c ∨ cs.getLast? = some c → isWhitespace c = false

instance (cs : List Char) : Decidable (Trimmed cs) :=
  decidable_of_iff ((cs.head?.toList ++ cs.getLast?.toList).all (!isWhitespace ·) = true) <| by
    simp only [all_eq_true, mem_append, Option.mem_toList, Bool.not_eq_true', Trimmed]

variable {cs l : List Char} {c sep : Char} {ls : List (List Char)}

theorem trim_eq_self (h : Trimmed cs) : trim cs = cs := by
  have h1 : cs.dropWhile isWhitespace = cs := by
    rcases cs with - | ⟨c, cs⟩
    · rfl
    · have hc : isWhitespace c = false := h c (.inl rfl)
      rw [dropWhile_cons, hc]
      rfl
  rw [trim, h1, rdropWhile_eq_self_iff]
  intro hne
  have hl := h (cs.getLast hne) (.inr (getLast?_eq_some_getLast hne))
  simp [hl]

theorem mem_of_mem_trim (h : c ∈ trim cs) : c ∈ cs := by
  have htrim : trim cs <+: cs.dropWhile isWhitespace := rdropWhile_prefix ..
  exact (dropWhile_suffix _).subset (htrim.subset h)

theorem trimmed_trim (cs : List Char) : Trimmed (trim cs) := by
  rintro c (hc | hc)
  · -- the first character is the first one the left trim kept
    obtain ⟨rest, hrest⟩ := rdropWhile_prefix isWhitespace (cs.dropWhile isWhitespace)
    have hhead : (cs.dropWhile isWhitespace).head? = some c := by
      rw [← hrest, head?_append, show (rdropWhile _ _).head? = some c from hc]
      rfl
    have hnot := head?_dropWhile_not isWhitespace cs
    rw [hhead] at hnot
    exact hnot
  · have hne : trim cs ≠ [] := fun h => by simp [h] at hc
    have hnot := rdropWhile_last_not isWhitespace (cs.dropWhile isWhitespace) hne
    rw [getLast?_eq_some_getLast hne, Option.some.injEq] at hc
    rw [← hc, ← Bool.not_eq_true]
    exact hnot

theorem trimmed_of_forall (h : ∀ c ∈ cs, isWhitespace c = false) : Trimmed cs := by
  rintro c (hc | hc)
  · exact h c (mem_of_mem_head? hc)
  · exact h c (mem_of_getLast? hc)

theorem isWhitespace_of_isDigit (h : c.isDigit = true) : isWhitespace c = false := by
  have hlo : 48 ≤ c.toNat := by
    simp only [Char.isDigit, Bool.and_eq_true, decide_eq_true_eq] at h
    exact h.1
  have hhi : c.toNat ≤ 57 := by
    simp only [Char.isDigit, Bool.and_eq_true, decide_eq_true_eq] at h
    exact h.2
  simp only [isWhitespace, Bool.or_eq_false_iff, Bool.and_eq_false_iff, decide_eq_false_iff_not,
    beq_eq_false_iff_ne]
  omega

/-! ## Lines -/

/-- `str::split_inclusive('\n')`: the pieces of the text, each with its newline. -/
def splitInclusive : List Char → List (List Char)
  | [] => []
  | c :: cs =>
    if c = '\n' then [c] :: splitInclusive cs
    else
      match splitInclusive cs with
      | [] => [[c]]
      | l :: ls => (c :: l) :: ls

/-- A piece without its line ending: one `\n`, and one `\r` before it. -/
def stripLineEnd (l : List Char) : List Char :=
  if l.getLast? = some '\n' then
    if l.dropLast.getLast? = some '\r' then l.dropLast.dropLast else l.dropLast
  else l

/-- `str::lines`. -/
def lines (cs : List Char) : List (List Char) := (splitInclusive cs).map stripLineEnd

theorem splitInclusive_append (hl : '\n' ∉ l) (rest : List Char) :
    splitInclusive (l ++ '\n' :: rest) = (l ++ ['\n']) :: splitInclusive rest := by
  induction l with
  | nil => simp [splitInclusive]
  | cons c l ih =>
    rw [mem_cons, not_or] at hl
    rw [cons_append, splitInclusive, if_neg (Ne.symm hl.1), ih hl.2]
    rfl

theorem splitInclusive_of_notMem (hl : '\n' ∉ l) (hne : l ≠ []) : splitInclusive l = [l] := by
  induction l with
  | nil => exact absurd rfl hne
  | cons c l ih =>
    rw [mem_cons, not_or] at hl
    rw [splitInclusive, if_neg (Ne.symm hl.1)]
    rcases l with - | ⟨d, l⟩
    · rfl
    · rw [ih hl.2 (cons_ne_nil d l)]

/-- The first line of a text that starts with a newline-terminated one. -/
theorem lines_cons (hl : '\n' ∉ l) (hr : l.getLast? ≠ some '\r') (rest : List Char) :
    lines (l ++ '\n' :: rest) = l :: lines rest := by
  rw [lines, splitInclusive_append hl, map_cons]
  congr 1
  rw [stripLineEnd, getLast?_concat, if_pos rfl, dropLast_concat, if_neg hr]

theorem newline_notMem_dropLast (h : l ∈ splitInclusive cs) : '\n' ∉ l.dropLast := by
  induction cs generalizing l with
  | nil => simp [splitInclusive] at h
  | cons c cs ih =>
    rw [splitInclusive] at h
    split_ifs at h with hc
    · rcases mem_cons.1 h with rfl | h
      · simp
      · exact ih h
    · rcases hs : splitInclusive cs with - | ⟨l₀, ls⟩
      · rw [hs] at h
        rw [mem_singleton.1 h]
        simp
      · rw [hs] at h
        rcases mem_cons.1 h with rfl | h
        · rcases l₀ with - | ⟨d, l₀⟩
          · simp
          · have hd := ih (hs ▸ mem_cons_self)
            rw [dropLast_cons_cons, mem_cons, not_or]
            exact ⟨Ne.symm hc, hd⟩
        · exact ih (hs ▸ mem_cons_of_mem _ h)

theorem newline_notMem_stripLineEnd (h : '\n' ∉ l.dropLast) : '\n' ∉ stripLineEnd l := by
  rw [stripLineEnd]
  split_ifs with hn hr
  · exact fun hm => h ((dropLast_sublist _).subset hm)
  · exact h
  · intro hm
    rcases eq_nil_or_concat l with rfl | ⟨l₀, c, rfl⟩
    · simp at hm
    · rw [concat_eq_append, getLast?_concat, Option.some.injEq] at hn
      rw [concat_eq_append, dropLast_concat] at h
      rcases mem_append.1 (concat_eq_append ▸ hm) with hm | hm
      · exact h hm
      · exact hn (mem_singleton.1 hm).symm

theorem newline_notMem_of_mem_lines (h : l ∈ lines cs) : '\n' ∉ l := by
  obtain ⟨piece, hpiece, rfl⟩ := mem_map.1 h
  exact newline_notMem_stripLineEnd (newline_notMem_dropLast hpiece)

/-- A text that is empty or ends with a newline, as a file of whole lines does. -/
def Terminated (cs : List Char) : Prop := cs = [] ∨ cs.getLast? = some '\n'

instance (cs : List Char) : Decidable (Terminated cs) := inferInstanceAs (Decidable (_ ∨ _))

theorem splitInclusive_ne_nil (h : cs ≠ []) : splitInclusive cs ≠ [] := by
  rcases cs with - | ⟨c, cs⟩
  · exact absurd rfl h
  · rw [splitInclusive]
    split_ifs
    · exact cons_ne_nil _ _
    · split <;> exact cons_ne_nil _ _

theorem splitInclusive_append_of_terminated (h : Terminated cs) (rest : List Char) :
    splitInclusive (cs ++ rest) = splitInclusive cs ++ splitInclusive rest := by
  induction cs with
  | nil => rfl
  | cons c cs ih =>
    rw [cons_append, splitInclusive, splitInclusive]
    rcases eq_or_ne cs [] with rfl | hne
    · obtain rfl : c = '\n' := by simpa [Terminated] using h
      rfl
    · have hcs : Terminated cs := by
        refine .inr ?_
        rw [Terminated, getLast?_cons_of_ne_nil hne] at h
        simpa using h
      rw [ih hcs]
      split_ifs with hc
      · rfl
      · obtain ⟨l, ls, hl⟩ := exists_cons_of_ne_nil (splitInclusive_ne_nil hne)
        rw [hl]
        rfl

/-- Appending to a file of whole lines appends to its lines. -/
theorem lines_append (h : Terminated cs) (rest : List Char) :
    lines (cs ++ rest) = lines cs ++ lines rest := by
  rw [lines, splitInclusive_append_of_terminated h, map_append, lines, lines]

/-- A text that ends with a newline has as many lines as newlines. -/
theorem length_lines_concat (cs : List Char) :
    (lines (cs ++ ['\n'])).length = cs.count '\n' + 1 := by
  rw [lines, length_map]
  induction cs with
  | nil => rfl
  | cons c cs ih =>
    rw [cons_append, splitInclusive]
    split_ifs with hc
    · rw [length_cons, ih, hc, count_cons_self]
    · obtain ⟨l, ls, hl⟩ := exists_cons_of_ne_nil
        (splitInclusive_ne_nil (append_ne_nil_of_right_ne_nil cs (cons_ne_nil '\n' [])))
      rw [hl, length_cons] at ih
      rw [hl, length_cons, ih, count_cons_of_ne hc]

/-! ## Splitting a line at its first separator -/

/-- `str::splitn(2, sep)`: what is before the first `sep`, and what is after it if there is one. -/
def splitFirst (sep : Char) (cs : List Char) : List Char × Option (List Char) :=
  (cs.takeWhile (· != sep), (cs.dropWhile (· != sep)).tail?)

theorem splitFirst_append {k : List Char} (hk : sep ∉ k) (v : List Char) :
    splitFirst sep (k ++ sep :: v) = (k, some v) := by
  have hall : ∀ c ∈ k, (c != sep) = true := fun c hc => by
    rw [bne_iff_ne]
    rintro rfl
    exact hk hc
  rw [splitFirst, takeWhile_append_of_pos hall, dropWhile_append_of_pos hall]
  simp

theorem mem_of_mem_splitFirst {v : List Char} (hv : (splitFirst sep cs).2 = some v) (hc : c ∈ v) :
    c ∈ cs := by
  have hsub : cs.dropWhile (· != sep) <:+ cs := dropWhile_suffix _
  rcases hd : cs.dropWhile (· != sep) with - | ⟨d, ds⟩
  · simp [splitFirst, hd] at hv
  · simp only [splitFirst, hd, tail?_cons, Option.some.injEq] at hv
    subst hv
    exact hsub.subset (hd ▸ mem_cons_of_mem _ hc)

/-! ## Splitting a line at its separators -/

theorem splitOn_terminated (h : ∀ l ∈ ls, sep ∉ l) :
    (ls.flatMap (· ++ [sep])).splitOn sep = ls ++ [[]] := by
  induction ls with
  | nil => rfl
  | cons l ls ih =>
    obtain ⟨hl, hls⟩ := forall_mem_cons.1 h
    rw [flatMap_cons, append_assoc, singleton_append,
      splitOn_append_cons_self_of_not_mem hl, ih hls, cons_append]

theorem notMem_intercalate (hne : c ≠ sep) (h : ∀ l ∈ ls, c ∉ l) : c ∉ [sep].intercalate ls := by
  induction ls with
  | nil => exact not_mem_nil
  | cons l ls ih =>
    obtain ⟨hl, hls⟩ := forall_mem_cons.1 h
    rcases eq_nil_or_concat ls with rfl | ⟨_, _, hne'⟩
    · rwa [intercalate_singleton]
    · rw [intercalate_cons_of_ne_nil (by simp [hne']), mem_append, mem_append,
        mem_singleton, not_or, not_or]
      exact ⟨⟨hl, hne⟩, ih hls⟩

theorem headD_splitOn (sep : Char) (cs : List Char) :
    (cs.splitOn sep).headD [] = cs.takeWhile (· != sep) := by
  induction cs with
  | nil => rfl
  | cons c cs ih =>
    rw [splitOn_cons_eq_if_modifyHead, takeWhile_cons]
    by_cases hc : c = sep
    · rw [if_pos (beq_iff_eq.2 hc), if_neg (by simp [hc])]
      rfl
    · rw [if_neg (by simp [hc]), if_pos (by simp [hc]), ← ih]
      obtain ⟨l, ls, hl⟩ := exists_cons_of_ne_nil (splitOn_ne_nil sep cs)
      rw [hl]
      rfl

/-- The first piece is what was written before the separator exactly if that has none in it. -/
theorem headD_splitOn_append_iff {k rest : List Char} :
    ((k ++ sep :: rest).splitOn sep).headD [] = k ↔ sep ∉ k := by
  rw [headD_splitOn]
  constructor
  · intro h hmem
    rw [← h] at hmem
    simpa using mem_takeWhile_imp hmem
  · intro hk
    exact congrArg Prod.fst (splitFirst_append hk rest)

/-! ## Decimal numbers -/

/-- `str::parse::<u32>`: an optional `+`, then at least one digit, and a value below `2 ^ 32`. -/
def parseU32 (cs : List Char) : Option UInt32 :=
  let ds := if cs.head? = some '+' then cs.tail else cs
  if ds ≠ [] ∧ ds.all Char.isDigit = true ∧ Nat.ofDigitChars 10 ds 0 < UInt32.size then
    some (UInt32.ofNat (Nat.ofDigitChars 10 ds 0))
  else none

/-- The decimal digits of a number, as `format!("{}", n)` writes them. -/
def decimal (n : UInt32) : List Char := Nat.toDigits 10 n.toNat

theorem isDigit_of_mem_decimal {n : UInt32} (h : c ∈ decimal n) : c.isDigit = true :=
  Nat.isDigit_of_mem_toDigits (by decide) (by decide) h

theorem parseU32_decimal (n : UInt32) : parseU32 (decimal n) = some n := by
  have hne : decimal n ≠ [] := Nat.toDigits_ne_nil
  have hall : (decimal n).all Char.isDigit = true :=
    all_eq_true.2 fun _ hc => isDigit_of_mem_decimal hc
  have hval : Nat.ofDigitChars 10 (decimal n) 0 = n.toNat := Nat.ofDigitChars_ten_toDigits
  have hplus : (decimal n).head? ≠ some '+' := fun h => by
    have hd := isDigit_of_mem_decimal (mem_of_mem_head? h)
    simp at hd
  simp only [parseU32, if_neg hplus]
  rw [if_pos ⟨hne, hall, hval ▸ n.toNat_lt⟩, hval, UInt32.ofNat_toNat]

end Text
