import Mathlib.Algebra.GroupWithZero.Nat
import Mathlib.Data.List.TakeWhile
import Mathlib.Data.List.DropRight
import MahinaOS.Lib.Bytes
import MahinaOS.Lib.Needle

/-!
# Byte texts as C programs keep and read them

A C string is the bytes of an array up to the first NUL (`cut`).  `CStr n` is the type of the
contents of a `char[n]` that holds a string: fewer than `n` bytes, none of them NUL.  `CStr.print`
is `snprintf` with the format `%s`, which cuts off what does not fit.

A file is read in pieces that end at a newline, when the buffer is full, or with the file
(`pieces`): `fgets` has a limit, the line readers of other languages have none.

* `exists_of_after`, `after_append`: what `strstr` finds is in the text, and more text does not
  change it;
* `CStr.bytes_print`: a text that fits is printed as it is;
* `piecesFrom_line`: a line that fits is one piece;
* `newline_notMem_dropLast`: a piece has no newline but at its end.

A program may instead look for the newlines in a buffer with `strchr` and keep what is behind the
last one (`scan`).

* `scan_joinLines`: the lines found in the beginning of a text of lines are its first lines.
-/

namespace CText

open List

variable {buf : Bytes}

/-! ## Strings in arrays -/

/-- The part of a buffer up to the first NUL. -/
def cut (buf : Bytes) : Bytes := buf.takeWhile fun b => b ≠ 0

theorem nul_notMem_cut (buf : Bytes) : 0 ∉ cut buf := by
  intro h
  simpa using mem_takeWhile_imp h

theorem cut_eq_self {bs : Bytes} (h : 0 ∉ bs) : cut bs = bs := by
  refine takeWhile_eq_self_iff.2 fun b hb => decide_eq_true ?_
  rintro rfl
  exact h hb

/-- `strstr`, and past the needle. -/
def after (needle : Bytes) : Bytes → Option Bytes
  | [] => if needle = [] then some [] else none
  | b :: bs =>
    if needle <+: b :: bs then some ((b :: bs).drop needle.length) else after needle bs

variable {rest line : Bytes} {lines : List Bytes}

theorem exists_of_after {needle text : Bytes} (h : after needle text = some rest) :
    ∃ pre, text = pre ++ (needle ++ rest) := by
  induction text with
  | nil =>
    rw [after] at h
    split_ifs at h with hn
    cases h
    exact ⟨[], by rw [hn]; rfl⟩
  | cons b bs ih =>
    rw [after] at h
    split_ifs at h with hn
    · cases h
      obtain ⟨rest, hrest⟩ := hn
      exact ⟨[], by rw [← hrest, drop_left, nil_append]⟩
    · obtain ⟨pre, rfl⟩ := ih h
      exact ⟨b :: pre, rfl⟩

theorem after_eq_none {needle text : Bytes} (h : ¬ needle <:+: text) :
    after needle text = none := by
  rcases hafter : after needle text with - | rest
  · rfl
  · obtain ⟨pre, rfl⟩ := exists_of_after hafter
    exact absurd ⟨pre, rest, append_assoc ..⟩ h

theorem after_append {needle text : Bytes} (h : after needle text = some rest)
    (more : Bytes) : after needle (text ++ more) = some (rest ++ more) := by
  induction text with
  | nil =>
    rw [after] at h
    split_ifs at h with hn
    cases h
    rw [hn]
    rcases more with - | ⟨b, bs⟩
    · rfl
    · exact if_pos nil_prefix
  | cons b bs ih =>
    rw [after] at h
    split_ifs at h with hn
    · cases h
      have hmore : needle <+: b :: (bs ++ more) := hn.trans (prefix_append (b :: bs) more)
      rw [cons_append, after, if_pos hmore, ← cons_append, drop_append_of_le_length hn.length_le]
    · have hmore : ¬ needle <+: b :: (bs ++ more) := by
        intro hmore
        obtain ⟨pre, rfl⟩ := exists_of_after h
        refine hn (prefix_of_prefix_length_le hmore (prefix_append _ more) ?_)
        simp only [length_cons, length_append]
        omega
      rw [cons_append, after, if_neg hmore, ih h]

/-- The string in a `char[n]`. -/
@[ext]
structure CStr (n : Nat) where
  bytes : Bytes
  length_lt : bytes.length < n
  nul_notMem : 0 ∉ bytes
  deriving DecidableEq, Repr

namespace CStr

/-- `snprintf(dst, n, "%s", text)`. -/
def print (n : Nat) [NeZero n] (text : Bytes) : CStr n where
  bytes := (cut text).take (n - 1)
  length_lt := Nat.lt_of_le_of_lt (length_take_le _ _) (Nat.sub_one_lt (NeZero.ne n))
  nul_notMem h := nul_notMem_cut text (mem_of_mem_take h)

variable {n : Nat} {text : Bytes}

theorem bytes_print [NeZero n] (hlen : text.length < n) (hnul : 0 ∉ text) :
    (print n text).bytes = text := by
  show (cut text).take (n - 1) = text
  rw [cut_eq_self hnul]
  exact take_of_length_le (by omega)

theorem print_bytes [NeZero n] (s : CStr n) : print n s.bytes = s :=
  CStr.ext (bytes_print s.length_lt s.nul_notMem)

theorem mem_of_mem_print [NeZero n] {b : UInt8} (h : b ∈ (print n text).bytes) : b ∈ text :=
  (takeWhile_sublist _).subset (mem_of_mem_take h)

theorem head?_print [NeZero n] {b : UInt8} (h : text.head? = some b) (hb : b ≠ 0) (hn : 1 < n) :
    (print n text).bytes.head? = some b := by
  obtain ⟨rest, rfl⟩ : ∃ rest, text = b :: rest := head?_eq_some_iff.1 h
  obtain ⟨m, rfl⟩ : ∃ m, n = m + 2 := ⟨n - 2, by omega⟩
  show ((cut (b :: rest)).take (m + 1)).head? = some b
  rw [cut, takeWhile_cons_of_pos (by simpa using hb)]
  rfl

end CStr

/-! ## Reading in pieces -/

/-- The pieces of a text when there is `room` in the present buffer, and `limit` in every later
one. -/
def piecesFrom (limit : Option Nat) : Option Nat → Bytes → List Bytes
  | _, [] => []
  | room, c :: cs =>
    if c = 10 ∨ room = some 1 then [c] :: piecesFrom limit limit cs
    else
      match piecesFrom limit (room.map (· - 1)) cs with
      | [] => [[c]]
      | l :: ls => (c :: l) :: ls

def pieces (limit : Option Nat) (text : Bytes) : List Bytes := piecesFrom limit limit text

/-- What successive calls of `fgets` with a buffer of `size` bytes read. -/
def fgets (size : Nat) (text : Bytes) : List Bytes := pieces (some (size - 1)) text

theorem piecesFrom_line {limit room : Option Nat} (hline : 10 ∉ line)
    (hroom : ∀ r ∈ room, line.length < r) (rest : Bytes) :
    piecesFrom limit room (line ++ 10 :: rest) = (line ++ [10]) :: pieces limit rest := by
  induction line generalizing room with
  | nil => rfl
  | cons c line ih =>
    rw [mem_cons, not_or] at hline
    have hne : room ≠ some 1 := by
      rintro rfl
      have := hroom 1 rfl
      rw [length_cons] at this
      omega
    have hroom' : ∀ r ∈ room.map (· - 1), line.length < r := by
      intro r hr
      obtain ⟨s, hs, rfl⟩ := Option.map_eq_some_iff.1 hr
      have := hroom s hs
      rw [length_cons] at this
      omega
    rw [cons_append, piecesFrom, if_neg (not_or.2 ⟨Ne.symm hline.1, hne⟩), ih hline.2 hroom']
    rfl

theorem newline_notMem_dropLast {limit room : Option Nat} {text piece : Bytes}
    (h : piece ∈ piecesFrom limit room text) : 10 ∉ piece.dropLast := by
  induction text generalizing room piece with
  | nil => cases h
  | cons c cs ih =>
    rw [piecesFrom] at h
    split_ifs at h with hc
    · rcases mem_cons.1 h with rfl | h
      · simp
      · exact ih h
    · rw [not_or] at hc
      rcases hs : piecesFrom limit (room.map (· - 1)) cs with - | ⟨l, ls⟩
      · rw [hs] at h
        rw [mem_singleton.1 h]
        simp
      · rw [hs] at h
        rcases mem_cons.1 h with rfl | h
        · rcases l with - | ⟨d, l⟩
          · simp
          · have hd := ih (hs ▸ mem_cons_self)
            rw [dropLast_cons_cons, mem_cons, not_or]
            exact ⟨Ne.symm hc.1, hd⟩
        · exact ih (hs ▸ mem_cons_of_mem _ h)

/-! ## Lines in a buffer -/

/-- The lines that `strchr` finds in a buffer, the first of which begins with `line`, and the bytes
behind them.  A NUL ends the search. -/
def scanFrom : Bytes → Bytes → List Bytes × Bytes
  | line, [] => ([], line)
  | line, b :: bs =>
    if b = 10 then (line :: (scanFrom [] bs).1, (scanFrom [] bs).2)
    else if b = 0 then ([], line ++ b :: bs)
    else scanFrom (line ++ [b]) bs

def scan (buf : Bytes) : List Bytes × Bytes := scanFrom [] buf

def joinLines : List Bytes → Bytes
  | [] => []
  | line :: lines => line ++ 10 :: joinLines lines

example : scan [97, 10, 10, 98] = ([[97], []], [98]) := by decide

theorem length_lt_of_mem_joinLines (h : line ∈ lines) : line.length < (joinLines lines).length := by
  induction lines with
  | nil => cases h
  | cons l ls ih =>
    rw [joinLines, length_append, length_cons]
    rcases mem_cons.1 h with rfl | h
    · omega
    · have hlt := ih h
      omega

theorem joinLines_scanFrom (line buf : Bytes) :
    joinLines (scanFrom line buf).1 ++ (scanFrom line buf).2 = line ++ buf := by
  fun_induction scanFrom line buf <;> simp_all [joinLines]

theorem length_scan (buf : Bytes) :
    buf.length = (joinLines (scan buf).1).length + (scan buf).2.length := by
  rw [← length_append, scan, joinLines_scanFrom, nil_append]

theorem scanFrom_spec (hnul : 0 ∉ buf) (hline : 10 ∉ line) :
    10 ∉ (scanFrom line buf).2 ∧ ∀ l ∈ (scanFrom line buf).1, 10 ∉ l := by
  fun_induction scanFrom line buf with
  | case1 => exact ⟨hline, nofun⟩
  | case2 line bs ih =>
    obtain ⟨hrest, hlines⟩ := ih (not_mem_of_not_mem_cons hnul) not_mem_nil
    exact ⟨hrest, forall_mem_cons.2 ⟨hline, hlines⟩⟩
  | case3 => simp at hnul
  | case4 line b bs hb _ ih => exact ih (not_mem_of_not_mem_cons hnul) (by simp [hline, Ne.symm hb])

theorem exists_of_joinLines_append {ls : List Bytes} (hls : ∀ l ∈ ls, 10 ∉ l)
    (hlines : ∀ l ∈ lines, 10 ∉ l) (h : joinLines ls ++ rest = joinLines lines) :
    ∃ ls', lines = ls ++ ls' ∧ rest = joinLines ls' := by
  induction ls generalizing lines with
  | nil => exact ⟨lines, rfl, h⟩
  | cons l ls ih =>
    obtain ⟨hl, hls⟩ := forall_mem_cons.1 hls
    rcases lines with - | ⟨l', lines⟩
    · simp [joinLines] at h
    · obtain ⟨hl', hrest'⟩ := forall_mem_cons.1 hlines
      rw [joinLines, append_assoc, cons_append] at h
      obtain ⟨rfl, hjoin⟩ := Needle.append_cons_inj hl hl' h
      obtain ⟨ls', rfl, hrest⟩ := ih hls hrest' hjoin
      exact ⟨ls', rfl, hrest⟩

/-- **The lines found in the beginning of a text** are its first lines, and what is left of the
buffer begins the next one. -/
theorem scan_joinLines (hnul : 0 ∉ buf) (hlines : ∀ l ∈ lines, 10 ∉ l)
    (h : buf ++ rest = joinLines lines) :
    ∃ ls, lines = (scan buf).1 ++ ls ∧ (scan buf).2 ++ rest = joinLines ls ∧
      10 ∉ (scan buf).2 ∧ (scan buf).2.length ≤ buf.length ∧
      ∀ l ∈ (scan buf).1, l.length < buf.length := by
  obtain ⟨hrest, hfound⟩ := scanFrom_spec hnul (not_mem_nil (a := 10))
  have hsplit : joinLines (scan buf).1 ++ ((scan buf).2 ++ rest) = joinLines lines := by
    rw [← append_assoc, scan, joinLines_scanFrom, nil_append, h]
  obtain ⟨ls, hls, hnext⟩ := exists_of_joinLines_append hfound hlines hsplit
  have hlen := length_scan buf
  refine ⟨ls, hls, hnext, hrest, by omega, fun l hl => ?_⟩
  have hlt := length_lt_of_mem_joinLines hl
  omega

/-- What has no newline in it is inside the first line. -/
theorem length_le_of_joinLines (hbuf : 10 ∉ buf)
    (h : buf ++ rest = joinLines (line :: lines)) : buf.length ≤ line.length := by
  rcases append_eq_append_iff.1 h with ⟨as, rfl, -⟩ | ⟨as, rfl, has⟩
  · simp
  · rcases as with - | ⟨c, as⟩
    · simp
    · obtain ⟨rfl, -⟩ := cons.inj has
      exact absurd (mem_append_right _ mem_cons_self) hbuf

/-- An empty line that ends with a carriage return ends a head, and there is none among other
lines. -/
theorem not_infix_joinLines (hlines : ∀ l ∈ lines, 10 ∉ l) (hne : [13] ∉ lines) :
    ¬ [10, 13, 10] <:+: 10 :: joinLines lines := by
  rintro ⟨pre, post, h⟩
  rw [append_assoc] at h
  induction lines generalizing pre with
  | nil =>
    have hlen := congrArg length h
    simp only [joinLines, length_append, length_cons] at hlen
    omega
  | cons l lines ih =>
    obtain ⟨hl, hrest⟩ := forall_mem_cons.1 hlines
    rw [mem_cons, not_or] at hne
    rcases pre with - | ⟨b, pre⟩
    · have hjoin : [13] ++ 10 :: post = l ++ 10 :: joinLines lines := (cons.inj h).2
      exact hne.1 (Needle.append_cons_inj (by decide) hl hjoin).1
    · have hjoin : pre ++ 10 :: 13 :: 10 :: post = l ++ 10 :: joinLines lines :=
        (cons.inj h).2
      rcases append_eq_append_iff.1 hjoin with ⟨as, rfl, hcut⟩ | ⟨as, rfl, hcut⟩
      · -- the newline of the needle is the one after the line
        rcases as with - | ⟨c, as⟩
        · exact ih hrest hne.2 [] hcut
        · obtain ⟨rfl, -⟩ := cons.inj hcut
          exact hl (mem_append_right _ mem_cons_self)
      · exact ih hrest hne.2 as hcut.symm

end CText
