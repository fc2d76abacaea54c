import Mathlib.Algebra.Group.Int.Defs
import MahinaOS.Lib.CText
import MahinaOS.Lib.ListUpdate

/-!
# luna-init: the TOML reader

`luna-init/toml.c` reads service files with pointers into fixed arrays.  A pointer into a C string
is what is left of the string; the step behind its terminator is a `fault`, and so is a write behind
the end of an array.

* `Stop` is a failed read: an error of the reader, or a fault.
* `exists_of_parseString`, `skipString_spec`: the decoder of a string and the loop that steps over
  it treat backslashes differently, but the loop stops where the decoder does or before.
* **`loadBuffer_in_bounds`**: no buffer makes the reader leave an array or a string, or run forever,
  and a document it returns is within the limits.
* **`aligned_iff`**: the strings of an array are apart iff no quote is behind a pair of backslashes.

The entries of a document are one list, with the section and the index of the block in each of them.

* **`stringLine_iff`**: a string on a line is found again iff no `#` is behind an odd number of its
  quotes.
* **`loadBuffer_lookups`**: what the three lookups find, in terms of the blocks of the buffer.
-/

namespace LunaInit.Toml

open CText ListUpdate List Nat

/-! ## The reader -/

/-- `toml_error_t`. -/
inductive TomlError
  | invalid
  | overflow
  | notFound
  | unsupported
  | tooLarge
  deriving DecidableEq, Repr

inductive Stop
  | error (e : TomlError)
  | fault
  deriving DecidableEq, Repr

abbrev Read := Except Stop

def fail {α : Type} (e : TomlError) : Read α := .error (.error e)

/-- `toml_value_t`. -/
inductive TomlValue
  | string (s : Bytes)
  | integer (n : Int)
  | boolean (b : Bool)
  | array (items : List Bytes)
  deriving DecidableEq, Repr

/-- `toml_entry_t`. -/
structure TomlEntry where
  table : Bytes
  key : Bytes
  value : TomlValue
  arrayTableIndex : Int
  deriving DecidableEq, Repr

/-- `toml_doc_t`. -/
structure TomlDoc where
  entries : List TomlEntry := []
  arrayTables : List (Bytes × Nat) := []
  deriving DecidableEq, Repr

/-- `parse_state_t`. -/
structure ParseState where
  curSection : Bytes := []
  curIsArrayTable : Bool := false
  curArrayTableEntry : Int := -1
  deriving DecidableEq, Repr

def ParseState.entry (st : ParseState) (key : Bytes) (value : TomlValue) : TomlEntry :=
  ⟨st.curSection, key, value, if st.curIsArrayTable then st.curArrayTableEntry else -1⟩

/-- A write to the next place of an array. -/
def store {α : Type} (size : Nat) (arr : List α) (x : α) : Read (List α) :=
  if arr.length < size then .ok (arr ++ [x]) else .error .fault

/-- `str_copy_bounded`. -/
def strCopyBounded (size : Nat) (src : Bytes) : Read Bytes :=
  if size ≤ src.length then fail .overflow else .ok src

def isSpace (b : UInt8) : Bool := b = 32 || (9 ≤ b && b ≤ 13)

/-- `str_trim_inplace`. -/
def strTrim (s : Bytes) : Bytes := (s.dropWhile isSpace).rdropWhile isSpace

/-- `parse_string_value` behind the opening quote; `\"` is the only escape. -/
def parseString (dst : Bytes) : Bytes → Read Bytes
  | [] => fail .invalid
  | 92 :: 34 :: p =>
    if dst.length < 255 then do parseString (← store 256 dst 34) p else fail .overflow
  | c :: p =>
    if c = 34 then do
      let _ ← store 256 dst 0
      return dst
    else if dst.length < 255 then do parseString (← store 256 dst c) p
    else fail .overflow

/-- The loop of `parse_array_value` that steps over a string. -/
def skipString : Bytes → Read Bytes
  | [] => .ok []
  | [92] => .error .fault
  | 92 :: _ :: p => skipString p
  | c :: p => if c = 34 then .ok (c :: p) else skipString p

/-- The loop of `parse_array_value` behind the opening bracket, with a bound on its rounds. -/
def parseItems : Nat → List Bytes → Bytes → Read (List Bytes)
  | 0, _, _ => .error .fault
  | fuel + 1, items, p =>
    match p.dropWhile fun b => isSpace b || b = 44 with
    | [] => fail .invalid
    | c :: p =>
      if c = 93 then if p.all isSpace then .ok items else fail .invalid
      else if c ≠ 34 then fail .unsupported
      else if 16 ≤ items.length then fail .overflow
      else do
        let item ← parseString [] p
        let items ← store 16 items item
        let p ← skipString p
        parseItems fuel items p.tail

/-- `strtoll` with base 10: the number and what is behind it, if there is one that fits. -/
def strtoll (raw : Bytes) : Option (Int × Bytes) :=
  let s := raw.dropWhile isSpace
  let digits := if s.head? = some 45 ∨ s.head? = some 43 then s.tail else s
  let isDigit (b : UInt8) : Bool := 48 ≤ b && b ≤ 57
  let n := (digits.takeWhile isDigit).foldl (fun (n : Int) d => 10 * n + (d.toNat - 48)) 0
  let v := if s.head? = some 45 then -n else n
  if digits.takeWhile isDigit = [] ∨ v < -2 ^ 63 ∨ 2 ^ 63 ≤ v then none
  else some (v, digits.dropWhile isDigit)

/-- The text is the word, or goes on with white space or a comment. -/
def isToken (word raw : Bytes) : Bool :=
  decide (word <+: raw) && ((raw.drop word.length).head?.all fun b => isSpace b || b = 35)

/-- `parse_value`. -/
def parseValue (raw : Bytes) : Read TomlValue :=
  if raw.head? = some 34 then (parseString [] raw.tail).map .string
  else if raw.head? = some 91 then (parseItems raw.length [] raw.tail).map .array
  else if isToken [116, 114, 117, 101] raw then .ok (.boolean true)
  else if isToken [102, 97, 108, 115, 101] raw then .ok (.boolean false)
  else
    match strtoll raw with
    | none => fail .unsupported
    | some (n, []) => .ok (.integer n)
    | some _ => fail .invalid

/-- The text without a comment: the first `#` outside of quotes ends it. -/
def stripComment : Bool → Bytes → Bytes
  | _, [] => []
  | inStr, b :: bs =>
    let inStr := if b = 34 then !inStr else inStr
    if !inStr && b = 35 then [] else b :: stripComment inStr bs

/-- What is before the first `needle`, and what is behind it. -/
def splitAt (needle : Bytes) : Bytes → Option (Bytes × Bytes)
  | [] => none
  | b :: bs =>
    if needle <+: b :: bs then some ([], (b :: bs).drop needle.length)
    else (splitAt needle bs).map fun r => (b :: r.1, r.2)

/-- What a line says. -/
inductive Line
  | blank
  | arrayHeader (name : Bytes)
  | header (name : Bytes)
  | pair (key raw : Bytes)
  deriving DecidableEq, Repr

/-- `parse_line` up to where it knows what the line is. -/
def readLine (line : Bytes) : Read Line :=
  let line := strTrim line
  if line = [] ∨ line.head? = some 35 then .ok .blank
  else if [91, 91] <+: line then
    match splitAt [93, 93] (line.drop 2) with
    | none => fail .invalid
    | some (name, _) => (strCopyBounded 64 name).map .arrayHeader
  else if line.head? = some 91 then
    match splitAt [93] line.tail with
    | none => fail .invalid
    | some (name, _) => (strCopyBounded 64 name).map .header
  else
    match splitAt [61] line with
    | none => fail .invalid
    | some (key, raw) => do
      let key ← strCopyBounded 64 key
      let raw ← strCopyBounded 512 raw
      return .pair (strTrim key) (strTrim (stripComment false (strTrim raw)))

/-- `strncmp` says that two names are the same. -/
def sameName (a b : Bytes) : Bool := a.take 64 = b.take 64

/-- `toml_get_or_create_array_table`. -/
def getOrCreateArrayTable (tables : List (Bytes × Nat)) (name : Bytes) :
    Read (List (Bytes × Nat)) :=
  if tables.any (sameName ·.1 name) then .ok tables
  else if 32 ≤ tables.length then fail .overflow
  else store 32 tables (name, 0)

/-- The number of entries of an array of tables. -/
def countOf (tables : List (Bytes × Nat)) (name : Bytes) : Nat :=
  (tables.find? (sameName ·.1 name)).elim 0 Prod.snd

def countOn (tables : List (Bytes × Nat)) (name : Bytes) : List (Bytes × Nat) :=
  modifyFirst (sameName ·.1 name) (fun t => (t.1, t.2 + 1)) tables

/-- `parse_line` from there on. -/
def applyLine (st : TomlDoc × ParseState) : Line → Read (TomlDoc × ParseState)
  | .blank => return st
  | .arrayHeader name => do
    let tables ← getOrCreateArrayTable st.1.arrayTables name
    return ({ st.1 with arrayTables := countOn tables name }, ⟨name, true, countOf tables name⟩)
  | .header name => return (st.1, ⟨name, false, -1⟩)
  | .pair key raw =>
    if 128 ≤ st.1.entries.length then fail .overflow
    else do
      let value ← parseValue raw
      let entries ← store 128 st.1.entries (st.2.entry key value)
      return ({ st.1 with entries }, st.2)

def bufferLines (buf : Bytes) : List Bytes :=
  let lines := buf.splitOn 10
  if lines.getLast? = some [] then lines.dropLast else lines

/-- A line as a C string, without a carriage return at its end. -/
def lineString (line : Bytes) : Read Bytes :=
  if 512 ≤ line.length then fail .overflow
  else .ok (cut (if line.getLast? = some 13 then line.dropLast else line))

def bufferLine (line : Bytes) : Read Line := lineString line >>= readLine

/-- `toml_load_buffer`. -/
def loadBuffer (buf : Bytes) : Read TomlDoc :=
  if buf = [] ∨ 65536 < buf.length then fail .tooLarge
  else do
    let st ← (bufferLines buf).foldlM (fun st line => bufferLine line >>= applyLine st) ({}, {})
    return st.1

/-! ## No fault -/

/-- The read does not fault, and what it returns satisfies `P`. -/
def Safe {α : Type} (P : α → Prop) : Read α → Prop
  | .ok a => P a
  | .error (.error _) => True
  | .error .fault => False

section

variable {α β : Type} {P : α → Prop} {Q : β → Prop} {r : Read α}

theorem Safe.bind {f : α → Read β} (h : Safe P r) (hf : ∀ a, r = .ok a → P a → Safe Q (f a)) :
    Safe Q (r >>= f) := by
  rcases r with (e | -) | a
  · trivial
  · exact h.elim
  · exact hf a rfl h

theorem Safe.map {f : α → β} (h : Safe P r) (hf : ∀ a, P a → Q (f a)) : Safe Q (r.map f) := by
  rcases r with (e | -) | a
  · trivial
  · exact h.elim
  · exact hf a h

theorem exists_of_bind {f : α → Read β} {b : β} (h : r >>= f = .ok b) :
    ∃ a, r = .ok a ∧ f a = .ok b := by
  rcases r with e | a
  · cases h
  · exact ⟨a, rfl, h⟩

theorem safe_store {size : Nat} {arr : List α} (h : arr.length < size) (x : α) :
    Safe (· = arr ++ [x]) (store size arr x) := by
  rw [store, if_pos h]
  rfl

end

theorem safe_strCopyBounded (size : Nat) (src : Bytes) :
    Safe (fun s => s.length < size) (strCopyBounded size src) := by
  rw [strCopyBounded]
  split
  · trivial
  · next h => exact not_le.1 h

variable {dst p s : Bytes}

theorem safe_parseString (h : dst.length < 256) (p : Bytes) :
    Safe (fun s => s.length < 256) (parseString dst p) := by
  have hstore {dst : Bytes} {c : UInt8} {p : Bytes} (hlt : dst.length < 255)
      (ih : ∀ dst', dst'.length < 256 → Safe (fun s => s.length < 256) (parseString dst' p)) :
      Safe (fun s => s.length < 256) (store 256 dst c >>= (parseString · p)) := by
    refine (safe_store (by omega) c).bind ?_
    rintro _ - rfl
    exact ih _ (by rw [length_append, length_singleton]; omega)
  fun_induction parseString dst p with
  | case1 | case3 | case6 => trivial
  | case2 dst p hlt ih => exact hstore hlt ih
  | case4 dst p => exact (safe_store h 0).bind fun _ _ _ => h
  | case5 dst c p _ _ hlt ih => exact hstore hlt ih

/-- The decoder stops at a quote that has no backslash before it. -/
theorem exists_of_parseString (h : parseString dst p = .ok s) :
    ∃ w r, p = w ++ 34 :: r ∧ ¬[92] <:+ w := by
  fun_induction parseString dst p with
  | case1 | case3 | case6 => cases h
  | case2 dst p hlt ih =>
    obtain ⟨dst', -, h⟩ := exists_of_bind h
    obtain ⟨w, r, rfl, hw⟩ := ih dst' h
    exact ⟨92 :: 34 :: w, r, rfl, by simp [suffix_cons_iff, hw]⟩
  | case4 dst p => exact ⟨[], p, rfl, by simp⟩
  | case5 dst c p hescape hc hlt ih =>
    obtain ⟨dst', -, h⟩ := exists_of_bind h
    obtain ⟨w, r, rfl, hw⟩ := ih dst' h
    refine ⟨c :: w, r, rfl, fun hlast => ?_⟩
    rcases suffix_cons_iff.1 hlast with heq | hlast
    · obtain ⟨rfl, rfl⟩ := cons.inj heq
      exact hescape r rfl rfl
    · exact hw hlast

/-- The loop over a string stops at this quote or before. -/
theorem skipString_spec {w : Bytes} (hw : ¬[92] <:+ w) (r : Bytes) :
    ∃ q, skipString (w ++ 34 :: r) = .ok (34 :: q) ∧ q.length < (w ++ 34 :: r).length := by
  generalize hp : w ++ 34 :: r = p
  fun_induction skipString p generalizing w with
  | case1 | case2 => rcases w with - | ⟨c, w⟩ <;> simp at hp
  | case3 c p ih =>
    rcases w with - | ⟨a, - | ⟨b, w⟩⟩
    · cases hp
    · exact absurd (suffix_cons_iff.2 (.inl (by rw [(cons.inj hp).1]))) hw
    · obtain ⟨q, hq, hlen⟩ := ih (w := w) (fun h => hw (h.trans ⟨[a, b], rfl⟩)) (by simp_all)
      exact ⟨q, hq, lt_succ_of_lt (lt_succ_of_lt hlen)⟩
  | case4 p => exact ⟨p, rfl, lt_succ_self _⟩
  | case5 c p hone htwo hc ih =>
    rcases w with - | ⟨a, w⟩
    · exact absurd (cons.inj hp).1.symm hc
    · obtain ⟨q, hq, hlen⟩ := ih (w := w) (fun h => hw (h.trans ⟨[a], rfl⟩)) (cons.inj hp).2
      exact ⟨q, hq, lt_succ_of_lt hlen⟩

/-- The limits of a value. -/
def TomlValue.InBounds : TomlValue → Prop
  | .string s => s.length < 256
  | .array items => items.length ≤ 16 ∧ ∀ s ∈ items, s.length < 256
  | .integer _ | .boolean _ => True

theorem safe_parseItems {fuel : Nat} {items : List Bytes}
    (hitems : (TomlValue.array items).InBounds) (hfuel : p.length < fuel) :
    Safe (fun items => (TomlValue.array items).InBounds) (parseItems fuel items p) := by
  induction fuel generalizing items p with
  | zero => cases hfuel
  | succ fuel ih =>
    have hlen := (dropWhile_suffix (l := p) fun b => isSpace b || b = 44).length_le
    rw [parseItems]
    generalize p.dropWhile (fun b => isSpace b || b = 44) = p at hlen
    rcases p with - | ⟨c, p⟩
    · trivial
    · dsimp only
      split_ifs with hend hblank hquote hfull
      · exact hitems
      · trivial
      · trivial
      · trivial
      · refine (safe_parseString (by decide) p).bind fun item hitem hbound => ?_
        refine (safe_store (not_le.1 hfull) item).bind ?_
        rintro _ - rfl
        obtain ⟨w, r, rfl, hw⟩ := exists_of_parseString hitem
        obtain ⟨q, hq, hqlen⟩ := skipString_spec hw r
        rw [hq]
        refine ih ⟨?_, ?_⟩ ?_
        · rw [length_append, length_singleton]
          omega
        · rw [forall_mem_append, forall_mem_singleton]
          exact ⟨hitems.2, hbound⟩
        · rw [tail_cons]
          rw [length_cons] at hlen
          omega

theorem safe_parseValue (raw : Bytes) : Safe TomlValue.InBounds (parseValue raw) := by
  rw [parseValue]
  split_ifs with hstring harray
  · exact (safe_parseString (by decide) _).map fun s hs => hs
  · refine (safe_parseItems ⟨by decide, by simp⟩ ?_).map fun items hitems => hitems
    rcases raw with - | ⟨c, raw⟩
    · cases harray
    · exact lt_succ_self _
  · trivial
  · trivial
  · split <;> trivial

/-- The limits of what a line says. -/
def Line.InBounds : Line → Prop
  | .blank => True
  | .arrayHeader name | .header name => name.length < 64
  | .pair key _ => key.length < 64

theorem safe_readLine (line : Bytes) : Safe Line.InBounds (readLine line) := by
  unfold readLine
  dsimp only
  split_ifs
  · trivial
  · split
    · trivial
    · exact (safe_strCopyBounded 64 _).map fun _ h => h
  · split
    · trivial
    · exact (safe_strCopyBounded 64 _).map fun _ h => h
  · split
    · trivial
    · refine (safe_strCopyBounded 64 _).bind fun key _ hkey => ?_
      refine (safe_strCopyBounded 512 _).bind fun _ _ _ => ?_
      have htrim : strTrim key <+: key.dropWhile isSpace := rdropWhile_prefix ..
      have hle := htrim.length_le.trans (dropWhile_suffix ..).length_le
      exact hle.trans_lt hkey

/-- The limits of a document. -/
structure TomlDoc.InBounds (doc : TomlDoc) : Prop where
  entries : doc.entries.length ≤ 128
  arrayTables : doc.arrayTables.length ≤ 32
  values : ∀ e ∈ doc.entries, e.value.InBounds

theorem safe_getOrCreateArrayTable {tables : List (Bytes × Nat)} (h : tables.length ≤ 32)
    (name : Bytes) : Safe (·.length ≤ 32) (getOrCreateArrayTable tables name) := by
  rw [getOrCreateArrayTable]
  split_ifs with _ hfull
  · exact h
  · trivial
  · rw [store, if_pos (not_le.1 hfull)]
    show (tables ++ [_]).length ≤ 32
    rw [length_append]
    exact not_le.1 hfull

theorem safe_applyLine {st : TomlDoc × ParseState} (h : st.1.InBounds) (l : Line) :
    Safe (·.1.InBounds) (applyLine st l) := by
  rcases l with - | name | name | ⟨-, raw⟩
  · exact h
  · refine (safe_getOrCreateArrayTable h.arrayTables name).bind fun tables _ hlen => ?_
    exact { h with arrayTables := (length_modifyFirst ..).trans_le hlen }
  · exact h
  · rw [applyLine]
    split
    · trivial
    · next hfull =>
      refine (safe_parseValue raw).bind fun value _ hvalue => ?_
      refine (safe_store (not_le.1 hfull) _).bind ?_
      rintro _ - rfl
      refine { h with entries := ?_, values := ?_ }
      · rw [length_append]
        exact not_le.1 hfull
      · rw [forall_mem_append, forall_mem_singleton]
        exact ⟨h.values, hvalue⟩

theorem safe_bufferLine (line : Bytes) : Safe Line.InBounds (bufferLine line) := by
  have hstring : Safe (fun _ => True) (lineString line) := by
    rw [lineString]
    split <;> trivial
  exact hstring.bind fun s _ _ => safe_readLine s

/-- **The reader stays within its arrays**, whatever the buffer holds: it does not fault, so that it
also terminates, and what it returns is within the limits. -/
theorem loadBuffer_in_bounds (buf : Bytes) :
    loadBuffer buf ≠ .error .fault ∧ ∀ doc, loadBuffer buf = .ok doc → doc.InBounds := by
  have hlines (lines : List Bytes) {st : TomlDoc × ParseState} (h : st.1.InBounds) :
      Safe (·.1.InBounds) (lines.foldlM (fun st line => bufferLine line >>= applyLine st) st) := by
    induction lines generalizing st with
    | nil => exact h
    | cons line lines ih =>
      refine .bind (P := (·.1.InBounds)) ?_ fun st _ h => ih h
      exact (safe_bufferLine line).bind fun l _ _ => safe_applyLine h l
  have hsafe : Safe TomlDoc.InBounds (loadBuffer buf) := by
    rw [loadBuffer]
    split
    · trivial
    · exact (hlines _ ⟨zero_le _, zero_le _, by simp⟩).bind fun _ _ h => h
  constructor
  · intro hfault
    rw [hfault] at hsafe
    exact hsafe
  · intro doc hdoc
    rw [hdoc] at hsafe
    exact hsafe

/-! ## The strings of an array -/

/-- What is left of the text at the quote where `parse_string_value` stops. -/
def stringEnd : Bytes → Bytes
  | [] => []
  | 92 :: 34 :: p => stringEnd p
  | c :: p => if c = 34 then c :: p else stringEnd p

/-- Each string of an array is left at the quote where `parse_string_value` stopped. -/
def Aligned : Nat → Bytes → Prop
  | 0, _ => True
  | fuel + 1, p =>
    match p.dropWhile fun b => isSpace b || b = 44 with
    | [] => True
    | c :: p => c = 34 → skipString p = .ok (stringEnd p) ∧ Aligned fuel (stringEnd p).tail

namespace TomlDoc

/-- The value of the first entry with a key among those that pass a test. -/
def lookup (doc : TomlDoc) (p : TomlEntry → Bool) (key : Bytes) : Except TomlError TomlValue :=
  ((doc.entries.filter p).find? (sameName ·.key key)).elim (.error .notFound) fun e => .ok e.value

/-- `toml_get`. -/
def get (doc : TomlDoc) (sec : Option Bytes) (key : Bytes) : Except TomlError TomlValue :=
  doc.lookup (fun e => ¬0 ≤ e.arrayTableIndex && sameName e.table (sec.getD [])) key

/-- `toml_array_table_count`. -/
def arrayTableCount (doc : TomlDoc) (sec : Bytes) : Nat := countOf doc.arrayTables sec

/-- `toml_array_table_get`. -/
def arrayTableGet (doc : TomlDoc) (sec : Bytes) (index : Int) (key : Bytes) :
    Except TomlError TomlValue :=
  if index < 0 then .error .invalid
  else doc.lookup (fun e => e.arrayTableIndex = index && sameName e.table sec) key

end TomlDoc

/-! ### A string on a line -/

/-- The text of a string, with each quote written as `\"`. -/
def escaped : Bytes → Bytes
  | [] => []
  | c :: s => if c = 34 then 92 :: 34 :: escaped s else c :: escaped s

/-- The line `key = "s"`. -/
def stringLine (s : Bytes) : Bytes := 107 :: ([101, 121, 32, 61, 32, 34] ++ escaped s ++ [34])

/-- Each `#` of a string is behind an even number of its quotes, if `inStr` is set at the start. -/
def HashInside : Bool → Bytes → Prop
  | _, [] => True
  | inStr, c :: s => (c = 35 → inStr = true) ∧ HashInside (if c = 34 then !inStr else inStr) s

theorem escaped_spec (hs : ∀ c ∈ s, 32 ≤ c) :
    (escaped s).length ≤ 2 * s.length ∧ ∀ c ∈ escaped s, 32 ≤ c := by
  induction s with
  | nil => simp [escaped]
  | cons c s ih => grind [escaped]

theorem backslash_of_escaped {w r : Bytes} (h : escaped s = w ++ 34 :: r) : [92] <:+ w := by
  induction s generalizing w with
  | nil => simp [escaped] at h
  | cons c s ih => rcases w with - | ⟨a, - | ⟨b, w⟩⟩ <;> grind [escaped, suffix_cons_iff]

/-- A comment is found at the first `#` that is not inside. -/
theorem stripComment_escaped (inStr : Bool) (s : Bytes) :
    HashInside inStr s ∧ stripComment inStr (escaped s ++ [34]) = escaped s ++ [34] ∨
      ¬HashInside inStr s ∧ stripComment inStr (escaped s ++ [34]) <+: escaped s := by
  induction s generalizing inStr with
  | nil => exact .inl ⟨trivial, by simp [escaped, stripComment]⟩
  | cons c s ih => grind [HashInside, escaped, stripComment, prefix_cons_inj]

theorem parseString_escaped (hs : dst.length + s.length ≤ 255) (hlast : s.getLast? ≠ some 92) :
    parseString dst (escaped s ++ [34]) = .ok (dst ++ s) := by
  induction s generalizing dst with
  | nil =>
    have hlt : dst.length < 256 := lt_succ_of_le hs
    simp [escaped, parseString, store, hlt]
  | cons c s ih =>
    rw [length_cons] at hs
    have hstore : store 256 dst c = .ok (dst ++ [c]) := if_pos (by omega)
    have hrest : parseString (dst ++ [c]) (escaped s ++ [34]) = .ok (dst ++ c :: s) := by
      rw [ih (by simp; omega) (by grind), append_assoc]
      rfl
    rw [← hrest, escaped]
    split
    · next hc =>
      subst hc
      rw [cons_append, cons_append, parseString, if_pos (by omega), hstore]
      rfl
    · next hc =>
      -- a backslash is not the last character, and what follows it is not a bare quote
      have hescape : ∀ r, c = 92 → escaped s ++ [34] ≠ 34 :: r := by
        rcases s with - | ⟨a, s⟩ <;> grind [escaped]
      rw [cons_append, parseString.eq_3 _ _ _ hescape, if_neg hc, if_pos (by omega), hstore]
      rfl

theorem strTrim_quoted {c : UInt8} (hc : isSpace c = false) (p : Bytes) :
    strTrim (c :: (p ++ [34])) = c :: (p ++ [34]) := by
  rw [strTrim, dropWhile_cons_of_neg (by simp [hc]), ← cons_append,
    rdropWhile_concat_neg _ _ _ (by decide)]

theorem parseValue_escaped (hs : s.length ≤ 200) (hlast : s.getLast? ≠ some 92) :
    parseValue (strTrim (34 :: stripComment true (escaped s ++ [34]))) = .ok (.string s) ↔
      HashInside true s := by
  have hvalue (p : Bytes) : parseValue (34 :: p) = (parseString [] p).map .string := rfl
  rcases stripComment_escaped true s with ⟨hin, heq⟩ | ⟨hout, hcut⟩
  · refine iff_of_true ?_ hin
    rw [heq, strTrim_quoted rfl, hvalue, parseString_escaped (by simp; omega) hlast]
    rfl
  · refine iff_of_false (fun h => ?_) hout
    have htrim : strTrim (34 :: stripComment true (escaped s ++ [34])) <+: 34 :: escaped s := by
      refine IsPrefix.trans ?_ ((prefix_cons_inj 34).2 hcut)
      exact rdropWhile_prefix isSpace _
    generalize strTrim _ = raw at h htrim
    rcases raw with - | ⟨c, p⟩
    · cases h
    · obtain ⟨rfl, u, hu⟩ := cons_prefix_cons.1 htrim
      rw [hvalue] at h
      rcases hp : parseString [] p with e | v
      · rw [hp] at h
        cases h
      · -- the decoder stops at a quote with no backslash before it, and the cut text has none
        obtain ⟨w, r, rfl, hw⟩ := exists_of_parseString hp
        exact hw (backslash_of_escaped (by rw [← hu, append_assoc, cons_append]))

theorem loadBuffer_stringLine (hlen : s.length ≤ 200) (hs : ∀ c ∈ s, 32 ≤ c) :
    loadBuffer (stringLine s) =
      (parseValue (strTrim (34 :: stripComment true (escaped s ++ [34])))).map fun v =>
        ⟨[⟨[], [107, 101, 121], v, -1⟩], []⟩ := by
  obtain ⟨hlen', hmem⟩ := escaped_spec hs
  have hsize : (stringLine s).length ≤ 408 := by
    simp [stringLine]
    omega
  have hbyte : ∀ c ∈ stringLine s, 32 ≤ c := by
    rw [stringLine, forall_mem_cons, forall_mem_append, forall_mem_append]
    exact ⟨by decide, ⟨by simp, hmem⟩, by simp⟩
  have hstring : lineString (stringLine s) = .ok (stringLine s) := by
    rw [lineString, if_neg (by omega),
      if_neg fun h => absurd (hbyte 13 (mem_of_getLast? h)) (by decide),
      cut_eq_self fun h => absurd (hbyte 0 h) (by decide)]
  have hline : bufferLine (stringLine s) =
      .ok (.pair [107, 101, 121] (strTrim (34 :: stripComment true (escaped s ++ [34])))) := by
    have hcopy : strCopyBounded 512 (32 :: 34 :: (escaped s ++ [34])) = .ok _ :=
      if_neg (by simp; omega)
    have hraw : strTrim (32 :: 34 :: (escaped s ++ [34])) = _ := strTrim_quoted (c := 34) rfl _
    rw [bufferLine, hstring]
    show readLine (stringLine s) = _
    rw [readLine, show strTrim (stringLine s) = stringLine s from strTrim_quoted rfl _]
    show (strCopyBounded 512 (32 :: 34 :: (escaped s ++ [34])) >>= fun raw =>
      Except.ok (Line.pair _ (strTrim (stripComment false (strTrim raw))))) = _
    rw [hcopy]
    show Except.ok (Line.pair _ (strTrim (stripComment false (strTrim _)))) = _
    rw [hraw]
    rfl
  have hlines : bufferLines (stringLine s) = [stringLine s] := by
    rw [bufferLines, splitOn_eq_singleton fun h => absurd (hbyte 10 h) (by decide)]
    rfl
  rw [loadBuffer, if_neg (by simp [stringLine]; omega), hlines, foldlM_cons, hline]
  generalize strTrim _ = raw
  simp only [bind, Except.bind, applyLine]
  rcases parseValue raw with e | v <;> rfl

/-- **A string on a line is read back** iff each of its `#` is behind an even number of its quotes:
the search for a comment takes `\"` for a quote. -/
theorem stringLine_iff (hlen : s.length ≤ 200) (hs : ∀ c ∈ s, 32 ≤ c ∧ c ≤ 126)
    (hlast : s.getLast? ≠ some 92) :
    (∃ doc, loadBuffer (stringLine s) = .ok doc ∧
        doc.get none [107, 101, 121] = .ok (.string s)) ↔ HashInside true s := by
  rw [← parseValue_escaped hlen hlast, loadBuffer_stringLine hlen fun c hc => (hs c hc).1]
  generalize parseValue _ = r
  rcases r with e | v <;> simp [Except.map, TomlDoc.get, TomlDoc.lookup, sameName]

theorem stringLine_iff_sample :
    (∃ doc, loadBuffer (stringLine [35]) = .ok doc ∧
        doc.get none [107, 101, 121] = .ok (.string [35])) ↔ HashInside true [35] :=
  stringLine_iff (by decide) (by simp) (by decide)

/-- The line `key = "\"#"`. -/
theorem hash_cut : loadBuffer (stringLine [34, 35]) = fail .invalid := by
  decide

/-! ### The blocks of a document -/

def Line.isHeader : Line → Bool
  | .header _ | .arrayHeader _ => true
  | _ => false

/-- The key and the value of a line. -/
def Line.pair? : Line → Option (Bytes × TomlValue)
  | .pair key raw => (parseValue raw).toOption.map (key, ·)
  | _ => none

/-- The last header of some lines. -/
def header? (ls : List Line) : Option Line := ls.reverse.find? Line.isHeader

/-- What follows is in the `i`-th `[[s]]` block. -/
def inArrayBlock (s : Bytes) (i : Nat) (before : List Line) : Bool :=
  header? before = some (.arrayHeader s) && before.count (.arrayHeader s) = i + 1

/-- What follows is in an `[s]` block, or before every header and `s` is empty. -/
def inBlock (s : Bytes) (before : List Line) : Bool :=
  header? before = some (.header s) || header? before = none && s = []

/-- The pairs of the lines that follow `before`, where the lines before each of them pass a test. -/
def pairsIn (q : List Line → Bool) :
    List Line → List Line → List (Bytes × TomlValue)
  | _, [] => []
  | before, l :: ls => (if q before then l.pair?.toList else []) ++ pairsIn q (before ++ [l]) ls

/-- The value of the first pair with a key. -/
def firstValue (key : Bytes) (pairs : List (Bytes × TomlValue)) : Except TomlError TomlValue :=
  (pairs.find? (·.1 = key)).elim (.error .notFound) fun e => .ok e.2

/-! ### What the entries stand for -/

/-- The state behind some lines. -/
def stateAt (before : List Line) : ParseState :=
  match header? before with
  | some (.arrayHeader name) => ⟨name, true, before.count (.arrayHeader name) - 1⟩
  | some (.header name) => ⟨name, false, -1⟩
  | _ => {}

/-- The document and the state are those behind some lines. -/
structure Behind (before : List Line) (st : TomlDoc × ParseState) : Prop where
  lines : ∀ l ∈ before, l.InBounds
  counts : ∀ s, countOf st.1.arrayTables s = before.count (.arrayHeader s)
  state : st.2 = stateAt before
  keys : ∀ e ∈ st.1.entries, e.key.length < 64

theorem sameName_iff {a b : Bytes} (ha : a.length < 64) : sameName a b = true ↔ a = b := by
  rw [sameName, decide_eq_true_iff, take_of_length_le ha.le]
  constructor
  · intro h
    have hlen := congrArg length h
    rw [length_take] at hlen
    rwa [take_of_length_le (by omega)] at h
  · intro h
    rw [← h, take_of_length_le ha.le]

section

variable {tables tables' : List (Bytes × Nat)} {name : Bytes}

theorem countOf_countOn (hname : name.length < 64)
    (hany : tables.any (sameName ·.1 name) = true) (s : Bytes) :
    countOf (countOn tables name) s = countOf tables s + if name = s then 1 else 0 := by
  by_cases hs : name = s
  · subst hs
    obtain ⟨t, ht⟩ := Option.isSome_iff_exists.1 (find?_isSome.2 (any_eq_true.1 hany))
    have hfind := find?_modifyFirst (p := (sameName ·.1 name)) (f := fun t => (t.1, t.2 + 1))
      (fun _ => rfl) tables
    rw [countOf, countOf, countOn, hfind, ht, if_pos rfl]
    rfl
  · have hother (t : Bytes × Nat) (ht : sameName t.1 name = true) : sameName t.1 s = false := by
      refine Bool.eq_false_iff.2 fun hts => hs ((sameName_iff hname).1 ?_)
      rw [sameName, decide_eq_true_iff] at *
      exact ht.symm.trans hts
    have hfind := find?_modifyFirst_of_disjoint (p := (sameName ·.1 name))
      (f := fun t => (t.1, t.2 + 1)) (fun t ht => ⟨hother t ht, hother t ht⟩) tables
    rw [countOf, countOf, countOn, hfind, if_neg hs, add_zero]

theorem countOf_getOrCreate (h : getOrCreateArrayTable tables name = .ok tables') :
    tables'.any (sameName ·.1 name) = true ∧ ∀ s, countOf tables' s = countOf tables s := by
  rw [getOrCreateArrayTable] at h
  split_ifs at h with hany hfull
  · cases h
    exact ⟨hany, fun _ => rfl⟩
  · cases h
  · rw [store, if_pos (not_le.1 hfull)] at h
    cases h
    refine ⟨by simp [sameName], fun s => ?_⟩
    rw [countOf, countOf, find?_append]
    rcases tables.find? _ with - | t
    · rw [find?_singleton]
      split <;> rfl
    · rfl

end

variable {before : List Line} {l : Line} {st st' : TomlDoc × ParseState}

theorem header?_append (before : List Line) (l : Line) :
    header? (before ++ [l]) = if l.isHeader then some l else header? before := by
  split <;> simp_all [header?]

/-- What a line does. -/
theorem applyLine_cases (h : applyLine st l = .ok st') :
    (l = .blank ∧ st' = st) ∨
    (∃ name tables, l = .arrayHeader name ∧
      getOrCreateArrayTable st.1.arrayTables name = .ok tables ∧
      st' = (⟨st.1.entries, countOn tables name⟩, ⟨name, true, countOf tables name⟩)) ∨
    (∃ name, l = .header name ∧ st' = (st.1, ⟨name, false, -1⟩)) ∨
    ∃ key raw value, l = .pair key raw ∧ parseValue raw = .ok value ∧
      st' = (⟨st.1.entries ++ [st.2.entry key value], st.1.arrayTables⟩, st.2) := by
  rcases l with - | name | name | ⟨key, raw⟩
  · cases h
    exact .inl ⟨rfl, rfl⟩
  · obtain ⟨tables, htables, h⟩ := exists_of_bind h
    cases h
    exact .inr (.inl ⟨name, tables, rfl, htables, rfl⟩)
  · cases h
    exact .inr (.inr (.inl ⟨name, rfl, rfl⟩))
  · rw [applyLine] at h
    split at h
    · cases h
    · next hfull =>
      obtain ⟨value, hvalue, h⟩ := exists_of_bind h
      obtain ⟨entries, hentries, h⟩ := exists_of_bind h
      rw [store, if_pos (not_le.1 hfull)] at hentries
      cases hentries
      cases h
      exact .inr (.inr (.inr ⟨key, raw, value, rfl, hvalue, rfl⟩))

theorem Behind.step (h : Behind before st) (hl : l.InBounds) (happly : applyLine st l = .ok st') :
    Behind (before ++ [l]) st' := by
  have hlines : ∀ l' ∈ before ++ [l], l'.InBounds := by
    rw [forall_mem_append, forall_mem_singleton]
    exact ⟨h.lines, hl⟩
  have hcount (hne : ∀ s, l ≠ .arrayHeader s) (s : Bytes) :
      countOf st.1.arrayTables s = (before ++ [l]).count (.arrayHeader s) := by
    rw [count_append, count_singleton, if_neg (by simpa using hne s), add_zero, h.counts]
  have hstate (hhead : l.isHeader = false) (hne : ∀ s, l ≠ .arrayHeader s) :
      st.2 = stateAt (before ++ [l]) := by
    rw [h.state, stateAt, stateAt, header?_append, hhead]
    simp only [← h.counts, ← hcount hne]
    rfl
  rcases applyLine_cases happly with ⟨rfl, rfl⟩ | ⟨name, tables, rfl, htables, rfl⟩ |
    ⟨name, rfl, rfl⟩ | ⟨key, raw, value, rfl, hvalue, rfl⟩
  · exact ⟨hlines, hcount (by simp), hstate rfl (by simp), h.keys⟩
  · obtain ⟨hany, hsame⟩ := countOf_getOrCreate htables
    refine ⟨hlines, fun s => ?_, ?_, h.keys⟩
    · rw [countOf_countOn hl hany, hsame, h.counts, count_append, count_singleton]
      simp
    · simp [stateAt, header?_append, Line.isHeader, hsame, h.counts]
  · refine ⟨hlines, hcount (by simp), ?_, h.keys⟩
    simp [stateAt, header?_append, Line.isHeader]
  · refine ⟨hlines, hcount (by simp), hstate rfl (by simp), ?_⟩
    rw [forall_mem_append, forall_mem_singleton]
    exact ⟨h.keys, hl⟩

/-- The test of an entry is one of the lines before it. -/
def Decides (p : TomlEntry → Bool) (q : List Line → Bool) : Prop :=
  ∀ before key value, (∀ l ∈ before, l.InBounds) → p ((stateAt before).entry key value) = q before

/-- The pairs of the entries that pass a test. -/
def TomlDoc.pairs (p : TomlEntry → Bool) (doc : TomlDoc) : List (Bytes × TomlValue) :=
  (doc.entries.filter p).map fun e => (e.key, e.value)

theorem pairs_run {p : TomlEntry → Bool} {q : List Line → Bool} (hpq : Decides p q)
    {ls : List Line} (hls : ∀ l ∈ ls, l.InBounds) (h : Behind before st)
    (hrun : ls.foldlM applyLine st = .ok st') :
    Behind (before ++ ls) st' ∧ st'.1.pairs p = st.1.pairs p ++ pairsIn q before ls := by
  induction ls generalizing before st with
  | nil =>
    cases hrun
    exact ⟨by rwa [append_nil], (append_nil _).symm⟩
  | cons l ls ih =>
    obtain ⟨st₁, happly, hrun⟩ := exists_of_bind hrun
    rw [forall_mem_cons] at hls
    obtain ⟨hbehind, hpairs⟩ := ih hls.2 (h.step hls.1 happly) hrun
    rw [append_assoc] at hbehind
    refine ⟨hbehind, ?_⟩
    rw [hpairs, pairsIn, ← append_assoc]
    congr 1
    rcases applyLine_cases happly with ⟨rfl, rfl⟩ | ⟨name, -, rfl, -, rfl⟩ |
      ⟨name, rfl, rfl⟩ | ⟨key, raw, value, rfl, hvalue, rfl⟩
    · simp [Line.pair?]
    · simp [Line.pair?, TomlDoc.pairs]
    · simp [Line.pair?]
    · have hentry : p (st.2.entry key value) = q before := by
        rw [h.state]
        exact hpq before key value h.lines
      simp only [TomlDoc.pairs, filter_append, map_append, Line.pair?, hvalue]
      rw [filter_singleton, hentry]
      cases q before <;> rfl

theorem header?_eq_some (h : header? before = some l) : l ∈ before ∧ l.isHeader = true :=
  ⟨mem_reverse.1 (mem_of_find?_eq_some h), find?_some h⟩

theorem decides_inArrayBlock (s : Bytes) (i : Nat) :
    Decides (fun e => e.arrayTableIndex = i && sameName e.table s) (inArrayBlock s i) := by
  intro before key value hlines
  rw [Bool.eq_iff_iff, inArrayBlock, stateAt]
  rcases hhead : header? before with - | l
  · simp [ParseState.entry]
  · obtain ⟨hmem, hheader⟩ := header?_eq_some hhead
    rcases l with - | name | name | ⟨k, raw⟩
    · cases hheader
    · have hname : sameName name s = true ↔ name = s := sameName_iff (hlines _ hmem)
      simp only [ParseState.entry, if_true, Bool.and_eq_true, decide_eq_true_iff, hname,
        Option.some.injEq, Line.arrayHeader.injEq]
      constructor
      · rintro ⟨hi, rfl⟩
        exact ⟨rfl, by omega⟩
      · rintro ⟨rfl, hi⟩
        exact ⟨by omega, rfl⟩
    · simp [ParseState.entry]
    · cases hheader

theorem decides_inBlock (s : Bytes) :
    Decides (fun e => ¬0 ≤ e.arrayTableIndex && sameName e.table s) (inBlock s) := by
  intro before key value hlines
  rw [Bool.eq_iff_iff, inBlock, stateAt]
  rcases hhead : header? before with - | l
  · have hname : sameName [] s = true ↔ [] = s := sameName_iff (by decide)
    simp [ParseState.entry, hname]
  · obtain ⟨hmem, hheader⟩ := header?_eq_some hhead
    rcases l with - | name | name | ⟨k, raw⟩
    · cases hheader
    · have hpos := count_pos_iff.2 hmem
      have hindex : 0 ≤ (before.count (.arrayHeader name) : Int) - 1 := by omega
      simp only [ParseState.entry, if_true, hindex]
      simp
    · have hname : sameName name s = true ↔ name = s := sameName_iff (hlines _ hmem)
      simp [ParseState.entry, hname]
    · cases hheader

theorem lookup_eq {doc : TomlDoc} (hkeys : ∀ e ∈ doc.entries, e.key.length < 64)
    (p : TomlEntry → Bool) (key : Bytes) :
    doc.lookup p key = firstValue key (doc.pairs p) := by
  have hfind : (doc.entries.filter p).find? (sameName ·.key key) =
      (doc.entries.filter p).find? (·.key = key) := by
    rw [← head?_filter, ← head?_filter]
    refine congrArg head? (filter_congr fun e he => ?_)
    rw [Bool.eq_iff_iff, sameName_iff (hkeys e (mem_of_mem_filter he)), decide_eq_true_iff]
  rw [TomlDoc.lookup, hfind, firstValue, TomlDoc.pairs]
  cases h : find? (fun e => decide (e.key = key)) (doc.entries.filter p) <;>
    simp [Function.comp_def, h]

/-- What the lines of a buffer say. -/
def readLines (buf : Bytes) : Read (List Line) := (bufferLines buf).mapM bufferLine

/-- The lines can be read before they are applied. -/
theorem exists_of_foldlM {lines : List Bytes}
    (h : lines.foldlM (fun st line => bufferLine line >>= applyLine st) st = .ok st') :
    ∃ ls, lines.mapM bufferLine = .ok ls ∧ (∀ l ∈ ls, l.InBounds) ∧
      ls.foldlM applyLine st = .ok st' := by
  induction lines generalizing st with
  | nil => exact ⟨[], rfl, by simp, h⟩
  | cons line lines ih =>
    obtain ⟨st₁, hline, h⟩ := exists_of_bind h
    obtain ⟨l, hread, happly⟩ := exists_of_bind hline
    obtain ⟨ls, hls, hbounds, hrun⟩ := ih h
    have hl : l.InBounds := by
      have hsafe := safe_bufferLine line
      rwa [hread] at hsafe
    refine ⟨l :: ls, ?_, ?_, ?_⟩
    · rw [mapM_cons, hread, hls]
      rfl
    · rw [forall_mem_cons]
      exact ⟨hl, hbounds⟩
    · rw [foldlM_cons, happly]
      exact hrun

/-- **The flat list of entries stands for the blocks.**  In a document that was accepted, the number
of `[[s]]` entries is that of `[[s]]` lines, a lookup in the `i`-th of them finds the first line
with the key in the `i`-th `[[s]]` block, and a lookup in a section the first one in its `[s]`
blocks. -/
theorem loadBuffer_lookups {buf : Bytes} {doc : TomlDoc} (h : loadBuffer buf = .ok doc) :
    ∃ ls, readLines buf = .ok ls ∧
      (∀ s, doc.arrayTableCount s = ls.count (.arrayHeader s)) ∧
      (∀ s (i : Nat) key, doc.arrayTableGet s i key =
        firstValue key (pairsIn (inArrayBlock s i) [] ls)) ∧
      ∀ sec key, doc.get sec key = firstValue key (pairsIn (inBlock (sec.getD [])) [] ls) := by
  rw [loadBuffer] at h
  split at h
  · cases h
  · obtain ⟨st, hst, hdoc⟩ := exists_of_bind h
    obtain ⟨ls, hls, hbounds, hrun⟩ := exists_of_foldlM hst
    obtain rfl : st.1 = doc := Except.ok.inj hdoc
    have hstart : Behind [] ({}, {}) := ⟨by simp, fun _ => rfl, rfl, by simp⟩
    have hbehind : Behind ls st := (pairs_run (decides_inBlock []) hbounds hstart hrun).1
    have hlookup {p : TomlEntry → Bool} {q : List Line → Bool} (hpq : Decides p q)
        (key : Bytes) : st.1.lookup p key = firstValue key (pairsIn q [] ls) := by
      rw [lookup_eq hbehind.keys, (pairs_run hpq hbounds hstart hrun).2]
      rfl
    refine ⟨ls, hls, hbehind.counts, fun s i key => ?_, fun sec => hlookup (decides_inBlock _)⟩
    exact hlookup (decides_inArrayBlock s i) key

/-- `[[m]]`, then `k=1`, then `[[m]]` and `[m]`. -/
def sampleBuffer : Bytes :=
  [91, 91, 109, 93, 93, 10, 107, 61, 49, 10, 91, 91, 109, 93, 93, 10, 91, 109, 93]

theorem loadBuffer_lookups_sample :
    ∃ doc ls, loadBuffer sampleBuffer = .ok doc ∧ readLines sampleBuffer = .ok ls ∧
      doc.arrayTableCount [109] = ls.count (.arrayHeader [109]) ∧
      doc.arrayTableGet [109] (0 : Nat) [107] =
        firstValue [107] (pairsIn (inArrayBlock [109] 0) [] ls) ∧
      doc.get (some [109]) [107] = firstValue [107] (pairsIn (inBlock [109]) [] ls) := by
  have hload : loadBuffer sampleBuffer =
      .ok ⟨[⟨[109], [107], .integer 1, 0⟩], [([109], 2)]⟩ := by decide
  obtain ⟨ls, hls, hcount, harray, hget⟩ := loadBuffer_lookups hload
  exact ⟨_, ls, hload, hls, hcount [109], harray [109] 0 [107], hget (some [109]) [107]⟩

end LunaInit.Toml
