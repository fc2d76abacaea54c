import MahinaOS.Lib.Bytes

/-!
# JSON texts

A reader and a writer of JSON over bytes, as RFC 8259 has it.  The reader is a machine that takes
one byte at a time, so that what it does with a text can be followed piece by piece (`run_append`);
its state is what it expects next (`Mode`) and the arrays and objects it is inside of (`Frame`).

Strings and numbers stay as they are written: the value of a string is the bytes between its quotes
(`IsBody`: escapes are well formed, control characters do not occur, and the rest is UTF-8).

* `run_text`: what the reader does with the inside of a string; `run_escapes_bad`: an escaped text
  that may not stand in a string is refused.
* **`parse_print`**: what is written can be read, if the strings and numbers in it are well formed.
* `newline_notMem_print`: it is written on one line.
-/

namespace JsonText

open List

def utf8 (s : String) : Bytes := s.toUTF8.data.toList

/-! ## Strings -/

/-- Where the reader is inside a string: between characters, after a backslash, before `n + 1` more
hexadecimal digits, or inside a UTF-8 sequence. -/
inductive StrState
  | plain
  | escape
  | hex (n : Nat)
  | cont1
  | cont2
  | cont3
  | e0
  | ed
  | f0
  | f4
  deriving DecidableEq, Repr

def between (lo hi c : UInt8) : Bool := decide (lo ≤ c) && decide (c ≤ hi)

/-- The first bytes of a longer UTF-8 sequence, by ranges, and the state after them.  There are no
overlong encodings, no surrogates and nothing beyond U+10FFFF. -/
def leads : List (UInt8 × UInt8 × StrState) :=
  [(194, 223, .cont1), (224, 224, .e0), (225, 236, .cont2), (237, 237, .ed), (238, 239, .cont2),
    (240, 240, .f0), (241, 243, .cont3), (244, 244, .f4)]

def isHex (c : UInt8) : Bool := between 48 57 c || between 65 70 c || between 97 102 c

/-- One byte of a string; the quote that ends it is not part of it. -/
def StrState.step : StrState → UInt8 → Option StrState
  | .plain, c =>
    if c = 34 then none
    else if c = 92 then some .escape
    else if c < 32 then none
    else if c < 128 then some .plain
    else (leads.find? fun r => between r.1 r.2.1 c).map fun r => r.2.2
  | .escape, c =>
    if c = 117 then some (.hex 3)
    else if c ∈ [34, 92, 47, 98, 102, 110, 114, 116] then some .plain
    else none
  | .hex 0, c => if isHex c then some .plain else none
  | .hex (n + 1), c => if isHex c then some (.hex n) else none
  | .cont1, c => if between 128 191 c then some .plain else none
  | .cont2, c => if between 128 191 c then some .cont1 else none
  | .cont3, c => if between 128 191 c then some .cont2 else none
  | .e0, c => if between 160 191 c then some .cont1 else none
  | .ed, c => if between 128 159 c then some .cont1 else none
  | .f0, c => if between 144 191 c then some .cont2 else none
  | .f4, c => if between 128 143 c then some .cont2 else none

/-- The bytes may stand between the quotes of a string. -/
def IsBody (raw : Bytes) : Prop := raw.foldlM StrState.step .plain = some .plain

instance (raw : Bytes) : Decidable (IsBody raw) := inferInstanceAs (Decidable (_ = _))

variable {q : StrState} {c : UInt8} {raw : Bytes} {n : Nat}

theorem StrState.step_control (hc : c < 32) : q.step c = none := by
  have hlt : c.toNat < 32 := UInt8.lt_iff_toNat_lt.1 hc
  have hbetween {lo hi : UInt8} (hlo : 32 ≤ lo.toNat) : between lo hi c = false := by
    simp only [between, Bool.and_eq_false_iff, decide_eq_false_iff_not, UInt8.not_le,
      UInt8.lt_iff_toNat_lt]
    exact .inl (by omega)
  have hne {k : UInt8} (hk : 32 ≤ k.toNat) : c ≠ k := by
    rintro rfl
    omega
  cases q with
  | plain => simp [step, hc, hne (k := 34) (by decide), hne (k := 92) (by decide)]
  | escape =>
    rw [step, if_neg (hne (by decide)), if_neg]
    intro hmem
    have hall : ∀ k ∈ ([34, 92, 47, 98, 102, 110, 114, 116] : Bytes), 32 ≤ k.toNat := by
      decide +kernel
    exact absurd hlt (Nat.not_lt.2 (hall c hmem))
  | hex n => cases n <;> simp [step, isHex, hbetween]
  | cont1 | cont2 | cont3 | e0 | ed | f0 | f4 => simp [step, hbetween]

/-- A byte that no state accepts does not occur in what is accepted. -/
theorem notMem_of_foldlM {σ : Type} {f : σ → UInt8 → Option σ} (hc : ∀ q, f q c = none) {q q' : σ}
    (h : raw.foldlM f q = some q') : c ∉ raw := by
  induction raw generalizing q with
  | nil => simp
  | cons b raw ih =>
    rw [foldlM_cons] at h
    rcases hb : f q b with - | r
    · rw [hb] at h
      cases h
    · rw [hb] at h
      intro hmem
      rcases mem_cons.1 hmem with rfl | hmem
      · rw [hc] at hb
        cases hb
      · exact ih h hmem

theorem IsBody.control_notMem (h : IsBody raw) (hc : c < 32) : c ∉ raw :=
  notMem_of_foldlM (fun _ => StrState.step_control hc) h

theorem IsBody.newline_notMem (h : IsBody raw) : 10 ∉ raw :=
  h.control_notMem (by decide)

/-! ## Numbers -/

inductive NumState
  | minus
  | zero
  | int
  | dot
  | frac
  | exp
  | expSign
  | expDigits
  deriving DecidableEq, Repr

def isDigit (c : UInt8) : Bool := between 48 57 c

/-- The first byte of a number. -/
def NumState.start (c : UInt8) : Option NumState :=
  if c = 45 then some .minus
  else if c = 48 then some .zero
  else if isDigit c then some .int
  else none

def NumState.step : NumState → UInt8 → Option NumState
  | .minus, c => if c = 48 then some .zero else if isDigit c then some .int else none
  | .zero, c => if c = 46 then some .dot else if c ∈ [69, 101] then some .exp else none
  | .int, c =>
    if isDigit c then some .int
    else if c = 46 then some .dot
    else if c ∈ [69, 101] then some .exp
    else none
  | .dot, c => if isDigit c then some .frac else none
  | .frac, c => if isDigit c then some .frac else if c ∈ [69, 101] then some .exp else none
  | .exp, c => if c ∈ [43, 45] then some .expSign else if isDigit c then some .expDigits else none
  | .expSign, c | .expDigits, c => if isDigit c then some .expDigits else none

/-- The number may end here. -/
def NumState.final : NumState → Bool
  | .zero | .int | .frac | .expDigits => true
  | .minus | .dot | .exp | .expSign => false

/-- The bytes are a number. -/
inductive IsNumeral : Bytes → Prop
  | mk {c : UInt8} {cs : Bytes} {q q' : NumState} (hstart : NumState.start c = some q)
      (hrest : cs.foldlM NumState.step q = some q') (hfinal : q'.final = true) :
      IsNumeral (c :: cs)

theorem NumState.step_newline (q : NumState) : q.step 10 = none := by cases q <;> rfl

theorem IsNumeral.newline_notMem (h : IsNumeral raw) : 10 ∉ raw := by
  cases h with
  | mk hstart hrest =>
    rw [mem_cons, not_or]
    refine ⟨?_, notMem_of_foldlM NumState.step_newline hrest⟩
    rintro rfl
    cases hstart

def decimal (n : Nat) : Bytes := (Nat.toDigits 10 n).map fun c => UInt8.ofNat c.toNat

/-! ## Values -/

/-- Strings, numbers and keys are the bytes they are written as. -/
inductive Value
  | null
  | bool (b : Bool)
  | number (raw : Bytes)
  | string (raw : Bytes)
  | array (items : List Value)
  | object (entries : List (Bytes × Value))

/-- The strings and numbers in the value are well formed. -/
inductive Good : Value → Prop
  | null : Good .null
  | bool (b : Bool) : Good (.bool b)
  | number {raw : Bytes} (h : IsNumeral raw) : Good (.number raw)
  | string {raw : Bytes} (h : IsBody raw) : Good (.string raw)
  | array {items : List Value} (h : ∀ v ∈ items, Good v) : Good (.array items)
  | object {entries : List (Bytes × Value)} (hkey : ∀ e ∈ entries, IsBody e.1)
      (h : ∀ e ∈ entries, Good e.2) : Good (.object entries)

/-- The member of an object with the given key. -/
def Value.field (key : Bytes) : Value → Option Value
  | .object entries => (entries.find? fun e => e.1 = key).map Prod.snd
  | .null | .bool _ | .number _ | .string _ | .array _ => none

/-! ## Writing -/

mutual

/-- The value without spaces. -/
def print : Value → Bytes
  | .null => utf8 "null"
  | .bool true => utf8 "true"
  | .bool false => utf8 "false"
  | .number raw => raw
  | .string raw => 34 :: (raw ++ [34])
  | .array items => 91 :: (printItems items ++ [93])
  | .object entries => 123 :: (printEntries entries ++ [125])

def printItems : List Value → Bytes
  | [] => []
  | [v] => print v
  | v :: w :: vs => print v ++ 44 :: printItems (w :: vs)

def printEntries : List (Bytes × Value) → Bytes
  | [] => []
  | [(k, v)] => 34 :: (k ++ 34 :: 58 :: print v)
  | (k, v) :: e :: es => 34 :: (k ++ 34 :: 58 :: (print v ++ 44 :: printEntries (e :: es)))

end

/-! ## Reading -/

/-- What the reader expects.  Inside the key of an object and after it, the mode has the members
that were read before; `text` has them when it is about a key. -/
inductive Mode
  | value
  | firstItem
  | firstKey
  | key (entries : List (Bytes × Value))
  | colon (entries : List (Bytes × Value)) (k : Bytes)
  | text (isKey : Option (List (Bytes × Value))) (q : StrState) (raw : Bytes)
  | number (q : NumState) (raw : Bytes)
  | literal (rest : Bytes) (v : Value)
  | done (v : Value)

/-- An array with the items that were read, or an object inside the member `k`. -/
inductive Frame
  | items (vs : List Value)
  | member (entries : List (Bytes × Value)) (k : Bytes)

structure State where
  mode : Mode
  frames : List Frame

def isSpace (c : UInt8) : Bool := c ∈ [9, 10, 13, 32]

/-- The first byte of a value. -/
def openValue (fs : List Frame) (c : UInt8) : Option State :=
  if c = 34 then some ⟨.text none .plain [], fs⟩
  else if c = 91 then some ⟨.firstItem, fs⟩
  else if c = 123 then some ⟨.firstKey, fs⟩
  else if c = 110 then some ⟨.literal (utf8 "ull") .null, fs⟩
  else if c = 116 then some ⟨.literal (utf8 "rue") (.bool true), fs⟩
  else if c = 102 then some ⟨.literal (utf8 "alse") (.bool false), fs⟩
  else (NumState.start c).map fun q => ⟨.number q [c], fs⟩

/-- The byte after a value: a comma, or the bracket that closes what it is in. -/
def closeValue (v : Value) : List Frame → UInt8 → Option State
  | .items vs :: fs, c =>
    if c = 44 then some ⟨.value, .items (vs ++ [v]) :: fs⟩
    else if c = 93 then some ⟨.done (.array (vs ++ [v])), fs⟩
    else none
  | .member es k :: fs, c =>
    if c = 44 then some ⟨.key (es ++ [(k, v)]), fs⟩
    else if c = 125 then some ⟨.done (.object (es ++ [(k, v)])), fs⟩
    else none
  | [], _ => none

def step : State → UInt8 → Option State
  | ⟨.value, fs⟩, c => if isSpace c then some ⟨.value, fs⟩ else openValue fs c
  | ⟨.firstItem, fs⟩, c =>
    if isSpace c then some ⟨.firstItem, fs⟩
    else if c = 93 then some ⟨.done (.array []), fs⟩
    else openValue (.items [] :: fs) c
  | ⟨.firstKey, fs⟩, c =>
    if isSpace c then some ⟨.firstKey, fs⟩
    else if c = 125 then some ⟨.done (.object []), fs⟩
    else if c = 34 then some ⟨.text (some []) .plain [], fs⟩
    else none
  | ⟨.key es, fs⟩, c =>
    if isSpace c then some ⟨.key es, fs⟩
    else if c = 34 then some ⟨.text (some es) .plain [], fs⟩
    else none
  | ⟨.colon es k, fs⟩, c =>
    if isSpace c then some ⟨.colon es k, fs⟩
    else if c = 58 then some ⟨.value, .member es k :: fs⟩
    else none
  | ⟨.text isKey q raw, fs⟩, c =>
    if q = .plain ∧ c = 34 then
      match isKey with
      | some es => some ⟨.colon es raw, fs⟩
      | none => some ⟨.done (.string raw), fs⟩
    else (q.step c).map fun q => ⟨.text isKey q (raw ++ [c]), fs⟩
  | ⟨.number q raw, fs⟩, c =>
    match q.step c with
    | some q => some ⟨.number q (raw ++ [c]), fs⟩
    | none =>
      if !q.final then none
      else if isSpace c then some ⟨.done (.number raw), fs⟩
      else closeValue (.number raw) fs c
  | ⟨.literal [] _, _⟩, _ => none
  | ⟨.literal [b] v, fs⟩, c => if c = b then some ⟨.done v, fs⟩ else none
  | ⟨.literal (b :: rest) v, fs⟩, c => if c = b then some ⟨.literal rest v, fs⟩ else none
  | ⟨.done v, fs⟩, c => if isSpace c then some ⟨.done v, fs⟩ else closeValue v fs c

def run (s : State) (bs : Bytes) : Option State := bs.foldlM step s

/-- The value that has been read, if the text may end here. -/
def Mode.value? : Mode → Option Value
  | .done v => some v
  | .number q raw => if q.final then some (.number raw) else none
  | .value | .firstItem | .firstKey | .key _ | .colon _ _ | .text _ _ _ | .literal _ _ => none

def State.value? : State → Option Value
  | ⟨m, []⟩ => m.value?
  | ⟨_, _ :: _⟩ => none

/-- The value of a JSON text; `none` if it is not well formed. -/
def parse (bs : Bytes) : Option Value := (run ⟨.value, []⟩ bs).bind State.value?

@[simp] theorem run_nil (s : State) : run s [] = some s := rfl

@[simp] theorem run_cons (s : State) (c : UInt8) (bs : Bytes) :
    run s (c :: bs) = (step s c).bind fun s => run s bs := rfl

theorem run_append (s : State) (bs cs : Bytes) :
    run s (bs ++ cs) = (run s bs).bind fun s => run s cs := foldlM_append

/-! ### Inside a string -/

section

variable {isKey : Option (List (Bytes × Value))} {q q' : StrState} {raw body : Bytes}
  {fs : List Frame}

/-- Every byte but the closing quote is one of the string. -/
theorem step_text {c : UInt8} (h : ¬ (q = .plain ∧ c = 34)) :
    step ⟨.text isKey q raw, fs⟩ c =
      (q.step c).map fun q => ⟨.text isKey q (raw ++ [c]), fs⟩ :=
  if_neg h

theorem run_text (h : body.foldlM StrState.step q = some q') :
    run ⟨.text isKey q raw, fs⟩ body = some ⟨.text isKey q' (raw ++ body), fs⟩ := by
  induction body generalizing q raw with
  | nil =>
    cases h
    rw [run_nil, append_nil]
  | cons c body ih =>
    rw [foldlM_cons] at h
    have hquote : ¬ (q = .plain ∧ c = 34) := by
      rintro ⟨rfl, rfl⟩
      cases h
    rw [run_cons, step_text hquote]
    rcases hc : q.step c with - | r
    · rw [hc] at h
      cases h
    · rw [hc] at h
      have hrest : run ⟨.text isKey r (raw ++ [c]), fs⟩ body = _ := ih h
      rw [append_assoc] at hrest
      exact hrest

/-- Only after a backslash can a quote be inside a string. -/
theorem StrState.step_quote (hq : q ≠ .escape) : q.step 34 = none := by
  cases q with
  | escape => exact absurd rfl hq
  | hex n => cases n <;> rfl
  | plain | cont1 | cont2 | cont3 | e0 | ed | f0 | f4 => rfl

end

/-! ### Escaped texts -/

/-- The string is not inside an escape sequence. -/
def Unescaped (q : StrState) : Prop := q ≠ .escape ∧ ∀ n, q ≠ .hex n

theorem Unescaped.step {q' : StrState} (h : Unescaped q) (hc : c ≠ 92) (hs : q.step c = some q') :
    Unescaped q' := by
  cases q with
  | escape => exact absurd rfl h.1
  | hex n => exact absurd rfl (h.2 n)
  | plain =>
    rw [StrState.step, if_neg hc] at hs
    split at hs
    · cases hs
    · split at hs
      · cases hs
      · split at hs
        · cases hs
          exact ⟨by simp, by simp⟩
        · obtain ⟨r, hr, rfl⟩ := Option.map_eq_some_iff.1 hs
          have hleads : ∀ r ∈ leads, r.2.2 ≠ .escape ∧ ∀ n, r.2.2 ≠ .hex n := by simp [leads]
          exact hleads r (mem_of_find?_eq_some hr)
  | cont1 | cont2 | cont3 | e0 | ed | f0 | f4 =>
    rw [StrState.step] at hs
    split at hs <;> cases hs
    exact ⟨by simp, by simp⟩

/-- Inside a UTF-8 sequence there is no backslash. -/
theorem Unescaped.step_backslash (h : Unescaped q) (hq : q ≠ .plain) : q.step 92 = none := by
  cases q with
  | plain => exact absurd rfl hq
  | escape => exact absurd rfl h.1
  | hex n => exact absurd rfl (h.2 n)
  | cont1 | cont2 | cont3 | e0 | ed | f0 | f4 => rfl

theorem Unescaped.quote_notMem {q' : StrState} (hq : Unescaped q) (hback : 92 ∉ raw)
    (h : raw.foldlM StrState.step q = some q') : 34 ∉ raw := by
  induction raw generalizing q with
  | nil => simp
  | cons c raw ih =>
    rw [mem_cons, not_or] at hback
    rw [foldlM_cons] at h
    obtain ⟨r, hr, h⟩ := Option.bind_eq_some_iff.1 h
    rw [mem_cons, not_or]
    refine ⟨?_, ih (hq.step (.symm hback.1) hr) hback.2 h⟩
    rintro rfl
    rw [StrState.step_quote hq.1] at hr
    cases hr

/-- Without a backslash there is no quote in a body. -/
theorem IsBody.quote_notMem (h : IsBody raw) (hback : 92 ∉ raw) : 34 ∉ raw :=
  Unescaped.quote_notMem ⟨by simp, by simp⟩ hback h

/-- What stands for one byte in an escaped text: the byte itself, if it is no quote and no
backslash, or a letter after a backslash. -/
def IsEscape (bs : Bytes) : Prop :=
  (∃ c, bs = [c] ∧ c ≠ 34 ∧ c ≠ 92) ∨
    ∃ c ∈ ([34, 92, 47, 98, 102, 110, 114, 116] : Bytes), bs = [92, c]

section

variable {isKey : Option (List (Bytes × Value))} {raw : Bytes} {fs : List Frame}

/-- An escaped byte is accepted, or a reader refuses it. -/
theorem Unescaped.run_escape {q : StrState} (h : Unescaped q) {bs : Bytes}
    (hbs : IsEscape bs) :
    (∃ r, Unescaped r ∧ bs.foldlM StrState.step q = some r) ∨
      run ⟨.text isKey q raw, fs⟩ bs = none := by
  rcases hbs with ⟨c, rfl, hquote, hback⟩ | ⟨c, hc, rfl⟩
  · rcases hs : q.step c with - | r
    · right
      rw [run_cons, step_text fun hq => hquote hq.2, hs]
      rfl
    · left
      refine ⟨r, h.step hback hs, ?_⟩
      rw [foldlM_cons, hs]
      rfl
  · by_cases hplain : q = .plain
    · left
      refine ⟨.plain, ⟨by simp, by simp⟩, ?_⟩
      have hall : ∀ c ∈ ([34, 92, 47, 98, 102, 110, 114, 116] : Bytes),
          [92, c].foldlM StrState.step .plain = some .plain := by decide +kernel
      rw [hplain]
      exact hall c hc
    · -- an escape sequence can only begin between characters
      right
      rw [run_cons, step_text fun hq => hplain hq.1, h.step_backslash hplain]
      rfl

variable {es : List Bytes}

/-- **An escaped text** may stand in a string, or a reader refuses it. -/
theorem Unescaped.run_escapes {q : StrState} (hq : Unescaped q) (hes : ∀ bs ∈ es, IsEscape bs)
    (rest : Bytes) :
    es.flatten.foldlM StrState.step q = some .plain ∨
      run ⟨.text isKey q raw, fs⟩ (es.flatten ++ 34 :: rest) = none := by
  induction es generalizing q raw with
  | nil =>
    by_cases hplain : q = .plain
    · exact .inl (congrArg some hplain)
    · right
      rw [flatten_nil, nil_append, run_cons, step_text fun hc => hplain hc.1,
        StrState.step_quote hq.1]
      rfl
  | cons bs es ih =>
    obtain ⟨hbs, hes⟩ := forall_mem_cons.1 hes
    rw [flatten_cons, foldlM_append, append_assoc, run_append]
    rcases hq.run_escape hbs with ⟨r, hr, hfold⟩ | hrefused
    · rw [hfold, run_text hfold]
      exact ih hr hes
    · rw [hrefused]
      exact .inr rfl

theorem run_escapes_bad (hes : ∀ bs ∈ es, IsEscape bs) (h : ¬ IsBody es.flatten)
    (rest : Bytes) : run ⟨.text isKey .plain raw, fs⟩ (es.flatten ++ 34 :: rest) = none :=
  (Unescaped.run_escapes ⟨by simp, by simp⟩ hes rest).resolve_left h

end

/-! ### What is written can be read -/

variable {v : Value}

/-- After a value, a comma or a closing bracket ends it. -/
theorem step_close {m : Mode} (h : m.value? = some v) (fs : List Frame)
    (hc : c ∈ ([44, 93, 125] : Bytes)) : step ⟨m, fs⟩ c = closeValue v fs c := by
  have hspace : ∀ c ∈ ([44, 93, 125] : Bytes), isSpace c = false := by decide +kernel
  have hnumber : ∀ c ∈ ([44, 93, 125] : Bytes), ∀ q : NumState, q.step c = none := by
    intro c hc q
    simp only [mem_cons, not_mem_nil, or_false] at hc
    rcases hc with rfl | rfl | rfl <;> cases q <;> rfl
  cases m with
  | done w =>
    cases h
    simp [step, hspace c hc]
  | number q raw =>
    rw [Mode.value?] at h
    split at h
    · next hfinal =>
      cases h
      simp [step, hnumber c hc q, hfinal, hspace c hc]
    · cases h
  | value | firstItem | firstKey | key | colon | text | literal => cases h

/-- The reader gets from the beginning of the value to its end. -/
def Reads (v : Value) : Prop :=
  ∀ fs, ∃ m, run ⟨.value, fs⟩ (print v) = some ⟨m, fs⟩ ∧ m.value? = some v

theorem Reads.close (h : Reads v) (fs : List Frame) (hc : c ∈ ([44, 93, 125] : Bytes))
    (rest : Bytes) :
    run ⟨.value, fs⟩ (print v ++ c :: rest) = (closeValue v fs c).bind fun s => run s rest := by
  obtain ⟨m, hrun, hm⟩ := h fs
  rw [run_append, hrun, Option.bind_some, run_cons, step_close hm fs hc]

variable {vs : List Value}

theorem run_itemsComma (h : ∀ v ∈ vs, Reads v) (done : List Value) (fs : List Frame)
    (rest : Bytes) :
    run ⟨.value, .items done :: fs⟩ (vs.flatMap (fun v => print v ++ [44]) ++ rest) =
      run ⟨.value, .items (done ++ vs) :: fs⟩ rest := by
  induction vs generalizing done with
  | nil => rw [append_nil, flatMap_nil, nil_append]
  | cons v vs ih =>
    rw [forall_mem_cons] at h
    rw [flatMap_cons, append_assoc, append_assoc, singleton_append, h.1.close _ (by decide)]
    show run ⟨.value, .items (done ++ [v]) :: fs⟩ _ = _
    rw [ih h.2, append_assoc, singleton_append]

theorem printItems_concat (vs : List Value) (v : Value) :
    printItems (vs ++ [v]) = vs.flatMap (fun v => print v ++ [44]) ++ print v := by
  induction vs with
  | nil => simp [printItems]
  | cons w vs ih =>
    rcases vs with - | ⟨u, vs⟩
    · simp [printItems]
    · rw [cons_append] at ih
      simp [printItems, ih]

theorem run_items (hvs : vs ≠ []) (h : ∀ v ∈ vs, Reads v) (fs : List Frame) :
    run ⟨.value, .items [] :: fs⟩ (printItems vs ++ [93]) = some ⟨.done (.array vs), fs⟩ := by
  obtain ⟨ws, w, rfl⟩ := eq_nil_or_concat' vs |>.resolve_left hvs
  rw [forall_mem_append, forall_mem_singleton] at h
  rw [printItems_concat, append_assoc, run_itemsComma h.1, h.2.close _ (by decide)]
  rfl

variable {es : List (Bytes × Value)}

theorem run_entries (hes : es ≠ []) (hkey : ∀ e ∈ es, IsBody e.1) (h : ∀ e ∈ es, Reads e.2)
    (done : List (Bytes × Value)) (fs : List Frame) :
    run ⟨.key done, fs⟩ (printEntries es ++ [125]) = some ⟨.done (.object (done ++ es)), fs⟩ := by
  induction es generalizing done with
  | nil => exact absurd rfl hes
  | cons e es ih =>
    obtain ⟨k, v⟩ := e
    rw [forall_mem_cons] at hkey h
    have hmember (rest : Bytes) : run ⟨.key done, fs⟩ (34 :: (k ++ 34 :: 58 :: rest)) =
          run ⟨.value, .member done k :: fs⟩ rest := by
      show run ⟨.text (some done) .plain [], fs⟩ (k ++ 34 :: 58 :: rest) = _
      rw [run_append, run_text hkey.1]
      rfl
    rcases es with - | ⟨e, es⟩
    · rw [printEntries, cons_append, append_assoc, cons_append, cons_append,
        hmember, h.1.close _ (by decide)]
      rfl
    · rw [printEntries, cons_append, append_assoc, cons_append, cons_append,
        hmember, append_assoc, cons_append, h.1.close _ (by decide)]
      show run ⟨.key (done ++ [(k, v)]), fs⟩ _ = _
      rw [ih (cons_ne_nil e es) hkey.2 h.2, append_assoc, singleton_append]

theorem run_number {q q' : NumState} {body : Bytes} {fs : List Frame}
    (h : body.foldlM NumState.step q = some q') :
    run ⟨.number q raw, fs⟩ body = some ⟨.number q' (raw ++ body), fs⟩ := by
  induction body generalizing q raw with
  | nil =>
    cases h
    rw [run_nil, append_nil]
  | cons c body ih =>
    rw [foldlM_cons] at h
    rcases hc : q.step c with - | r
    · rw [hc] at h
      cases h
    · rw [hc] at h
      have hrest : run ⟨.number r (raw ++ [c]), fs⟩ body = _ := ih h
      rw [append_assoc] at hrest
      rw [run_cons, step, hc]
      exact hrest

/-- The byte that a number begins with begins nothing else. -/
theorem openValue_number {q : NumState} (h : NumState.start c = some q) (fs : List Frame) :
    isSpace c = false ∧ c ≠ 93 ∧ openValue fs c = some ⟨.number q [c], fs⟩ := by
  have hstart : ∀ k ∈ ([9, 10, 13, 32, 93, 34, 91, 123, 110, 116, 102] : Bytes),
      NumState.start k = none := by decide +kernel
  have hne : c ∉ ([9, 10, 13, 32, 93, 34, 91, 123, 110, 116, 102] : Bytes) := by
    intro hmem
    rw [hstart c hmem] at h
    cases h
  simp only [mem_cons, not_or] at hne
  simp [isSpace, openValue, hne, h]

/-- No value begins with a space or a closing bracket. -/
theorem head_print (h : Good v) : ∃ c rest, print v = c :: rest ∧ isSpace c = false ∧ c ≠ 93 := by
  cases h with
  | null | string | array | object => exact ⟨_, _, rfl, by decide, by decide⟩
  | bool b => cases b <;> exact ⟨_, _, rfl, by decide, by decide⟩
  | number h =>
    cases h with
    | mk hstart =>
      obtain ⟨hspace, hne, -⟩ := openValue_number hstart []
      exact ⟨_, _, rfl, hspace, hne⟩

theorem head_printItems (h : Good v) (vs : List Value) :
    ∃ c rest, printItems (v :: vs) = c :: rest ∧ isSpace c = false ∧ c ≠ 93 := by
  obtain ⟨c, rest, hprint, hc⟩ := head_print h
  rcases vs with - | ⟨w, vs⟩
  · exact ⟨c, rest, hprint, hc⟩
  · refine ⟨c, rest ++ 44 :: printItems (w :: vs), ?_, hc⟩
    rw [printItems, hprint, cons_append]

theorem reads_of_good (h : Good v) : Reads v := by
  induction h with
  | null => exact fun fs => ⟨_, rfl, rfl⟩
  | bool b => cases b <;> exact fun fs => ⟨_, rfl, rfl⟩
  | number h =>
    intro fs
    cases h with
    | @mk c cs q q' hstart hrest hfinal =>
      obtain ⟨hspace, -, hopen⟩ := openValue_number hstart fs
      refine ⟨.number q' (c :: cs), ?_, ?_⟩
      · rw [print, run_cons, step, hspace, hopen]
        exact run_number hrest
      · simp [Mode.value?, hfinal]
  | @string raw h =>
    intro fs
    refine ⟨.done (.string raw), ?_, rfl⟩
    show run ⟨.text none .plain [], fs⟩ _ = _
    rw [run_append, run_text h]
    rfl
  | @array items h ih =>
    intro fs
    refine ⟨.done (.array items), ?_, rfl⟩
    show run ⟨.firstItem, fs⟩ _ = _
    rcases items with - | ⟨v, vs⟩
    · rfl
    · obtain ⟨c, rest, hprint, hspace, hne⟩ := head_printItems (h v mem_cons_self) vs
      rw [← run_items (cons_ne_nil v vs) ih, hprint, cons_append, run_cons, run_cons]
      simp [step, hspace, Bool.false_eq_true, if_neg hne]
  | @object entries hkey h ih =>
    intro fs
    refine ⟨.done (.object entries), ?_, rfl⟩
    show run ⟨.firstKey, fs⟩ _ = _
    rcases entries with - | ⟨e, es⟩
    · rfl
    · have hentries := run_entries (cons_ne_nil e es) hkey ih [] fs
      rw [nil_append] at hentries
      -- a key begins with a quote, whether or not it is the first one
      rw [← hentries]
      cases es <;> rfl

/-- **What is written can be read.** -/
theorem parse_print (h : Good v) : parse (print v) = some v := by
  obtain ⟨m, hrun, hm⟩ := reads_of_good h []
  rw [parse, hrun]
  exact hm

/-! ### One line -/

theorem newline_notMem_printItems (h : ∀ v ∈ vs, 10 ∉ print v) : 10 ∉ printItems vs := by
  rcases eq_nil_or_concat' vs with rfl | ⟨ws, w, rfl⟩
  · simp [printItems]
  · rw [forall_mem_append, forall_mem_singleton] at h
    rw [printItems_concat]
    simpa using ⟨h.1, h.2⟩

theorem newline_notMem_printEntries (hkey : ∀ e ∈ es, 10 ∉ e.1) (h : ∀ e ∈ es, 10 ∉ print e.2) :
    10 ∉ printEntries es := by
  induction es with
  | nil => simp [printEntries]
  | cons e es ih =>
    rw [forall_mem_cons] at hkey h
    have hrest := ih hkey.2 h.2
    rcases es with - | ⟨e', es⟩
    · simpa [printEntries] using ⟨hkey.1, h.1⟩
    · simpa [printEntries] using ⟨hkey.1, h.1, hrest⟩

theorem newline_notMem_print (h : Good v) : 10 ∉ print v := by
  induction h with
  | null => decide
  | bool b => cases b <;> decide
  | number h => exact h.newline_notMem
  | string h => simpa [print] using h.newline_notMem
  | array _ ih => simpa [print] using newline_notMem_printItems ih
  | object hkey _ ih =>
    simpa [print] using newline_notMem_printEntries (fun e he => (hkey e he).newline_notMem) ih

end JsonText
