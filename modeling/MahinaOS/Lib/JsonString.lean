import MahinaOS.Lib.JsonText

/-!
# The text of a JSON string

`unescape` is the text that the body of a JSON string stands for, as UTF-8.  It goes through the
bytes with what it has of an escape sequence, and with a first surrogate that may become one half of
a character (`Pending`).  A surrogate without its other half is written as the three bytes UTF-8
would use for it, so that different texts stay different.

* `unescape_of_notMem`: a body without a backslash is its text;
* `length_unescape_lt`: with a backslash the text is shorter than the body;
* `quote_mem_unescape`: a quote in a body is one of the text;
* **`good_of_parse`**: the strings of a value that was read are well formed;
* `nul_notMem_of_parse`: a text that was read has no NUL.

`Value.member` finds a member by the text of its key.
-/

namespace JsonText

open List Option

/-! ## Reading escape sequences -/

/-- Outside an escape sequence, after its backslash, or after `count` of its hexadecimal digits. -/
inductive EscapeState
  | plain
  | escape
  | hex (count value : Nat)
  deriving DecidableEq, Repr

/-- What has been read of the present character: the first of two surrogates, and the escape
sequence. -/
structure Pending where
  high : Option Nat := none
  state : EscapeState := .plain
  deriving DecidableEq, Repr

def hexVal (c : UInt8) : Nat :=
  if c ≤ 57 then c.toNat - 48 else if c ≤ 70 then c.toNat - 55 else c.toNat - 87

/-- The bytes of a number in UTF-8. -/
def encodeUtf8 (n : Nat) : Bytes :=
  if n < 0x80 then [UInt8.ofNat n]
  else if n < 0x800 then [UInt8.ofNat (0xC0 + n / 64), UInt8.ofNat (0x80 + n % 64)]
  else if n < 0x10000 then
    [UInt8.ofNat (0xE0 + n / 4096), UInt8.ofNat (0x80 + n / 64 % 64), UInt8.ofNat (0x80 + n % 64)]
  else
    [UInt8.ofNat (0xF0 + n / 262144), UInt8.ofNat (0x80 + n / 4096 % 64),
      UInt8.ofNat (0x80 + n / 64 % 64), UInt8.ofNat (0x80 + n % 64)]

/-- The letter after a backslash. -/
def simpleEscape (c : UInt8) : UInt8 :=
  if c = 98 then 8
  else if c = 102 then 12
  else if c = 110 then 10
  else if c = 114 then 13
  else if c = 116 then 9
  else c

def isHigh (n : Nat) : Bool := 0xD800 ≤ n && n < 0xDC00

def isLow (n : Nat) : Bool := 0xDC00 ≤ n && n < 0xE000

/-- A surrogate that is left alone. -/
def flush (high : Option Nat) : Bytes := high.elim [] encodeUtf8

/-- The end of a sequence of four digits. -/
def finishHex (high : Option Nat) (n : Nat) : Pending × Bytes :=
  match high with
  | none => if isHigh n then (⟨some n, .plain⟩, []) else ({}, encodeUtf8 n)
  | some h =>
    if isLow n then ({}, encodeUtf8 (0x10000 + (h - 0xD800) * 0x400 + (n - 0xDC00)))
    else if isHigh n then (⟨some n, .plain⟩, encodeUtf8 h)
    else ({}, encodeUtf8 h ++ encodeUtf8 n)

/-- One byte of a body, and the bytes of the text it ends. -/
def unescapeStep (p : Pending) (c : UInt8) : Pending × Bytes :=
  match p.state with
  | .plain => if c = 92 then (⟨p.high, .escape⟩, []) else ({}, flush p.high ++ [c])
  | .escape =>
    if c = 117 then (⟨p.high, .hex 0 0⟩, []) else ({}, flush p.high ++ [simpleEscape c])
  | .hex count value =>
    if count = 3 then finishHex p.high (value * 16 + hexVal c)
    else (⟨p.high, .hex (count + 1) (value * 16 + hexVal c)⟩, [])

def unescapeFrom (p : Pending) : Bytes → Bytes
  | [] => flush p.high
  | c :: cs => (unescapeStep p c).2 ++ unescapeFrom (unescapeStep p c).1 cs

def unescape (raw : Bytes) : Bytes := unescapeFrom {} raw

example : unescape (utf8 "a\\n\\u00e9\\ud83c\\udf19\\\"") = utf8 "a\né🌙\"" := by decide

variable {raw bs : Bytes} {c : UInt8} {v : Value} {fs : List Frame} {s : State}

theorem unescape_of_notMem (h : 92 ∉ raw) : unescape raw = raw := by
  induction raw with
  | nil => rfl
  | cons c raw ih =>
    rw [mem_cons, not_or] at h
    have hstep : unescapeStep {} c = ({}, [c]) := if_neg (Ne.symm h.1)
    rw [unescape, unescapeFrom, hstep]
    exact congrArg (c :: ·) (ih h.2)

/-! ## The length of the text -/

theorem length_encodeUtf8_le (n : Nat) : (encodeUtf8 n).length ≤ 4 := by
  rw [encodeUtf8]
  split_ifs <;> simp

/-- The bytes of a first surrogate. -/
def highRead : Option Nat → Nat
  | none => 0
  | some _ => 6

@[simp] theorem highRead_none : highRead none = 0 := rfl

/-- The bytes that have been read of the present character. -/
def Pending.read (p : Pending) : Nat :=
  highRead p.high +
    match p.state with
    | .plain => 0
    | .escape => 1
    | .hex count _ => 2 + count

theorem length_flush (high : Option Nat) :
    (flush high).length ≤ highRead high ∧
      (0 < highRead high → (flush high).length < highRead high) := by
  rcases high with - | n
  · exact ⟨Nat.le_refl _, id⟩
  · have := length_encodeUtf8_le n
    show (encodeUtf8 n).length ≤ 6 ∧ (0 < 6 → (encodeUtf8 n).length < 6)
    omega

theorem finishHex_length (high : Option Nat) (n : Nat) :
    (finishHex high n).2.length + (finishHex high n).1.read ≤ highRead high + 6 ∧
      (0 < (finishHex high n).1.read ∨
        (finishHex high n).2.length + (finishHex high n).1.read < highRead high + 6) := by
  have hn := length_encodeUtf8_le n
  rcases high with - | h
  · rw [finishHex]
    split_ifs
    · simp [Pending.read, highRead]
    · simp only [Pending.read, highRead]
      omega
  · have hh := length_encodeUtf8_le h
    have hpair := length_encodeUtf8_le (0x10000 + (h - 0xD800) * 0x400 + (n - 0xDC00))
    rw [finishHex]
    split_ifs <;> simp only [Pending.read, highRead, length_append] <;> omega

/-- No byte adds more to the text than was read, and an escape sequence adds less. -/
theorem unescapeStep_length (p : Pending) (c : UInt8) :
    (unescapeStep p c).2.length + (unescapeStep p c).1.read ≤ p.read + 1 ∧
      ((0 < p.read ∨ c = 92) →
        0 < (unescapeStep p c).1.read ∨
          (unescapeStep p c).2.length + (unescapeStep p c).1.read ≤ p.read) := by
  obtain ⟨high, state⟩ := p
  have hflush := length_flush high
  cases state with
  | plain =>
    rw [unescapeStep]
    dsimp only
    split_ifs with hc
    · simp only [Pending.read, length_nil]
      omega
    · simp only [Pending.read, highRead_none, length_append, length_singleton, hc, or_false]
      omega
  | escape =>
    rw [unescapeStep]
    dsimp only
    split_ifs
    · simp only [Pending.read, length_nil]
      omega
    · simp only [Pending.read, highRead_none, length_append, length_singleton]
      omega
  | hex count value =>
    rw [unescapeStep]
    dsimp only
    split_ifs with hcount
    · have hfinish := finishHex_length high (value * 16 + hexVal c)
      simp only [Pending.read] at hfinish ⊢
      omega
    · simp only [Pending.read, length_nil]
      omega

theorem length_unescapeFrom (p : Pending) (raw : Bytes) :
    (unescapeFrom p raw).length ≤ p.read + raw.length ∧
      ((0 < p.read ∨ 92 ∈ raw) → (unescapeFrom p raw).length < p.read + raw.length) := by
  induction raw generalizing p with
  | nil =>
    have hflush := length_flush p.high
    simp only [unescapeFrom, Pending.read, not_mem_nil, or_false]
    omega
  | cons c raw ih =>
    obtain ⟨hle, hlt⟩ := ih (unescapeStep p c).1
    obtain ⟨hstep, hstrict⟩ := unescapeStep_length p c
    rw [unescapeFrom, length_append, length_cons]
    refine ⟨by omega, fun h => ?_⟩
    rcases h with h | h
    · rcases hstrict (.inl h) with hread | hless
      · omega
      · omega
    · rcases mem_cons.1 h with h | h
      · rcases hstrict (.inr h.symm) with hread | hless
        · omega
        · omega
      · have := hlt (.inr h)
        omega

theorem length_unescape_lt (h : 92 ∈ raw) : (unescape raw).length < raw.length := by
  have hlt := (length_unescapeFrom {} raw).2 (.inr h)
  rwa [show ({} : Pending).read = 0 from rfl, Nat.zero_add] at hlt

/-! ## Quotes -/

/-- The reader of the text is where the reader of the string is. -/
def EscapeState.Follows : EscapeState → StrState → Prop
  | .escape, q => q = .escape
  | .hex count _, q => ∃ n, q = .hex n ∧ count + n = 3
  | .plain, q => Unescaped q

theorem follows_finishHex (high : Option Nat) (n : Nat) :
    (finishHex high n).1.state.Follows .plain := by
  have hplain : Unescaped .plain := ⟨by simp, by simp⟩
  cases high <;> rw [finishHex] <;> split_ifs <;> exact hplain

theorem follows_step {p : Pending} {q q' : StrState} (h : p.state.Follows q)
    (hstep : q.step c = some q') : (unescapeStep p c).1.state.Follows q' := by
  obtain ⟨high, state⟩ := p
  rw [unescapeStep]
  cases state with
  | plain =>
    have hq : Unescaped q := h
    dsimp only
    split_ifs with hc
    · subst hc
      by_cases hplain : q = .plain
      · subst hplain
        cases hstep
        rfl
      · rw [hq.step_backslash hplain] at hstep
        cases hstep
    · exact hq.step hc hstep
  | escape =>
    obtain rfl : q = .escape := h
    rw [StrState.step] at hstep
    dsimp only
    split_ifs with hu
    · rw [if_pos hu] at hstep
      cases hstep
      exact ⟨3, rfl, rfl⟩
    · split_ifs at hstep
      cases hstep
      exact ⟨by simp, by simp⟩
  | hex count value =>
    obtain ⟨n, rfl, hn⟩ := h
    dsimp only
    rcases n with - | n
    · rw [StrState.step] at hstep
      split_ifs at hstep
      cases hstep
      rw [if_pos (show count = 3 from hn)]
      exact follows_finishHex high _
    · rw [StrState.step] at hstep
      split_ifs at hstep
      cases hstep
      rw [if_neg (by omega)]
      exact ⟨n, rfl, by omega⟩

theorem quote_mem_unescapeFrom {p : Pending} {q q' : StrState} (h : p.state.Follows q)
    (hbody : raw.foldlM StrState.step q = some q') (hquote : 34 ∈ raw) :
    34 ∈ unescapeFrom p raw := by
  induction raw generalizing p q with
  | nil => cases hquote
  | cons c raw ih =>
    rw [foldlM_cons] at hbody
    rcases hc : q.step c with - | r
    · rw [hc] at hbody
      cases hbody
    · rw [hc] at hbody
      rw [unescapeFrom, mem_append]
      rcases mem_cons.1 hquote with rfl | hquote
      · -- a quote that is accepted comes after a backslash
        obtain rfl : q = .escape := by
          by_contra hq
          rw [StrState.step_quote hq] at hc
          cases hc
        obtain ⟨high, state⟩ := p
        cases state with
        | escape =>
          left
          simp [unescapeStep, simpleEscape]
        | plain => exact absurd rfl h.1
        | hex count value =>
          obtain ⟨n, hn, -⟩ := h
          cases hn
      · exact .inr (ih (follows_step h hc) hbody hquote)

theorem quote_mem_unescape (h : IsBody raw) (hquote : 34 ∈ raw) : 34 ∈ unescape raw :=
  quote_mem_unescapeFrom (p := {}) ⟨by simp, by simp⟩ h hquote

/-! ## What is read is well formed -/

/-- Keys and values of members. -/
def GoodEntries (es : List (Bytes × Value)) : Prop := ∀ e ∈ es, IsBody e.1 ∧ Good e.2

theorem GoodEntries.concat {es : List (Bytes × Value)} (h : GoodEntries es) {k : Bytes}
    (hk : IsBody k) (hv : Good v) : GoodEntries (es ++ [(k, v)]) :=
  forall_mem_append.2 ⟨h, forall_mem_singleton.2 ⟨hk, hv⟩⟩

def GoodFrame : Frame → Prop
  | .items vs => ∀ v ∈ vs, Good v
  | .member es k => GoodEntries es ∧ IsBody k

/-- What has been read so far can be completed to something well formed. -/
def GoodMode : Mode → Prop
  | .value | .firstItem | .firstKey => True
  | .key es => GoodEntries es
  | .colon es k => GoodEntries es ∧ IsBody k
  | .text isKey q raw => (∀ es ∈ isKey, GoodEntries es) ∧ raw.foldlM StrState.step .plain = some q
  | .number q raw => ∃ c cs q₀, raw = c :: cs ∧ NumState.start c = some q₀ ∧
      cs.foldlM NumState.step q₀ = some q
  | .literal rest v => Good v ∧ 0 ∉ rest
  | .done v => Good v

def GoodState (s : State) : Prop := GoodMode s.mode ∧ ∀ f ∈ s.frames, GoodFrame f

theorem good_number {q : NumState} (h : GoodMode (.number q raw)) (hfinal : q.final = true) :
    Good (.number raw) := by
  obtain ⟨c, cs, q₀, rfl, hstart, hrest⟩ := h
  exact .number (.mk hstart hrest hfinal)

theorem good_openValue (hfs : ∀ f ∈ fs, GoodFrame f) (h : openValue fs c = some s) :
    GoodState s := by
  rw [openValue] at h
  split_ifs at h
  · cases h
    exact ⟨⟨by simp, rfl⟩, hfs⟩
  · cases h
    exact ⟨trivial, hfs⟩
  · cases h
    exact ⟨trivial, hfs⟩
  · cases h
    exact ⟨⟨.null, by decide⟩, hfs⟩
  · cases h
    exact ⟨⟨.bool true, by decide⟩, hfs⟩
  · cases h
    exact ⟨⟨.bool false, by decide⟩, hfs⟩
  · obtain ⟨q, hq, rfl⟩ := map_eq_some_iff.1 h
    exact ⟨⟨c, [], q, rfl, hq, rfl⟩, hfs⟩

theorem good_closeValue (hv : Good v) (hfs : ∀ f ∈ fs, GoodFrame f)
    (h : closeValue v fs c = some s) : GoodState s := by
  rcases fs with - | ⟨f, fs⟩
  · cases h
  · obtain ⟨hf, hrest⟩ := forall_mem_cons.1 hfs
    cases f with
    | items vs =>
      have hvs : ∀ w ∈ vs ++ [v], Good w :=
        forall_mem_append.2 ⟨hf, forall_mem_singleton.2 hv⟩
      rw [closeValue] at h
      split_ifs at h
      · cases h
        exact ⟨trivial, forall_mem_cons.2 ⟨hvs, hrest⟩⟩
      · cases h
        exact ⟨.array hvs, hrest⟩
    | member es k =>
      have hes : GoodEntries (es ++ [(k, v)]) := hf.1.concat hf.2 hv
      rw [closeValue] at h
      split_ifs at h
      · cases h
        exact ⟨hes, hrest⟩
      · cases h
        exact ⟨.object (fun e he => (hes e he).1) fun e he => (hes e he).2, hrest⟩

theorem good_text {isKey : Option (List (Bytes × Value))} {q : StrState}
    (hm : GoodMode (.text isKey q raw)) (hfs : ∀ f ∈ fs, GoodFrame f)
    (h : step ⟨.text isKey q raw, fs⟩ c = some s) : GoodState s := by
  obtain ⟨hkey, hraw⟩ := hm
  by_cases hend : q = .plain ∧ c = 34
  · rw [hend.1] at hraw h
    rw [hend.2] at h
    cases isKey with
    | some es =>
      cases h
      exact ⟨⟨hkey es rfl, hraw⟩, hfs⟩
    | none =>
      cases h
      exact ⟨.string hraw, hfs⟩
  · rw [step_text hend] at h
    obtain ⟨r, hr, rfl⟩ := map_eq_some_iff.1 h
    refine ⟨⟨hkey, ?_⟩, hfs⟩
    rw [foldlM_append, hraw]
    exact congrArg (· >>= pure) hr

theorem good_digits {q : NumState} (hm : GoodMode (.number q raw)) (hfs : ∀ f ∈ fs, GoodFrame f)
    (h : step ⟨.number q raw, fs⟩ c = some s) : GoodState s := by
  rw [step] at h
  split at h
  · next r hr =>
    cases h
    obtain ⟨d, ds, q₀, rfl, hstart, hrest⟩ := hm
    refine ⟨⟨d, ds ++ [c], q₀, rfl, hstart, ?_⟩, hfs⟩
    rw [foldlM_append, hrest]
    exact congrArg (· >>= pure) hr
  · split_ifs at h with hfinal
    · cases h
      exact ⟨good_number hm (by simpa using hfinal), hfs⟩
    · exact good_closeValue (good_number hm (by simpa using hfinal)) hfs h

theorem good_literal {rest : Bytes} (hm : GoodMode (.literal rest v))
    (hfs : ∀ f ∈ fs, GoodFrame f) (h : step ⟨.literal rest v, fs⟩ c = some s) : GoodState s := by
  rcases rest with - | ⟨b, - | ⟨b', rest⟩⟩
  · cases h
  · rw [step] at h
    split_ifs at h
    cases h
    exact ⟨hm.1, hfs⟩
  · rw [step] at h
    · split_ifs at h
      cases h
      exact ⟨⟨hm.1, fun hzero => hm.2 (mem_cons_of_mem _ hzero)⟩, hfs⟩
    · simp

theorem good_step {s' : State} (hs : GoodState s) (h : step s c = some s') : GoodState s' := by
  obtain ⟨m, fs⟩ := s
  obtain ⟨hm, hfs⟩ := hs
  cases m with
  | value =>
    rw [step] at h
    split_ifs at h
    · cases h
      exact ⟨trivial, hfs⟩
    · exact good_openValue hfs h
  | firstItem =>
    rw [step] at h
    split_ifs at h
    · cases h
      exact ⟨trivial, hfs⟩
    · cases h
      exact ⟨.array (by simp), hfs⟩
    · exact good_openValue (forall_mem_cons.2 ⟨by simp [GoodFrame], hfs⟩) h
  | firstKey =>
    rw [step] at h
    split_ifs at h <;> cases h
    · exact ⟨trivial, hfs⟩
    · exact ⟨.object (by simp) (by simp), hfs⟩
    · exact ⟨⟨by simp [GoodEntries], rfl⟩, hfs⟩
  | key es =>
    rw [step] at h
    split_ifs at h <;> cases h
    · exact ⟨hm, hfs⟩
    · exact ⟨⟨fun es' hes => mem_some_iff.1 hes ▸ hm, rfl⟩, hfs⟩
  | colon es k =>
    rw [step] at h
    split_ifs at h <;> cases h
    · exact ⟨hm, hfs⟩
    · exact ⟨trivial, forall_mem_cons.2 ⟨hm, hfs⟩⟩
  | text => exact good_text hm hfs h
  | number => exact good_digits hm hfs h
  | literal => exact good_literal hm hfs h
  | done v =>
    rw [step] at h
    split_ifs at h
    · cases h
      exact ⟨hm, hfs⟩
    · exact good_closeValue hm hfs h

theorem good_run {s' : State} (hs : GoodState s) (h : run s bs = some s') : GoodState s' := by
  induction bs generalizing s with
  | nil =>
    cases h
    exact hs
  | cons c bs ih =>
    obtain ⟨r, hr, hrest⟩ := bind_eq_some_iff.1 h
    exact ih (good_step hs hr) hrest

theorem goodState_start : GoodState ⟨.value, []⟩ := ⟨trivial, by simp⟩

/-- **What is read is well formed.** -/
theorem good_of_parse (h : parse bs = some v) : Good v := by
  obtain ⟨⟨m, fs⟩, hrun, hvalue⟩ := bind_eq_some_iff.1 h
  obtain ⟨hm, -⟩ := good_run goodState_start hrun
  cases fs with
  | cons f fs => cases hvalue
  | nil =>
    cases m with
    | done w =>
      cases hvalue
      exact hm
    | number q raw =>
      have hvalue : (if q.final then some (.number raw) else none) = some v := hvalue
      split_ifs at hvalue with hfinal
      cases hvalue
      exact good_number hm hfinal
    | value | firstItem | firstKey | key | colon | text | literal => cases hvalue

/-! ## Members -/

/-- The first member of an object whose key stands for `key`. -/
def Value.member (key : Bytes) : Value → Option Value
  | .object entries => (entries.find? fun e => unescape e.1 = key).map Prod.snd
  | .null | .bool _ | .number _ | .string _ | .array _ => none

/-! ## NUL -/

theorem closeValue_nul (v : Value) (fs : List Frame) : closeValue v fs 0 = none := by
  rcases fs with - | ⟨f, fs⟩
  · rfl
  · cases f <;> rfl

theorem step_nul (hs : GoodState s) : step s 0 = none := by
  obtain ⟨m, fs⟩ := s
  cases m with
  | value | firstItem | firstKey | key | colon => rfl
  | text isKey q raw =>
    rw [step_text (by simp), StrState.step_control (by decide)]
    rfl
  | number q raw =>
    have hq : q.step 0 = none := by cases q <;> rfl
    simp [step, hq, isSpace, closeValue_nul]
  | literal rest v =>
    obtain ⟨⟨-, hrest⟩, -⟩ := hs
    rcases rest with - | ⟨b, - | ⟨b', rest⟩⟩
    · rfl
    · rw [step, if_neg]
      rintro rfl
      exact hrest mem_cons_self
    · rw [step, if_neg]
      · rintro rfl
        exact hrest mem_cons_self
      · simp
  | done v => simp [step, isSpace, closeValue_nul]

theorem nul_notMem_of_run {s' : State} (hs : GoodState s) (h : run s bs = some s') : 0 ∉ bs := by
  induction bs generalizing s with
  | nil => simp
  | cons c bs ih =>
    obtain ⟨r, hr, hrest⟩ := bind_eq_some_iff.1 h
    rw [mem_cons, not_or]
    refine ⟨?_, ih (good_step hs hr) hrest⟩
    rintro rfl
    rw [step_nul hs] at hr
    cases hr

theorem nul_notMem_of_parse (h : parse bs = some v) : 0 ∉ bs := by
  obtain ⟨s, hrun, -⟩ := bind_eq_some_iff.1 h
  exact nul_notMem_of_run goodState_start hrun

end JsonText
