import MahinaOS.Lib.CText
import MahinaOS.Lib.JsonString

/-!
# luna-ai-d: its functions on JSON texts

The daemon reads JSON with `strstr`: the value of a member is looked for behind the first place
where its key stands between quotes with a colon (`openString`).  `extractJsonStr` takes what is up
to the next quote as it stands, `extractJsonStrField` undoes some of the escapes.  In the other
direction `escapeJsonString` escapes a text to the size of an array.

* `length_openString`: the string is shorter than the text it is in;
* `escapeJsonString_eq`: when the array is large enough, the whole text is escaped;
* **`unescape_escaped`**: an escaped text stands for the text.
-/

namespace LunaAi

open JsonText CText List

/-! ## Finding a member -/

/-- `"key":` -/
def keyPattern (key : Bytes) : Bytes := 34 :: (key ++ [34, 58])

/-- What is behind the opening quote of the value of `key`. -/
def openString (json key : Bytes) : Option Bytes :=
  (after (keyPattern key) json).bind fun pos =>
    match pos.dropWhile fun b => b = 32 || b = 9 with
    | 34 :: body => some body
    | _ => none

/-- `extract_json_str` -/
def extractJsonStr (json key : Bytes) (outSize : Nat) : Option Bytes :=
  (openString json key).map fun body => (body.takeWhile fun b => b ≠ 34).take (outSize - 1)

/-- The letters `extract_json_str_field` knows; another one stands for itself. -/
def fieldEscape (c : UInt8) : UInt8 := if c = 110 then 10 else if c = 116 then 9 else c

/-- The loop of `extract_json_str_field`, with room for as many bytes. -/
def fieldFrom : Nat → Bytes → Bytes
  | 0, _ => []
  | _ + 1, [] => []
  | n + 1, c :: cs =>
    if c = 34 then []
    else if c = 92 ∧ cs ≠ [] then fieldEscape (cs.headD 0) :: fieldFrom n cs.tail
    else c :: fieldFrom n cs

/-- `extract_json_str_field` -/
def extractJsonStrField (json key : Bytes) (outSize : Nat) : Option Bytes :=
  (openString json key).map (fieldFrom (outSize - 1))

/-- What stands before the body of the string. -/
theorem exists_of_openString {json key body : Bytes} (h : openString json key = some body) :
    ∃ pre blanks, json = pre ++ (keyPattern key ++ (blanks ++ 34 :: body)) := by
  obtain ⟨pos, hpos, hbody⟩ := Option.bind_eq_some_iff.1 h
  obtain ⟨pre, rfl⟩ := exists_of_after hpos
  refine ⟨pre, pos.takeWhile fun b => b = 32 || b = 9, ?_⟩
  split at hbody
  · next hdrop =>
    cases hbody
    rw [← hdrop, takeWhile_append_dropWhile]
  · cases hbody

theorem length_openString {json key body : Bytes} (h : openString json key = some body) :
    body.length + key.length + 4 ≤ json.length := by
  obtain ⟨-, -, rfl⟩ := exists_of_openString h
  simp only [keyPattern, length_append, length_cons]
  omega

theorem length_extractJsonStr {json key text : Bytes} {outSize : Nat}
    (h : extractJsonStr json key outSize = some text) :
    text.length + key.length + 4 ≤ json.length := by
  obtain ⟨body, hbody, rfl⟩ := Option.map_eq_some_iff.1 h
  have hjson := length_openString hbody
  have htake := length_take_le' (outSize - 1) (body.takeWhile fun b => b ≠ 34)
  have hwhile := (takeWhile_sublist (l := body) fun b => decide (b ≠ 34)).length_le
  omega

/-! ## Escaping -/

def escapeByte (c : UInt8) : Bytes :=
  if c = 34 then [92, 34]
  else if c = 92 then [92, 92]
  else if c = 10 then [92, 110]
  else if c = 13 then [92, 114]
  else if c = 9 then [92, 116]
  else [c]

/-- The loop of `escape_json_string`, with `d` bytes written. -/
def escapeFrom (dstSize : Nat) : Nat → Bytes → Bytes
  | _, [] => []
  | d, c :: cs =>
    if d + 4 < dstSize then escapeByte c ++ escapeFrom dstSize (d + (escapeByte c).length) cs
    else []

/-- `escape_json_string` -/
def escapeJsonString (src : Bytes) (dstSize : Nat) : Bytes := escapeFrom dstSize 0 src

/-- All of the text, escaped. -/
def escaped (src : Bytes) : Bytes := (src.map escapeByte).flatten

theorem escaped_cons (c : UInt8) (cs : Bytes) :
    escaped (c :: cs) = escapeByte c ++ escaped cs := rfl

theorem isEscape_escapeByte (c : UInt8) : IsEscape (escapeByte c) := by
  rw [escapeByte]
  split_ifs with h34 h92 h10 h13 h9
  · exact .inr ⟨34, by decide, rfl⟩
  · exact .inr ⟨92, by decide, rfl⟩
  · exact .inr ⟨110, by decide, rfl⟩
  · exact .inr ⟨114, by decide, rfl⟩
  · exact .inr ⟨116, by decide, rfl⟩
  · exact .inl ⟨c, rfl, h34, h92⟩

variable {src : Bytes} {dstSize : Nat}

theorem isEscape_of_mem {bs : Bytes} (h : bs ∈ src.map escapeByte) : IsEscape bs := by
  obtain ⟨c, -, rfl⟩ := mem_map.1 h
  exact isEscape_escapeByte c

theorem length_escapeByte (c : UInt8) : 1 ≤ (escapeByte c).length ∧ (escapeByte c).length ≤ 2 := by
  rw [escapeByte]
  split_ifs <;> simp

theorem length_escaped_le (src : Bytes) : (escaped src).length ≤ 2 * src.length := by
  induction src with
  | nil => exact Nat.le_refl 0
  | cons c cs ih =>
    have hbyte := (length_escapeByte c).2
    rw [escaped_cons, length_append, length_cons]
    omega

theorem escapeFrom_eq {d : Nat} (h : d + (escaped src).length + 3 < dstSize) :
    escapeFrom dstSize d src = escaped src := by
  induction src generalizing d with
  | nil => rfl
  | cons c cs ih =>
    have hbyte := (length_escapeByte c).1
    rw [escaped_cons, length_append] at h
    rw [escapeFrom, if_pos (by omega), ih (by omega), escaped_cons]

theorem escapeJsonString_eq (h : (escaped src).length + 3 < dstSize) :
    escapeJsonString src dstSize = escaped src :=
  escapeFrom_eq (by omega)

theorem length_escapeFrom (d : Nat) (h : dstSize ≤ d + (escaped src).length + 3) :
    dstSize ≤ d + (escapeFrom dstSize d src).length + 4 := by
  induction src generalizing d with
  | nil =>
    exact Nat.le_succ_of_le h
  | cons c cs ih =>
    rw [escaped_cons, length_append] at h
    rw [escapeFrom]
    split_ifs with hd
    · have hrest := ih (d + (escapeByte c).length) (by omega)
      rw [length_append]
      omega
    · omega

theorem unescapeFrom_escapeByte (c : UInt8) (rest : Bytes) :
    unescapeFrom {} (escapeByte c ++ rest) = c :: unescapeFrom {} rest := by
  rw [escapeByte]
  split_ifs with h34 h92 h10 h13 h9
  · rw [h34]
    rfl
  · rw [h92]
    rfl
  · rw [h10]
    rfl
  · rw [h13]
    rfl
  · rw [h9]
    rfl
  · have hstep : unescapeStep {} c = ({}, [c]) := if_neg h92
    rw [singleton_append, unescapeFrom, hstep, singleton_append]

/-- **An escaped text stands for the text.** -/
theorem unescape_escaped (src : Bytes) : unescape (escaped src) = src := by
  induction src with
  | nil => rfl
  | cons c cs ih => rw [escaped_cons, unescape, unescapeFrom_escapeByte, ← unescape, ih]

/-- A body without a backslash has nothing to escape. -/
theorem escaped_eq_self {raw : Bytes} (h : IsBody raw) (hback : 92 ∉ raw) : escaped raw = raw := by
  have hbyte : ∀ c ∈ raw, escapeByte c = [c] := by
    intro c hc
    have hne {k : UInt8} (hk : k ∉ raw) : c ≠ k := fun heq => hk (heq ▸ hc)
    rw [escapeByte, if_neg (hne (h.quote_notMem hback)), if_neg (hne hback),
      if_neg (hne (h.control_notMem (by decide))), if_neg (hne (h.control_notMem (by decide))),
      if_neg (hne (h.control_notMem (by decide)))]
  rw [escaped, map_congr_left hbyte, ← flatMap_def, flatMap_singleton']

end LunaAi
