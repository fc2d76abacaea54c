import MahinaOS.LunaAi.Json

/-!
# luna-ai-d: the stream of the model server

`inference_prompt` reads the answer of the model server into an array of 8 KiB, in whatever pieces
it arrives.  It drops the head of the HTTP response, takes complete lines from the array and moves
the rest to the front.  For a line with a `response` it writes a chunk to the client, and for a line
that is the last one a message that it is done.

The reading is right: the lines do not depend on the pieces (`loop_body`), up to one byte at the
limit of the array.  What is done with a line is not.  Of the escapes of JSON only `\n`, `\t` and
those that stand for themselves are undone.  The array for the message has the size of the one for
the escaped text in it, and `write` is given the length the message would have had.  And `done` is
looked for as a text, with no blank after its colon and at any depth.

* `inferenceStream_eq`: the lines that are handled, for every way to read.
* `isChunk_chunkWrite_iff`: when what is written for a text is a chunk with the text.
* **`stream_served_iff`**: when every line is served.
* `accent_lost`: a line that is not.
-/

namespace LunaAi

open JsonText CText List Option

variable {buf bytes head : Bytes}

/-! ## One line -/

/-- The bytes of a call of `write`; `none` is one that is not of the message, because it is not
among the 4095 bytes that `snprintf` puts into the array. -/
abbrev Write := List (Option UInt8)

def chunkText (text : Bytes) : Bytes :=
  utf8 "\x7b\"type\":\"chunk\",\"text\":\"" ++ (text ++ utf8 "\"\x7d\n")

/-- What is written for the text of a line. -/
def chunkWrite (response : Bytes) : Write :=
  let msg := chunkText (escapeJsonString response 4096)
  (msg.take 4095).map some ++ replicate (msg.length - 4095) none

def doneWrite : Write := (utf8 "\x7b\"type\":\"done\"\x7d\n").map some

/-- The body of the loop over the lines. -/
def processLine (line : Bytes) : List Write :=
  if line.head? = some 123 then
    (extractJsonStrField line (utf8 "response") 2048).toList.map chunkWrite ++
      if (after (utf8 "\"done\":true") line).isSome then [doneWrite] else []
  else []

/-! ## The array -/

/-- The bytes of `buf` up to `buf_len`, and `headers_passed`. -/
structure Reader where
  buf : Bytes := []
  headersPassed : Bool := false

def crlfcrlf : Bytes := utf8 "\r\n\r\n"

/-- `stream_start`; `none` while the head is not complete. -/
def streamStart (headersPassed : Bool) (buf : Bytes) : Option Bytes :=
  if headersPassed then some buf
  else (after crlfcrlf (cut buf)).map fun stream => stream ++ buf.drop (cut buf).length

/-- The body of the loop over the reads, and what is written for each line. -/
def Reader.feed (s : Reader) (bytes : Bytes) : Reader × List (List Write) :=
  let buf := s.buf ++ bytes
  match streamStart s.headersPassed buf with
  | none => ({ s with buf := if 8191 ≤ buf.length then [] else buf }, [])
  | some stream => (⟨(scan stream).2, true⟩, (scan stream).1.map processLine)

/-- The loop, when `rest` is still to come and a read gets at most so many bytes.  It ends when
`read` gets none: at the end of the stream, or when the array is full. -/
def loop : List Nat → Reader → Bytes → List (List Write)
  | [], _, _ => []
  | size :: sizes, s, rest =>
    let n := min (size + 1) (min (8191 - s.buf.length) rest.length)
    if n = 0 then []
    else (s.feed (rest.take n)).2 ++ loop sizes (s.feed (rest.take n)).1 (rest.drop n)

/-- The loop of `inference_prompt` over the answer of the server: what is written for each line that
is handled. -/
def inferenceStream (sizes : List Nat) (response : Bytes) : List (List Write) :=
  loop sizes {} response

/-! ## Which lines are handled -/

/-- The head of a response, with the empty line at its end. -/
structure IsHead (head : Bytes) : Prop where
  ends : after crlfcrlf head = some []
  nul_notMem : 0 ∉ head
  length_le : head.length ≤ 8192

/-- A line of the body: JSON, at most 8 KiB with its newline. -/
structure IsLine (line : Bytes) : Prop where
  isJson : (parse line).isSome
  newline_notMem : 10 ∉ line
  length_lt : line.length < 8192

variable {line rest text : Bytes} {lines : List Bytes} {sizes : List Nat} {chunks : List Write}

theorem IsLine.nul_notMem (h : IsLine line) : 0 ∉ line := by
  obtain ⟨v, hv⟩ := isSome_iff_exists.1 h.isJson
  exact nul_notMem_of_parse hv

theorem nul_notMem_joinLines (h : ∀ line ∈ lines, IsLine line) : 0 ∉ joinLines lines := by
  induction lines with
  | nil => simp [joinLines]
  | cons line lines ih =>
    obtain ⟨hline, hlines⟩ := forall_mem_cons.1 h
    simp [joinLines, hline.nul_notMem, ih hlines]

theorem eq_nil_of_joinLines (h : 10 ∉ joinLines lines) : lines = [] := by
  rcases lines with - | ⟨line, lines⟩
  · rfl
  · simp [joinLines] at h

/-- A line and its newline have to fit into 8191 bytes. -/
def fits (line : Bytes) : Bool := line.length ≤ 8190

theorem loop_cons (size : Nat) (sizes : List Nat) (s : Reader) (hroom : s.buf.length < 8191)
    (hrest : rest ≠ []) :
    ∃ n, 0 < n ∧ s.buf.length + n ≤ 8191 ∧ n ≤ rest.length ∧
      loop (size :: sizes) s rest =
        (s.feed (rest.take n)).2 ++ loop sizes (s.feed (rest.take n)).1 (rest.drop n) := by
  have hpos := length_pos_iff.2 hrest
  refine ⟨min (size + 1) (min (8191 - s.buf.length) rest.length), by omega, by omega, by omega, ?_⟩
  exact if_neg (by omega)

theorem loop_end {s : Reader} (h : rest = [] ∨ 8191 ≤ s.buf.length) : loop sizes s rest = [] := by
  rcases sizes with - | ⟨-, sizes⟩
  · rfl
  · refine if_pos ?_
    rcases h with rfl | h
    · simp
    · omega

/-- The lines found in the array come before those that are handled later. -/
theorem scan_append {stream : Bytes} (hlines : ∀ line ∈ lines, IsLine line)
    (hjoin : stream ++ rest = joinLines lines) (hlen : stream.length ≤ 8191)
    (hlater : ∀ lines', (∀ line ∈ lines', IsLine line) →
      (scan stream).2 ++ rest = joinLines lines' → 10 ∉ (scan stream).2 →
      (scan stream).2.length ≤ 8191 →
      loop sizes ⟨(scan stream).2, true⟩ rest = (lines'.takeWhile fits).map processLine) :
    (scan stream).1.map processLine ++ loop sizes ⟨(scan stream).2, true⟩ rest =
      (lines.takeWhile fits).map processLine := by
  have hnul : 0 ∉ stream := fun hzero =>
    nul_notMem_joinLines hlines (hjoin ▸ mem_append_left _ hzero)
  obtain ⟨later, hsplit, hnext, hnewline, hshort, hfound⟩ :=
    scan_joinLines hnul (fun line hline => (hlines line hline).newline_notMem) hjoin
  have hfits : ∀ line ∈ (scan stream).1, fits line = true := by
    intro line hline
    have hlt := hfound line hline
    exact decide_eq_true (by omega)
  have hall : ∀ line ∈ later, IsLine line := fun line hline =>
    hlines line (hsplit ▸ mem_append_right _ hline)
  rw [hlater later hall hnext hnewline (by omega), hsplit, takeWhile_append_of_pos hfits,
    map_append]

/-- **Behind the head** the lines that fit are handled, however they arrive, up to the first that
does not. -/
theorem loop_body (hlines : ∀ line ∈ lines, IsLine line)
    (hjoin : buf ++ rest = joinLines lines) (hbuf : 10 ∉ buf) (hlen : buf.length ≤ 8191)
    (hsizes : rest.length ≤ sizes.length) :
    loop sizes ⟨buf, true⟩ rest = (lines.takeWhile fits).map processLine := by
  induction sizes generalizing buf rest lines with
  | nil =>
    obtain rfl : rest = [] := length_eq_zero_iff.1 (Nat.le_zero.1 hsizes)
    obtain rfl : lines = [] := eq_nil_of_joinLines (by rwa [← hjoin, append_nil])
    rfl
  | cons size sizes ih =>
    by_cases hrest : rest = []
    · obtain rfl : lines = [] := eq_nil_of_joinLines (by rwa [← hjoin, hrest, append_nil])
      exact loop_end (.inl hrest)
    by_cases hfull : buf.length = 8191
    · -- the line that is in the array is too long
      rw [loop_end (.inr hfull.ge)]
      rcases lines with - | ⟨line, lines⟩
      · rfl
      · have hle := length_le_of_joinLines hbuf hjoin
        have hfits : ¬ fits line = true := by
          rw [fits, decide_eq_true_iff]
          omega
        rw [takeWhile_cons_of_neg hfits]
        rfl
    · obtain ⟨n, hpos, hroom, -, hloop⟩ := loop_cons size sizes ⟨buf, true⟩
        (Nat.lt_of_le_of_ne hlen hfull) hrest
      rw [hloop]
      refine scan_append hlines ?_ ?_ fun lines' hlines' hjoin' hbuf' hlen' => ?_
      · rw [append_assoc, take_append_drop, hjoin]
      · rw [length_append, length_take]
        exact Nat.le_trans (Nat.add_le_add_left (Nat.min_le_left _ _) _) hroom
      · refine ih hlines' hjoin' hbuf' hlen' ?_
        rw [length_drop]
        rw [length_cons] at hsizes
        omega

theorem feed_unfound (hafter : after crlfcrlf (buf ++ bytes) = none) (hnul : 0 ∉ buf ++ bytes) :
    (⟨buf, false⟩ : Reader).feed bytes =
      (⟨if 8191 ≤ (buf ++ bytes).length then [] else buf ++ bytes, false⟩, []) := by
  simp only [Reader.feed, streamStart, cut_eq_self hnul, hafter]
  rfl

theorem feed_found {stream : Bytes}
    (hafter : after crlfcrlf (buf ++ bytes) = some stream) (hnul : 0 ∉ buf ++ bytes) :
    (⟨buf, false⟩ : Reader).feed bytes =
      (⟨(scan stream).2, true⟩, (scan stream).1.map processLine) := by
  have hstart : streamStart false (buf ++ bytes) = some stream := by
    simp [streamStart, cut_eq_self hnul, hafter]
  simp only [Reader.feed, hstart]

/-- While the head is not found nothing is handled. -/
theorem loop_unfound (hhead : ¬ crlfcrlf <:+: buf ++ rest)
    (hnul : 0 ∉ buf ++ rest) : loop sizes ⟨buf, false⟩ rest = [] := by
  induction sizes generalizing buf rest with
  | nil => rfl
  | cons size sizes ih =>
    by_cases hend : rest = [] ∨ 8191 ≤ buf.length
    · exact loop_end hend
    rw [not_or, Nat.not_le] at hend
    obtain ⟨n, -, -, -, hloop⟩ := loop_cons size sizes ⟨buf, false⟩ hend.2 hend.1
    have hread : (buf ++ rest.take n) ++ rest.drop n = buf ++ rest := by
      rw [append_assoc, take_append_drop]
    rw [← hread] at hhead hnul
    have hafter : after crlfcrlf (buf ++ rest.take n) = none :=
      after_eq_none fun h => hhead (h.trans (prefix_append _ _).isInfix)
    rw [hloop, feed_unfound hafter fun h => hnul (mem_append_left _ h)]
    split_ifs
    · exact ih (fun h => hhead (h.trans (suffix_append _ _).isInfix))
        fun h => hnul (mem_append_right _ h)
    · exact ih hhead hnul

/-- The lines that are handled. -/
def reached (head : Bytes) (lines : List Bytes) : List Bytes :=
  if head.length ≤ 8191 then lines.takeWhile fits else []

theorem not_infix_lines (hlines : ∀ line ∈ lines, IsLine line) :
    ¬ crlfcrlf <:+: 10 :: joinLines lines := by
  intro h
  refine not_infix_joinLines (fun line hline => (hlines line hline).newline_notMem) ?_
    (.trans ⟨[13], [], rfl⟩ h)
  intro hmem
  exact absurd (hlines _ hmem).isJson (by decide +kernel)

theorem IsHead.eq_newline {b : UInt8} (h : IsHead head) (hb : head = bytes ++ [b]) : b = 10 := by
  obtain ⟨pre, hpre⟩ := exists_of_after h.ends
  have hlast : head = (pre ++ [13, 10, 13]) ++ [10] := by
    rw [hpre, append_assoc]
    rfl
  have hsingle := (append_inj' (hb.symm.trans hlast) rfl).2
  exact head_eq_of_cons_eq hsingle

/-- The head is not found before its end. -/
theorem IsHead.after_eq_none {more : Bytes} (h : IsHead (bytes ++ more))
    (hmore : more ≠ []) : after crlfcrlf bytes = none := by
  rcases hafter : after crlfcrlf bytes with - | stream
  · rfl
  · have hends := h.ends
    rw [after_append hafter more, some.injEq, append_eq_nil_iff] at hends
    exact absurd hends.2 hmore

/-- A read that brings the end of the head. -/
theorem loop_found {later : Bytes} (hhead : IsHead head) (hlines : ∀ line ∈ lines, IsLine line)
    (hsplit : buf ++ bytes ++ later = head ++ joinLines lines) (hnul : 0 ∉ buf ++ bytes)
    (hle : head.length ≤ (buf ++ bytes).length) (hlen : (buf ++ bytes).length ≤ 8191)
    (hsizes : later.length ≤ sizes.length) :
    ((⟨buf, false⟩ : Reader).feed bytes).2 ++
        loop sizes ((⟨buf, false⟩ : Reader).feed bytes).1 later =
      (reached head lines).map processLine := by
  obtain ⟨stream, hstream⟩ := prefix_of_prefix_length_le
    (prefix_append head (joinLines lines)) ⟨later, hsplit⟩ hle
  have hjoin : stream ++ later = joinLines lines := by
    rw [← hstream, append_assoc] at hsplit
    exact append_cancel_left hsplit
  have hshort : stream.length ≤ 8191 := by
    rw [← hstream, length_append] at hlen
    omega
  have hafter : after crlfcrlf (buf ++ bytes) = some stream :=
    hstream ▸ after_append hhead.ends stream
  rw [feed_found hafter hnul, reached, if_pos (by omega)]
  exact scan_append hlines hjoin hshort fun lines' hlines' hjoin' hbuf' hlen' =>
    loop_body hlines' hjoin' hbuf' hlen' hsizes

/-- The array is full and is emptied when only the last byte of the head is missing. -/
theorem loop_emptied {more : Bytes} (hhead : IsHead (bytes ++ more)) (hmore : more ≠ [])
    (hlines : ∀ line ∈ lines, IsLine line) (hfull : 8191 ≤ bytes.length) :
    loop sizes ⟨[], false⟩ (more ++ joinLines lines) =
      (reached (bytes ++ more) lines).map processLine := by
  have hmax := hhead.length_le
  have hpos := length_pos_iff.2 hmore
  rw [length_append] at hmax
  obtain ⟨b, rfl⟩ := length_eq_one_iff.1 (show more.length = 1 by omega)
  obtain rfl : b = 10 := hhead.eq_newline rfl
  have hlong : ¬ (bytes ++ [10]).length ≤ 8191 := by
    rw [length_append, length_singleton]
    omega
  rw [reached, if_neg hlong]
  refine loop_unfound (not_infix_lines hlines) ?_
  have hzero := nul_notMem_joinLines hlines
  simpa using hzero

/-- **The whole stream**: the head may arrive in pieces, too. -/
theorem loop_head (hhead : IsHead head)
    (hlines : ∀ line ∈ lines, IsLine line) (hread : buf ++ rest = head ++ joinLines lines)
    (hbuf : buf.length < head.length) (hlen : buf.length < 8191)
    (hsizes : rest.length ≤ sizes.length) :
    loop sizes ⟨buf, false⟩ rest = (reached head lines).map processLine := by
  have hrest : 0 < rest.length := by
    have hle := congrArg length hread
    rw [length_append, length_append] at hle
    omega
  induction sizes generalizing buf rest with
  | nil => exact absurd (hrest.trans_le hsizes) (lt_irrefl 0)
  | cons size sizes ih =>
    obtain ⟨n, hpos, hroom, hn, hloop⟩ :=
      loop_cons size sizes ⟨buf, false⟩ hlen (length_pos_iff.1 hrest)
    have hsplit : (buf ++ rest.take n) ++ rest.drop n = head ++ joinLines lines := by
      rw [append_assoc, take_append_drop, hread]
    have hnul : 0 ∉ buf ++ rest.take n := by
      intro hzero
      have hmem := mem_append_left (rest.drop n) hzero
      rw [hsplit, mem_append] at hmem
      exact hmem.elim hhead.nul_notMem (nul_notMem_joinLines hlines)
    have hbytes : (buf ++ rest.take n).length ≤ 8191 := by
      rw [length_append, length_take, Nat.min_eq_left hn]
      exact hroom
    have hdrop : (rest.drop n).length ≤ sizes.length := by
      rw [length_drop]
      rw [length_cons] at hsizes
      omega
    rw [hloop]
    by_cases hle : head.length ≤ (buf ++ rest.take n).length
    · exact loop_found hhead hlines hsplit hnul hle hbytes hdrop
    · obtain ⟨more, rfl⟩ := prefix_of_prefix_length_le ⟨_, hsplit⟩
        (prefix_append head (joinLines lines)) (Nat.le_of_not_le hle)
      have hmore : more ≠ [] := by
        rintro rfl
        exact hle (by rw [append_nil])
      have hlater : rest.drop n = more ++ joinLines lines := by
        rw [append_assoc (buf ++ rest.take n)] at hsplit
        exact append_cancel_left hsplit
      rw [feed_unfound (hhead.after_eq_none hmore) hnul]
      split_ifs with hfull
      · rw [hlater]
        exact loop_emptied hhead hmore hlines hfull
      · refine ih hsplit (Nat.not_le.1 hle) (Nat.not_le.1 hfull) hdrop ?_
        rw [hlater, length_append]
        have := length_pos_iff.2 hmore
        omega

/-- **The lines that are handled**, for every way to read. -/
theorem inferenceStream_eq (hhead : IsHead head) (hlines : ∀ line ∈ lines, IsLine line)
    (hsizes : (head ++ joinLines lines).length ≤ sizes.length) :
    inferenceStream sizes (head ++ joinLines lines) = (reached head lines).map processLine := by
  refine loop_head hhead hlines rfl ?_ (by decide) hsizes
  obtain ⟨-, rfl⟩ := exists_of_after hhead.ends
  have hcrlf : crlfcrlf.length = 4 := by decide
  simp only [length_append, hcrlf]
  omega

/-! ## What a line is to be answered with -/

/-- The text of the member `response`. -/
def carried (line : Bytes) : Option Bytes :=
  match (parse line).bind (Value.member (utf8 "response")) with
  | some (.string raw) => some (unescape raw)
  | _ => none

/-- The member `done` is true. -/
def isDone (line : Bytes) : Bool :=
  match (parse line).bind (Value.member (utf8 "done")) with
  | some (.bool b) => b
  | _ => false

/-- A line with a JSON object: a chunk with the text. -/
def IsChunk (text : Bytes) (w : Write) : Prop :=
  ∃ body v raw, w = (body ++ [10]).map some ∧ 10 ∉ body ∧ parse body = some v ∧
    v.field (utf8 "type") = some (.string (utf8 "chunk")) ∧
    v.field (utf8 "text") = some (.string raw) ∧ unescape raw = text

/-- The chunks a line asks for.  Nothing is asked about the text of a longer response. -/
def Chunks (line : Bytes) (chunks : List Write) : Prop :=
  match carried line with
  | none => chunks = []
  | some text =>
    if text.length ≤ 2047 then ∃ w, chunks = [w] ∧ IsChunk text w
    else ∀ w ∈ chunks, none ∉ w ∧ w ≠ doneWrite

/-- What is written for the line: its chunk, and that it is done if it is. -/
def Serves (line : Bytes) (writes : List Write) : Prop :=
  ∃ chunks, Chunks line chunks ∧
    writes = chunks ++ if isDone line then [doneWrite] else []

/-- Every line is served, in order; for a line that is not handled nothing is written. -/
def Served (lines : List Bytes) (writes : List (List Write)) : Prop :=
  writes.length ≤ lines.length ∧
    ∀ (i : Nat) line, lines[i]? = some line → Serves line (writes[i]?.getD [])

/-! ## Chunks -/

def chunkValue (text : Bytes) : Value :=
  .object [(utf8 "type", .string (utf8 "chunk")), (utf8 "text", .string text)]

theorem chunkText_eq (text : Bytes) : chunkText text = print (chunkValue text) ++ [10] := by
  simp only [chunkValue, print, printEntries, cons_append, append_assoc]
  rfl

theorem length_chunkText (text : Bytes) : (chunkText text).length = 27 + text.length := by
  have h₁ : (utf8 "\x7b\"type\":\"chunk\",\"text\":\"").length = 24 := by decide
  have h₂ : (utf8 "\"\x7d\n").length = 3 := by decide
  simp only [chunkText, length_append, h₁, h₂]
  omega

theorem good_chunkValue (h : IsBody text) : Good (chunkValue text) := by
  have h₁ : IsBody (utf8 "type") := by decide
  have h₂ : IsBody (utf8 "chunk") := by decide
  have h₃ : IsBody (utf8 "text") := by decide
  refine .object ?_ ?_
  · simpa using ⟨h₁, h₃⟩
  · simpa using ⟨.string h₂, .string h⟩

/-- The message is JSON if the escaped text may stand in a string. -/
theorem parse_print_chunkValue (text : Bytes) :
    parse (print (chunkValue (escaped text))) =
      if IsBody (escaped text) then some (chunkValue (escaped text)) else none := by
  split_ifs with hbody
  · exact parse_print (good_chunkValue hbody)
  · have hprint : print (chunkValue (escaped text)) =
        utf8 "\x7b\"type\":\"chunk\",\"text\":\"" ++ (escaped text ++ [34, 125]) := by
      simp only [chunkValue, print, printEntries, cons_append, append_assoc]
      rfl
    have hrun : run ⟨.value, []⟩ (print (chunkValue (escaped text))) = none := by
      rw [hprint]
      exact run_escapes_bad (fun _ => isEscape_of_mem) hbody [125]
    rw [parse, hrun]
    rfl

/-- A message that fits is written as it is. -/
theorem chunkWrite_eq (h : (escaped text).length ≤ 4068) :
    chunkWrite text = (chunkText (escaped text)).map some := by
  have hlen := length_chunkText (escaped text)
  rw [chunkWrite, escapeJsonString_eq (by omega), take_of_length_le (by omega),
    Nat.sub_eq_zero_of_le (by omega), replicate_zero, append_nil]

/-- Otherwise more is written than there is. -/
theorem none_mem_chunkWrite_iff (text : Bytes) :
    none ∈ chunkWrite text ↔ 4068 < (escaped text).length := by
  constructor
  · intro h
    by_contra hle
    rw [chunkWrite_eq (by omega)] at h
    simp at h
  · intro h
    have hlen := length_chunkText (escapeJsonString text 4096)
    have hfull : 4069 ≤ (escapeJsonString text 4096).length := by
      by_cases hfits : (escaped text).length + 3 < 4096
      · rw [escapeJsonString_eq hfits]
        exact h
      · have hlarge : 4096 ≤ 0 + (escaped text).length + 3 := by omega
        have hfilled := length_escapeFrom 0 hlarge
        rw [escapeJsonString]
        omega
    refine mem_append_right _ (mem_replicate.2 ⟨by omega, rfl⟩)

/-- **What is written for a text** is a chunk with it if the message fits and the text may stand in
a string when it is escaped. -/
theorem isChunk_chunkWrite_iff (text response : Bytes) :
    IsChunk text (chunkWrite response) ↔
      response = text ∧ IsBody (escaped text) ∧ (escaped text).length ≤ 4068 := by
  constructor
  · rintro ⟨body, v, raw, hw, -, hparse, -, htext, hraw⟩
    have hfits : (escaped response).length ≤ 4068 := by
      by_contra hlarge
      have hnone := (none_mem_chunkWrite_iff response).2 (by omega)
      rw [hw] at hnone
      simp at hnone
    rw [chunkWrite_eq hfits, chunkText_eq] at hw
    have hbody := append_cancel_right (map_injective_iff.2 (fun _ _ => some.inj) hw)
    rw [← hbody, parse_print_chunkValue] at hparse
    split_ifs at hparse with hescaped
    obtain rfl := some.inj hparse
    have hfield : (chunkValue (escaped response)).field (utf8 "text") =
      some (.string (escaped response)) := rfl
    rw [hfield, some.injEq, Value.string.injEq] at htext
    rw [← htext, unescape_escaped] at hraw
    rw [← hraw]
    exact ⟨rfl, hescaped, hfits⟩
  · rintro ⟨rfl, hescaped, hfits⟩
    refine ⟨print (chunkValue (escaped response)), chunkValue (escaped response), escaped response,
      ?_, newline_notMem_print (good_chunkValue hescaped), ?_, rfl, rfl, unescape_escaped response⟩
    · rw [chunkWrite_eq hfits, chunkText_eq]
    · rw [parse_print_chunkValue, if_pos hescaped]

theorem chunkWrite_ne_doneWrite (response : Bytes) : chunkWrite response ≠ doneWrite := by
  intro h
  have hchunk : (chunkWrite response)[9]? = some (some 99) := rfl
  have hdone : doneWrite[9]? = some (some 100) := by decide
  rw [h, hdone] at hchunk
  exact absurd hchunk (by decide)

theorem not_isChunk_doneWrite (text : Bytes) : ¬ IsChunk text doneWrite := by
  rintro ⟨body, v, -, hw, -, hparse, htype, -, -⟩
  have hdone : doneWrite = (utf8 "\x7b\"type\":\"done\"\x7d" ++ [10]).map some := by decide
  rw [hdone] at hw
  have hbody := append_cancel_right (map_injective_iff.2 (fun _ _ => some.inj) hw)
  have hvalue : parse (utf8 "\x7b\"type\":\"done\"\x7d") =
    some (.object [(utf8 "type", .string (utf8 "done"))]) := rfl
  rw [← hbody, hvalue, some.injEq] at hparse
  rw [← hparse] at htype
  have hfield : utf8 "done" = utf8 "chunk" := Value.string.inj (some.inj htype)
  exact absurd hfield (by decide)

/-! ## Lines -/

/-- There is nothing to write for the line, or nothing is asked. -/
def Silent (line : Bytes) : Prop := isDone line = false ∧ ∀ text ∈ carried line, 2047 < text.length

/-- The line is read as it is meant: `done` where it is searched, the text where it is searched and
with the escapes that are known.  The message fits and the text may stand in a string. -/
structure Handled (line : Bytes) : Prop where
  done : (after (utf8 "\"done\":true") line).isSome = isDone line
  text : ∀ text ∈ carried line, text.length ≤ 2047 →
    extractJsonStrField line (utf8 "response") 2048 = some text ∧ IsBody (escaped text)
  nothing : carried line = none → extractJsonStrField line (utf8 "response") 2048 = none
  fits : ∀ text ∈ extractJsonStrField line (utf8 "response") 2048,
    (escaped text).length ≤ 4068

instance (line : Bytes) : Decidable (Silent line) := by
  unfold Silent
  infer_instance

instance (line : Bytes) : Decidable (Handled line) :=
  decidable_of_iff (_ ∧ _ ∧ _ ∧ _)
    ⟨fun h => ⟨h.1, h.2.1, h.2.2.1, h.2.2.2⟩, fun h => ⟨h.done, h.text, h.nothing, h.fits⟩⟩

theorem chunks_nil_iff (line : Bytes) :
    Chunks line [] ↔ ∀ text ∈ carried line, 2047 < text.length := by
  rw [Chunks]
  rcases carried line with - | text
  · simp
  · dsimp only
    split_ifs with hlen
    · simpa using hlen
    · simpa using hlen

theorem chunks_singleton_iff (line response : Bytes) :
    Chunks line [chunkWrite response] ↔ carried line ≠ none ∧
      (∀ text ∈ carried line, text.length ≤ 2047 → response = text ∧ IsBody (escaped text)) ∧
      (escaped response).length ≤ 4068 := by
  rw [Chunks]
  rcases carried line with - | text
  · simp
  · simp only [mem_some_iff, forall_eq', ne_eq, reduceCtorEq, not_false_eq_true, true_and]
    split_ifs with hlen
    · constructor
      · rintro ⟨w, hw, hchunk⟩
        rw [← singleton_inj.1 hw, isChunk_chunkWrite_iff] at hchunk
        obtain ⟨rfl, hbody, hfits⟩ := hchunk
        exact ⟨fun _ => ⟨rfl, hbody⟩, hfits⟩
      · rintro ⟨htext, hfits⟩
        obtain ⟨rfl, hbody⟩ := htext hlen
        exact ⟨_, rfl, (isChunk_chunkWrite_iff _ _).2 ⟨rfl, hbody, hfits⟩⟩
    · have hnone := none_mem_chunkWrite_iff response
      simp [chunkWrite_ne_doneWrite, hnone, hlen]

theorem doneWrite_notMem (h : Chunks line chunks) : doneWrite ∉ chunks := by
  rw [Chunks] at h
  split at h
  · simp [h]
  · split_ifs at h
    · obtain ⟨w, rfl, hw⟩ := h
      rw [mem_singleton]
      rintro rfl
      exact not_isChunk_doneWrite _ hw
    · exact fun hmem => (h _ hmem).2 rfl

theorem serves_nil_iff (line : Bytes) : Serves line [] ↔ Silent line := by
  rw [Silent, ← chunks_nil_iff]
  constructor
  · rintro ⟨chunks, hchunks, hnil⟩
    obtain ⟨rfl, hdone⟩ := append_eq_nil_iff.1 hnil.symm
    exact ⟨by simpa using hdone, hchunks⟩
  · rintro ⟨hdone, hchunks⟩
    exact ⟨[], hchunks, by simp [hdone]⟩

/-- The chunks and the message that the stream is done cannot be confused. -/
theorem serves_append_iff {done : Bool} (hchunks : doneWrite ∉ chunks) :
    Serves line (chunks ++ if done then [doneWrite] else []) ↔
      Chunks line chunks ∧ done = isDone line := by
  constructor
  · rintro ⟨chunks', hchunks', heq⟩
    have hnotMem := doneWrite_notMem hchunks'
    rcases done with - | - <;> rcases hdone : isDone line with - | -
    · simp only [hdone, Bool.false_eq_true, if_false, append_nil] at heq
      exact ⟨heq ▸ hchunks', rfl⟩
    · simp only [hdone, Bool.false_eq_true, if_false, append_nil] at heq
      exact absurd (heq ▸ mem_append_right _ (mem_singleton_self _)) hchunks
    · simp only [hdone, Bool.false_eq_true, if_false, append_nil] at heq
      exact absurd (heq ▸ mem_append_right _ (mem_singleton_self _)) hnotMem
    · simp only [hdone] at heq
      exact ⟨append_cancel_right heq ▸ hchunks', rfl⟩
  · rintro ⟨hline, rfl⟩
    exact ⟨chunks, hline, rfl⟩

/-- When a line that is handled is served. -/
theorem serves_processLine_iff (line : Bytes) :
    Serves line (processLine line) ↔
      if line.head? = some 123 then Handled line else Silent line := by
  by_cases hhead : line.head? = some 123
  · have hchunks : doneWrite ∉
        (extractJsonStrField line (utf8 "response") 2048).toList.map chunkWrite := by
      rw [List.mem_map]
      rintro ⟨response, -, heq⟩
      exact chunkWrite_ne_doneWrite response heq
    rw [processLine, if_pos hhead, if_pos hhead, serves_append_iff hchunks]
    rcases hfield : extractJsonStrField line (utf8 "response") 2048 with - | response
    · rw [toList_none, map_nil, chunks_nil_iff]
      constructor
      · rintro ⟨hlong, hdone⟩
        exact ⟨hdone, fun text htext hlen => absurd hlen (Nat.not_le.2 (hlong text htext)),
          fun _ => hfield, by simp [hfield]⟩
      · intro h
        refine ⟨fun text htext => Nat.not_le.1 fun hlen => ?_, h.done⟩
        exact absurd (hfield.symm.trans (h.text text htext hlen).1) (by simp)
    · rw [toList_some, map_singleton, chunks_singleton_iff]
      constructor
      · rintro ⟨⟨hsome, htext, hfits⟩, hdone⟩
        refine ⟨hdone, fun text hmem hlen => ?_, fun hnone => absurd hnone hsome, ?_⟩
        · obtain ⟨rfl, hbody⟩ := htext text hmem hlen
          exact ⟨hfield, hbody⟩
        · simpa [hfield] using hfits
      · intro h
        refine ⟨⟨fun hnone => ?_, fun text hmem hlen => ?_, h.fits response hfield⟩, h.done⟩
        · exact absurd (hfield.symm.trans (h.nothing hnone)) (by simp)
        · obtain ⟨htext, hbody⟩ := h.text text hmem hlen
          exact ⟨some.inj (hfield.symm.trans htext), hbody⟩
  · rw [processLine, if_neg hhead, if_neg hhead, serves_nil_iff]

theorem served_append_iff (handled later : List Bytes) :
    Served (handled ++ later) (handled.map processLine) ↔
      (∀ line ∈ handled, Serves line (processLine line)) ∧ ∀ line ∈ later, Serves line [] := by
  constructor
  · rintro ⟨-, h⟩
    constructor
    · intro line hline
      obtain ⟨i, hi, rfl⟩ := getElem_of_mem hline
      have hserves := h i handled[i] (by rw [getElem?_append_left hi, getElem?_eq_getElem hi])
      rwa [getElem?_map, getElem?_eq_getElem hi] at hserves
    · intro line hline
      obtain ⟨i, hi, rfl⟩ := getElem_of_mem hline
      have hserves := h (handled.length + i) later[i]
        (by rw [getElem?_append_right (by omega), Nat.add_sub_cancel_left, getElem?_eq_getElem hi])
      rwa [getElem?_eq_none (by rw [length_map]; omega)] at hserves
  · rintro ⟨hhandled, hlater⟩
    refine ⟨by simp, fun i line hline => ?_⟩
    by_cases hi : i < handled.length
    · rw [getElem?_append_left hi] at hline
      rw [getElem?_map, hline]
      exact hhandled line (mem_of_getElem? hline)
    · rw [getElem?_append_right (by omega)] at hline
      rw [getElem?_eq_none (by simpa using hi)]
      exact hlater line (mem_of_getElem? hline)

theorem reached_isPrefix (head : Bytes) (lines : List Bytes) : reached head lines <+: lines := by
  rw [reached]
  split_ifs
  · exact takeWhile_prefix _
  · exact nil_prefix

/-- **Every line is served** if those that are handled are read as they are meant, and nothing is
asked by the others. -/
theorem stream_served_iff (sizes : List Nat) (head : Bytes) (lines : List Bytes)
    (hhead : IsHead head) (hlines : ∀ line ∈ lines, IsLine line)
    (hsizes : (head ++ joinLines lines).length ≤ sizes.length) :
    Served lines (inferenceStream sizes (head ++ joinLines lines)) ↔
      (∀ line ∈ reached head lines,
        if line.head? = some 123 then Handled line else Silent line) ∧
      ∀ line ∈ lines.drop (reached head lines).length, Silent line := by
  rw [inferenceStream_eq hhead hlines hsizes]
  have hpre := reached_isPrefix head lines
  generalize reached head lines = handled at hpre ⊢
  obtain ⟨-, rfl⟩ := hpre
  rw [drop_left, served_append_iff]
  simp only [serves_processLine_iff, serves_nil_iff]

def sampleHead : Bytes := utf8 "HTTP/1.1 200 OK\r\n\r\n"

def sampleLines : List Bytes :=
  [utf8 "\x7b\"response\":\"Hi\\n\",\"done\":false\x7d",
    utf8 "\x7b\"response\":\"\",\"done\":true\x7d"]

theorem isHead_sampleHead : IsHead sampleHead :=
  ⟨by decide +kernel, by decide +kernel, by decide +kernel⟩

theorem isLine_sampleLines : ∀ line ∈ sampleLines, IsLine line := by
  intro line hline
  have hall : ∀ line ∈ sampleLines, (parse line).isSome ∧ 10 ∉ line ∧ line.length < 8192 := by
    decide +kernel
  obtain ⟨hjson, hnewline, hlen⟩ := hall line hline
  exact ⟨hjson, hnewline, hlen⟩

theorem stream_served_sample :
    Served sampleLines
      (inferenceStream (range 128) (sampleHead ++ joinLines sampleLines)) := by
  refine (stream_served_iff (range 128) sampleHead sampleLines isHead_sampleHead
    isLine_sampleLines (by decide +kernel)).2 ⟨?_, ?_⟩
  · decide +kernel
  · decide +kernel

/-- The answer with an accent that is written as an escape sequence. -/
def accentLine : Bytes := utf8 "\x7b\"response\":\"caf\\u00e9\"\x7d"

/-- The client is told of a café without its accent, in any way to read. -/
theorem accent_lost :
    IsHead sampleHead ∧ IsLine accentLine ∧ carried accentLine = some (utf8 "café") ∧
      ∀ sizes : List Nat, (sampleHead ++ joinLines [accentLine]).length ≤ sizes.length →
        inferenceStream sizes (sampleHead ++ joinLines [accentLine]) =
            [[(utf8 "\x7b\"type\":\"chunk\",\"text\":\"cafu00e9\"\x7d\n").map some]] ∧
          ¬ Served [accentLine] (inferenceStream sizes (sampleHead ++ joinLines [accentLine])) := by
  have hlines : ∀ line ∈ [accentLine], IsLine line := by
    rw [forall_mem_singleton]
    exact ⟨by decide +kernel, by decide +kernel, by decide +kernel⟩
  refine ⟨isHead_sampleHead, hlines _ (mem_singleton_self _), by decide +kernel,
    fun sizes hsizes => ?_⟩
  have hreached : reached sampleHead [accentLine] = [accentLine] := by decide +kernel
  rw [inferenceStream_eq isHead_sampleHead hlines hsizes, hreached]
  constructor
  · decide +kernel
  · have hserved := served_append_iff [accentLine] []
    rw [append_nil] at hserved
    rw [hserved, forall_mem_singleton, serves_processLine_iff]
    exact fun h => absurd h.1 (by decide +kernel)

end LunaAi
