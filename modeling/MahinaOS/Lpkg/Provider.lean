import Mathlib.Data.List.Forall2
import MahinaOS.Lib.Bytes
import MahinaOS.Lib.Text
import MahinaOS.Lpkg.Database

/-!
# The package provider of the control daemon

`PackageProvider::list` (`mahina-control/src/providers/package.rs`) reads the database of `lpkg`
with a reader of its own.  It takes a value up to a quote at the end of the line, skips a line that
is not UTF-8, and leaves out a package without a name.

* **`roundTrips_iff`**: when a database is read back by `lpkg` as it was and reported as it is.
* `list_saveInstalled`: what the provider makes of a database without quotes and newlines.
* `quote_lost`: a quote in a file name is enough to lose the rest of the name.
-/

namespace Lpkg

open CText JsonText List

variable {right : Bytes}

/-! ## Reading the file -/

/-- `PackageEntry`. -/
structure PackageEntry where
  name : List Char
  version : List Char
  description : List Char
  fileCount : Nat
  deriving DecidableEq, Repr

def headerChars : List Char := "[[package]]".toList
def nameChars : List Char := "name = \"".toList
def versionChars : List Char := "version = \"".toList
def descriptionChars : List Char := "description = \"".toList

/-- `str::strip_suffix` with a quote. -/
def stripQuote (text : List Char) : Option (List Char) :=
  if text.getLast? = some '"' then some text.dropLast else none

/-- What a line inside a package sets. -/
def listLine (e : PackageEntry) (line : List Char) : PackageEntry :=
  match afterKey nameChars line with
  | some rest => (stripQuote rest).elim e fun value => { e with name := value }
  | none =>
  match afterKey versionChars line with
  | some rest => (stripQuote rest).elim e fun value => { e with version := value }
  | none =>
  match afterKey descriptionChars line with
  | some rest => (stripQuote rest).elim e fun value => { e with description := value }
  | none => if ['"', '/'] <+: line then { e with fileCount := e.fileCount + 1 } else e

/-- A package is reported if it has a name. -/
def reported (cur : Option PackageEntry) : List PackageEntry :=
  cur.toList.filter fun e => !e.name.isEmpty

/-- The loop of `PackageProvider::list` over the lines that are UTF-8. -/
def listFrom (pkgs : List PackageEntry) (cur : Option PackageEntry) :
    List (List Char) → List PackageEntry
  | [] => pkgs ++ reported cur
  | line :: rest =>
    if Text.trim line = headerChars then
      listFrom (pkgs ++ reported cur) (some ⟨[], [], [], 0⟩) rest
    else listFrom pkgs (cur.map (listLine · (Text.trim line))) rest

/-- The lines of a file, without those that are not UTF-8. -/
def utf8Lines (file : Bytes) : List (List Char) :=
  (pieces none file).filterMap fun piece => (Utf8.decode piece).map Text.stripLineEnd

/-- `PackageProvider::list`, on the contents of the file. -/
def list (file : Bytes) : List PackageEntry := listFrom [] none (utf8Lines file)

/-! ## What the Rust reader makes of the lines -/

/-- A line as the Rust reader gets it, if it is UTF-8. -/
def lineChars (line : Bytes) : Option (List Char) :=
  (Utf8.decode (line ++ [10])).map Text.stripLineEnd

variable {lines : List Bytes} {pkgs : List PackageEntry} {p : Package}
  {cur : Option PackageEntry} {db : List Package}

theorem utf8Lines_writeLines (h : ∀ l ∈ lines, 10 ∉ l) :
    utf8Lines (writeLines lines) = lines.filterMap lineChars := by
  have hpieces : pieces none (writeLines lines) = lines.map (· ++ [10]) :=
    pieces_writeLines fun l hl => ⟨h l hl, by simp⟩
  rw [utf8Lines, hpieces, filterMap_map]
  rfl

/-- A text between two ASCII ones is read as it is, or the line is skipped. -/
theorem lineChars_wrap {left text : Bytes} {cl cr : List Char} {a : UInt8} {c : Char}
    (hl : Utf8.decode left = some cl) (ha : a < 0x80) (hr : Utf8.decode (a :: right) = some cr)
    (hc : cr.getLast? = some c) (hne : c ≠ '\r') :
    lineChars (left ++ (text ++ a :: right)) =
      (Utf8.decode text).map fun cs => cl ++ (cs ++ cr) := by
  have hend : Utf8.decode (a :: (right ++ [10])) = some (cr ++ ['\n']) := by
    rw [← cons_append, Utf8.decode_append hr]
    rfl
  rw [lineChars, append_assoc, append_assoc, cons_append,
    Utf8.decode_between hl ha hend, Option.map_map]
  congr 1
  funext cs
  show Text.stripLineEnd (cl ++ (cs ++ (cr ++ ['\n']))) = _
  rw [← append_assoc cs, ← append_assoc cl, Text.stripLineEnd, getLast?_concat,
    dropLast_concat, getLast?_append, getLast?_append, hc]
  exact if_neg fun heq => hne (Option.some.inj heq)

section

variable {e : PackageEntry} {cs : List Char}

theorem stripQuote_concat : stripQuote (cs ++ ['"']) = some cs := by
  rw [stripQuote, getLast?_concat, if_pos rfl, dropLast_concat]

@[simp] theorem head?_nameChars : nameChars.head? = some 'n' := by decide
@[simp] theorem head?_versionChars : versionChars.head? = some 'v' := by decide
@[simp] theorem head?_descriptionChars : descriptionChars.head? = some 'd' := by decide

theorem listLine_name : listLine e (nameChars ++ (cs ++ ['"'])) = { e with name := cs } := by
  rw [listLine, afterKey_append]
  simp only [stripQuote_concat, Option.elim_some]

theorem listLine_version :
    listLine e (versionChars ++ (cs ++ ['"'])) = { e with version := cs } := by
  have hname : afterKey nameChars (versionChars ++ (cs ++ ['"'])) = none :=
    afterKey_eq_none (by decide) (by simp)
  rw [listLine, hname, afterKey_append]
  simp only [stripQuote_concat, Option.elim_some]

theorem listLine_description :
    listLine e (descriptionChars ++ (cs ++ ['"'])) = { e with description := cs } := by
  have hname : afterKey nameChars (descriptionChars ++ (cs ++ ['"'])) = none :=
    afterKey_eq_none (by decide) (by simp)
  have hversion : afterKey versionChars (descriptionChars ++ (cs ++ ['"'])) = none :=
    afterKey_eq_none (by decide) (by simp)
  rw [listLine, hname, hversion, afterKey_append]
  simp only [stripQuote_concat, Option.elim_some]

theorem listLine_of_head {line : List Char} (h : line.head? ∉ [some 'n', some 'v', some 'd']) :
    listLine e line =
      if ['"', '/'] <+: line then { e with fileCount := e.fileCount + 1 } else e := by
  simp only [mem_cons, not_mem_nil, or_false, not_or] at h
  rw [listLine, afterKey_eq_none (by decide) (head?_nameChars ▸ h.1),
    afterKey_eq_none (by decide) (head?_versionChars ▸ h.2.1),
    afterKey_eq_none (by decide) (head?_descriptionChars ▸ h.2.2)]

/-- A line between fixed texts that are not white space is not trimmed. -/
theorem trim_wrap {left right : List Char} {a b : Char} (ha : left.head? = some a)
    (hb : right.getLast? = some b)
    (hab : Text.isWhitespace a = false ∧ Text.isWhitespace b = false) :
    Text.trim (left ++ (cs ++ right)) = left ++ (cs ++ right) := by
  refine Text.trim_eq_self fun c hc => ?_
  rw [head?_append, ha, getLast?_append, getLast?_append, hb] at hc
  rcases hc with hc | hc
  · cases hc
    exact hab.1
  · cases hc
    exact hab.2

theorem trim_blanks : Text.trim (' ' :: ' ' :: cs) = Text.trim cs := by
  have hblank : Text.isWhitespace ' ' = true := by decide
  rw [Text.trim, dropWhile_cons_of_pos hblank, dropWhile_cons_of_pos hblank, Text.trim]

end

/-- What is reported of a line. -/
def listStep (e : PackageEntry) (line : Bytes) : PackageEntry :=
  (lineChars line).elim e fun cs => listLine e (Text.trim cs)

theorem listFrom_lines {e : PackageEntry}
    (h : ∀ l ∈ lines, ∀ cs ∈ lineChars l, Text.trim cs ≠ headerChars) (rest : List (List Char)) :
    listFrom pkgs (some e) (lines.filterMap lineChars ++ rest) =
      listFrom pkgs (some (lines.foldl listStep e)) rest := by
  induction lines generalizing e with
  | nil => rfl
  | cons l lines ih =>
    obtain ⟨hl, hlines⟩ := forall_mem_cons.1 h
    rw [foldl_cons, ← ih hlines]
    rcases hcs : lineChars l with - | cs
    · rw [filterMap_cons_none hcs, listStep, hcs]
      rfl
    · rw [filterMap_cons_some hcs, cons_append, listFrom, if_neg (hl cs hcs), listStep, hcs]
      rfl

theorem lineChars_key {key : Bytes} {chars : List Char} (h : Utf8.decode key = some chars)
    (text : Bytes) :
    lineChars (key ++ (text ++ [34])) =
      (Utf8.decode text).map fun cs => chars ++ (cs ++ ['"']) :=
  lineChars_wrap (a := 34) (c := '"') h (by decide) (by decide) (by decide) (by decide)

theorem lineChars_file (file : CStr 256)
    (h : right ∈ [[34], [34, (44 : UInt8)]]) :
    ∃ r c, r.getLast? = some c ∧ Text.isWhitespace c = false ∧
      lineChars ([32, 32, 34] ++ (file.bytes ++ right)) =
        (Utf8.decode file.bytes).map fun cs => [' ', ' ', '"'] ++ (cs ++ r) := by
  simp only [mem_cons, not_mem_nil, or_false] at h
  rcases h with rfl | rfl
  · exact ⟨['"'], '"', rfl, by decide, lineChars_wrap (a := 34) (c := '"') (by decide) (by decide)
      (by decide) rfl (by decide)⟩
  · exact ⟨['"', ','], ',', rfl, by decide, lineChars_wrap (a := 34) (c := ',') (by decide)
      (by decide) (by decide) rfl (by decide)⟩

section

variable {e : PackageEntry}

theorem listStep_key {key : Bytes} {chars : List Char} {c : Char}
    {set : List Char → PackageEntry} (hkey : Utf8.decode key = some chars)
    (hhead : chars.head? = some c) (hc : Text.isWhitespace c = false)
    (hset : ∀ cs, listLine e (chars ++ (cs ++ ['"'])) = set cs) (text : Bytes) :
    listStep e (key ++ (text ++ [34])) = (Utf8.decode text).elim e set := by
  rw [listStep, lineChars_key hkey]
  rcases Utf8.decode text with - | cs
  · rfl
  · rw [Option.map_some, Option.elim_some, trim_wrap hhead rfl ⟨hc, by decide⟩, hset]
    rfl

/-- A file is counted if its line is UTF-8. -/
theorem listStep_file {file : CStr 256} (hslash : file.bytes.head? = some 47)
    (h : right ∈ [[34], [34, (44 : UInt8)]]) : listStep e ([32, 32, 34] ++ (file.bytes ++ right)) =
      if (Utf8.decode file.bytes).isSome then { e with fileCount := e.fileCount + 1 } else e := by
  obtain ⟨r, c, hlast, hc, hline⟩ := lineChars_file file h
  rw [listStep, hline]
  rcases hcs : Utf8.decode file.bytes with - | cs
  · rfl
  · obtain ⟨tail, htail⟩ := head?_eq_some_iff.1 hslash
    obtain ⟨ctail, rfl⟩ : ∃ ctail, cs = '/' :: ctail := by
      rw [htail] at hcs
      obtain ⟨pending, out, ctail, hstep, -, rfl⟩ := Utf8.decodeFrom_cons_eq_some hcs
      cases hstep
      exact ⟨ctail, rfl⟩
    have htrim : Text.trim ([' ', ' ', '"'] ++ ('/' :: ctail ++ r)) =
        ['"'] ++ ('/' :: ctail ++ r) :=
      trim_blanks.trans (trim_wrap rfl hlast ⟨by decide, hc⟩)
    rw [Option.map_some, Option.elim_some, htrim, listLine_of_head (by simp)]
    simp

theorem foldl_listStep_fileLines {files : List (CStr 256)}
    (h : ∀ file ∈ files, file.bytes.head? = some 47) :
    (fileLines files).foldl listStep e = { e with
      fileCount := e.fileCount + files.countP fun file => (Utf8.decode file.bytes).isSome } := by
  fun_induction fileLines files generalizing e with
  | case1 => rfl
  | case2 file =>
    rw [foldl_cons, listStep_file (h file mem_cons_self) (by decide), countP_singleton]
    split_ifs <;> rfl
  | case3 file files _ ih =>
    obtain ⟨hfile, hfiles⟩ := forall_mem_cons.1 h
    rw [foldl_cons, listStep_file hfile (by decide), ih hfiles, countP_cons]
    split_ifs
    · simp only [PackageEntry.mk.injEq, true_and]
      omega
    · rfl

end

/-- What the provider gets of a package. -/
def entryOf (p : Package) : PackageEntry where
  name := (Utf8.decode p.name.bytes).getD []
  version := (Utf8.decode p.version.bytes).getD []
  description := (Utf8.decode p.description.bytes).getD []
  fileCount := p.files.countP fun file => (Utf8.decode file.bytes).isSome

theorem foldl_listStep_packageBody (habs : Absolute p) :
    (packageBody p).foldl listStep ⟨[], [], [], 0⟩ = entryOf p := by
  have hother {e : PackageEntry} {line : Bytes} (h : ∃ cs ∈ lineChars line,
      (Text.trim cs).head? ∉ [some 'n', some 'v', some 'd'] ∧ ¬['"', '/'] <+: Text.trim cs) :
      listStep e line = e := by
    obtain ⟨cs, hcs, hhead, hfile⟩ := h
    rw [listStep, hcs, Option.elim_some, listLine_of_head hhead, if_neg hfile]
  have hname {e : PackageEntry} := listStep_key (by decide : Utf8.decode nameKey = _)
    head?_nameChars (by decide) fun _ => listLine_name (e := e)
  have hversion {e : PackageEntry} := listStep_key (by decide : Utf8.decode versionKey = _)
    head?_versionChars (by decide) fun _ => listLine_version (e := e)
  have hdescription {e : PackageEntry} := listStep_key (by decide : Utf8.decode descriptionKey = _)
    head?_descriptionChars (by decide) fun _ => listLine_description (e := e)
  rw [packageBody, foldl_append, foldl_append, foldl_listStep_fileLines habs]
  simp only [foldl_cons, hname, hversion, hdescription, @hother _ filesOpen (by decide),
    @hother _ [93] (by decide), @hother _ [] (by decide), entryOf]
  cases Utf8.decode p.name.bytes <;> cases Utf8.decode p.version.bytes <;>
    cases Utf8.decode p.description.bytes <;> simp

theorem trim_packageBody {l : Bytes} (hl : l ∈ packageBody p) :
    ∀ cs ∈ lineChars l, Text.trim cs ≠ headerChars := by
  have hhead {line : List Char} (h : line.head? ≠ some '[') : line ≠ headerChars := by
    rintro rfl
    exact h (by decide)
  have hkey {key : Bytes} {chars : List Char} {a : Char} {text : Bytes}
      (hdecode : Utf8.decode key = some chars) (ha : chars.head? = some a)
      (hne : Text.isWhitespace a = false ∧ a ≠ '[') :
      ∀ cs ∈ lineChars (key ++ (text ++ [34])), Text.trim cs ≠ headerChars := by
    intro cs hcs
    rw [lineChars_key hdecode] at hcs
    obtain ⟨value, -, rfl⟩ := Option.map_eq_some_iff.1 hcs
    rw [trim_wrap ha rfl ⟨hne.1, by decide⟩]
    refine hhead ?_
    rw [head?_append, ha]
    exact fun heq => hne.2 (Option.some.inj heq)
  intro cs hcs
  rw [packageBody, mem_append, mem_append] at hl
  rcases hl with hl | hl | hl
  · simp only [mem_cons, not_mem_nil, or_false] at hl
    rcases hl with rfl | rfl | rfl | rfl
    · exact hkey (by decide : _ = some nameChars) head?_nameChars (by decide) cs hcs
    · exact hkey (by decide : _ = some versionChars) head?_versionChars (by decide) cs hcs
    · exact hkey (by decide : _ = some descriptionChars) head?_descriptionChars (by decide) cs hcs
    · cases hcs
      decide
  · obtain ⟨file, -, right, hright, rfl⟩ := mem_fileLines hl
    obtain ⟨r, c, hlast, hc, hline⟩ := lineChars_file file hright
    rw [hline] at hcs
    obtain ⟨value, -, rfl⟩ := Option.map_eq_some_iff.1 hcs
    have htrim : Text.trim ([' ', ' ', '"'] ++ (value ++ r)) = ['"'] ++ (value ++ r) :=
      trim_blanks.trans (trim_wrap rfl hlast ⟨by decide, hc⟩)
    rw [htrim]
    exact hhead (by simp)
  · simp only [mem_cons, not_mem_nil, or_false] at hl
    rcases hl with rfl | rfl
    · cases hcs
      decide
    · cases hcs
      decide

theorem listFrom_packageLines (habs : Absolute p) (rest : List (List Char)) :
    listFrom pkgs cur ((packageLines p).filterMap lineChars ++ rest) =
      listFrom (pkgs ++ reported cur) (some (entryOf p)) rest := by
  have hheader : lineChars packageHeader = some headerChars := by decide
  rw [packageLines, filterMap_cons_some hheader, cons_append, listFrom,
    if_pos (by decide), listFrom_lines fun l hl => trim_packageBody hl,
    foldl_listStep_packageBody habs]

theorem listFrom_packages (habs : ∀ p ∈ db, Absolute p) :
    listFrom pkgs cur ((db.flatMap packageLines).filterMap lineChars) =
      pkgs ++ reported cur ++ db.flatMap fun p => reported (some (entryOf p)) := by
  induction db generalizing pkgs cur with
  | nil => exact (append_nil _).symm
  | cons p db ih =>
    obtain ⟨hp, hdb⟩ := forall_mem_cons.1 habs
    rw [flatMap_cons, filterMap_append, listFrom_packageLines hp, ih hdb,
      flatMap_cons, ← append_assoc]

/-- What the provider makes of a clean database: it reports the packages whose name it could
read. -/
theorem list_saveInstalled (hclean : ∀ p ∈ db, Clean p) (habs : ∀ p ∈ db, Absolute p) :
    list (saveInstalled db) = db.flatMap fun p => reported (some (entryOf p)) := by
  obtain ⟨comment, hcomment, hne⟩ : ∃ cs, lineChars dbComment = some cs ∧
      Text.trim cs ≠ headerChars :=
    ⟨"# /var/lib/lpkg/installed.toml — Managed by lpkg".toList, by decide +kernel,
      by decide +kernel⟩
  have hblank : lineChars [] = some [] := by decide
  rw [list, saveInstalled, utf8Lines_writeLines fun l hl => (fits_dbLines hclean l hl).1,
    filterMap_append, filterMap_cons_some hcomment, filterMap_cons_some hblank,
    filterMap_nil, cons_append, cons_append, listFrom, if_neg hne,
    listFrom]
  exact listFrom_packages habs

/-! ## Agreement -/

/-- An entry of the provider says of a package what is so. -/
structure Reports (p : Package) (e : PackageEntry) : Prop where
  name : Utf8.decode p.name.bytes = some e.name
  version : Utf8.decode p.version.bytes = some e.version
  description : Utf8.decode p.description.bytes = some e.description
  fileCount : e.fileCount = p.files.length

/-- The database is read back by `lpkg` as it was, and reported by the provider as it is. -/
def RoundTrips (db : List Package) : Prop :=
  loadInstalled (saveInstalled db) = db ∧ Forall₂ Reports db (list (saveInstalled db))

/-- All texts of the package are UTF-8, and its name is not empty. -/
def WellEncoded (p : Package) : Prop :=
  p.name.bytes ≠ [] ∧ ∀ text ∈ p.texts, (Utf8.decode text).isSome = true

instance (p : Package) : Decidable (WellEncoded p) := instDecidableAnd

theorem reported_some (e : PackageEntry) : reported (some e) = if e.name = [] then [] else [e] := by
  rw [reported]
  by_cases h : e.name = [] <;> simp [h]

/-- A package is reported as it is exactly if all of it can be read. -/
theorem reports_entryOf_iff :
    reported (some (entryOf p)) = [entryOf p] ∧ Reports p (entryOf p) ↔ WellEncoded p := by
  have hvalue (text : Bytes) :
      Utf8.decode text = some ((Utf8.decode text).getD []) ↔ (Utf8.decode text).isSome = true := by
    cases Utf8.decode text <;> simp
  have hreported : reported (some (entryOf p)) = [entryOf p] ↔ (entryOf p).name ≠ [] := by
    rw [reported_some]
    split_ifs with h <;> simp [h]
  have hname (h : (Utf8.decode p.name.bytes).isSome = true) :
      (entryOf p).name ≠ [] ↔ p.name.bytes ≠ [] := by
    refine not_congr ⟨fun hnil => ?_, fun hnil => ?_⟩
    · exact (Utf8.eq_nil_of_decodeFrom (((hvalue _).2 h).trans (congrArg some hnil))).2
    · rw [entryOf, hnil]
      rfl
  rw [hreported]
  simp only [WellEncoded, Package.texts, forall_mem_cons, forall_mem_map]
  constructor
  · rintro ⟨hne, hn, hv, hd, hc⟩
    have hsome := (hvalue _).1 hn
    refine ⟨(hname hsome).1 hne, hsome, (hvalue _).1 hv, (hvalue _).1 hd, ?_⟩
    exact countP_eq_length.1 hc
  · rintro ⟨hne, hn, hv, hd, hf⟩
    exact ⟨(hname hn).2 hne, (hvalue _).2 hn, (hvalue _).2 hv, (hvalue _).2 hd,
      countP_eq_length.2 hf⟩

theorem length_flatMap_reported_le (db : List Package) :
    (db.flatMap fun p => reported (some (entryOf p))).length ≤ db.length := by
  induction db with
  | nil => exact Nat.le_refl _
  | cons p db ih =>
    have hone : (reported (some (entryOf p))).length ≤ 1 := length_filter_le _ _
    rw [flatMap_cons, length_append, length_cons]
    omega

theorem forall₂_reports_iff :
    Forall₂ Reports db (db.flatMap fun p => reported (some (entryOf p))) ↔
      ∀ p ∈ db, WellEncoded p := by
  induction db with
  | nil => simp
  | cons p db ih =>
    rw [forall_mem_cons, flatMap_cons, ← reports_entryOf_iff, ← ih, reported_some]
    split_ifs with hname
    · -- with a package left out there are too few entries
      refine ⟨fun h => absurd h.length_eq ?_, fun h => absurd h.1.1 (by simp)⟩
      have hle := length_flatMap_reported_le db
      rw [nil_append, length_cons]
      omega
    · simp

/-- **The two readers and the writer agree** on a database exactly if no text in it has a quote or a
newline, all are UTF-8, and no name is empty. -/
theorem roundTrips_iff {db : List Package} (h : Buildable db) :
    RoundTrips db ↔ ∀ p ∈ db, Clean p ∧ WellEncoded p := by
  obtain ⟨habs, hlen⟩ := h.inv
  constructor
  · rintro ⟨hload, hlist⟩
    have hclean : ∀ p ∈ db, Clean p := by
      rw [← hload]
      exact fun p hp => (clean_of_mem_loadInstalled hp).1
    rw [list_saveInstalled hclean habs] at hlist
    exact fun p hp => ⟨hclean p hp, forall₂_reports_iff.1 hlist p hp⟩
  · intro hgood
    have hclean : ∀ p ∈ db, Clean p := fun p hp => (hgood p hp).1
    refine ⟨loadInstalled_saveInstalled hclean habs hlen, ?_⟩
    rw [list_saveInstalled hclean habs]
    exact forall₂_reports_iff.2 fun p hp => (hgood p hp).2

/-- A package as it is entered for `htop-3.2.lpkg` with the given listing. -/
def htop (listing : String) : Package :=
  newPackage (utf8 "/tmp/htop-3.2.lpkg") (utf8 listing)

theorem roundTrips_htop : RoundTrips [htop "usr/bin/\nusr/bin/htop\n"] :=
  (roundTrips_iff (.install .empty rfl)).2 (by decide +kernel)

/-- A file whose name has a quote in it is read back under another name. -/
theorem quote_lost :
    Buildable [htop "usr/share/6\"disk\n"] ∧
      (loadInstalled (saveInstalled [htop "usr/share/6\"disk\n"])).map
          (fun p => p.files.map fun file => file.bytes) = [[utf8 "/usr/share/6"]] ∧
      ¬ RoundTrips [htop "usr/share/6\"disk\n"] := by
  refine ⟨.install .empty rfl, by decide +kernel, fun h => ?_⟩
  have hne : loadInstalled (saveInstalled [htop "usr/share/6\"disk\n"]) ≠
      [htop "usr/share/6\"disk\n"] := by decide +kernel
  exact hne h.1

end Lpkg
