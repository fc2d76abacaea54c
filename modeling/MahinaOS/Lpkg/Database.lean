import MahinaOS.Lib.CText
import MahinaOS.Lib.JsonText

/-!
# lpkg: the package database

`lpkg` keeps its installed packages in `/var/lib/lpkg/installed.toml`, which `db_save_installed`
writes and `db_load_installed` reads back (`lpkg/db.c`).  Nothing is escaped: the reader takes a
value up to the first quote after its key, in lines of at most 511 bytes.

What is in the database comes from file names and from listings of archives (`install_local_lpkg`
and `get_tar_file_list` of `lpkg/main.c`), so it is any text of bytes that fits the arrays
(`Buildable`).

* **`loadInstalled_saveInstalled`**: a database without quotes and newlines is read back as it was.
* **`clean_of_mem_loadInstalled`**: whatever the file, no text that is read from it has a quote or a
  newline, so one that has them is never read back;
* **`load_save_load`**: what has been read once stays as it is.
* `Buildable.inv`: a database that installs can build has absolute paths and at most 128 packages.
-/

namespace Lpkg

open CText JsonText List Option

/-! ## Packages -/

/-- `lpkg_t`. -/
@[ext]
structure Package where
  name : CStr 64
  version : CStr 32
  description : CStr 256
  files : List (CStr 256)
  files_le : files.length ≤ 256
  deriving DecidableEq

namespace Package

/-- A package after `memset`. -/
def empty : Package where
  name := .print 64 []
  version := .print 32 []
  description := .print 256 []
  files := []
  files_le := Nat.zero_le _

def addFile (p : Package) (file : CStr 256) : Package :=
  if h : p.files.length < 256 then
    { p with files := p.files ++ [file], files_le := by rw [length_append]; exact h }
  else p

/-- Everything in the package that is text. -/
def texts (p : Package) : List Bytes :=
  p.name.bytes :: p.version.bytes :: p.description.bytes :: p.files.map fun file => file.bytes

end Package

section

variable {α : Type} [DecidableEq α]

/-- What follows a key at the start of a line, as `strncmp` and `str::strip_prefix` find it. -/
def afterKey (key line : List α) : Option (List α) :=
  if key <+: line then some (line.drop key.length) else none

theorem afterKey_append (key rest : List α) : afterKey key (key ++ rest) = some rest := by
  rw [afterKey, if_pos (prefix_append key rest), drop_left]

/-- A line that does not start with the letter of the key does not have the key. -/
theorem afterKey_eq_none {key line : List α} (hkey : key ≠ []) (h : line.head? ≠ key.head?) :
    afterKey key line = none := by
  refine if_neg fun hpre => h ?_
  obtain ⟨-, rfl⟩ := hpre
  exact head?_append_of_ne_nil key hkey

end

/-! ## Writing the file -/

def packageHeader : Bytes := utf8 "[[package]]"
def nameKey : Bytes := utf8 "name = \""
def versionKey : Bytes := utf8 "version = \""
def descriptionKey : Bytes := utf8 "description = \""
def filesOpen : Bytes := utf8 "files = ["

@[simp] theorem head?_nameKey : nameKey.head? = some 110 := by decide
@[simp] theorem head?_versionKey : versionKey.head? = some 118 := by decide
@[simp] theorem head?_descriptionKey : descriptionKey.head? = some 100 := by decide

/-- The lines of the files, with a comma after all but the last. -/
def fileLines : List (CStr 256) → List Bytes
  | [] => []
  | [file] => [[32, 32, 34] ++ (file.bytes ++ [34])]
  | file :: files => ([32, 32, 34] ++ (file.bytes ++ [34, 44])) :: fileLines files

/-- The lines `db_save_installed` writes for a package, after the first. -/
def packageBody (p : Package) : List Bytes :=
  [nameKey ++ (p.name.bytes ++ [34]), versionKey ++ (p.version.bytes ++ [34]),
    descriptionKey ++ (p.description.bytes ++ [34]), filesOpen] ++ (fileLines p.files ++ [[93], []])

def packageLines (p : Package) : List Bytes := packageHeader :: packageBody p

def dbComment : Bytes := utf8 "# /var/lib/lpkg/installed.toml — Managed by lpkg"

/-- Lines as they are written, each with its newline. -/
def writeLines (lines : List Bytes) : Bytes := lines.flatMap (· ++ [10])

/-- `db_save_installed`: the contents of the file. -/
def saveInstalled (db : List Package) : Bytes :=
  writeLines ([dbComment, []] ++ db.flatMap packageLines)

/-! ## Reading it in C -/

def maxDbPkgs : Nat := 128

/-- What is left of a line: blanks before it and the line ending are stripped. -/
def lineText (piece : Bytes) : Bytes :=
  ((cut piece).dropWhile fun b => b = 32 || b = 9).rdropWhile fun b => b = 10 || b = 13

/-- The text up to the next quote, if there is one. -/
def quoted (text : Bytes) : Option Bytes :=
  if 34 ∈ text then some (text.takeWhile fun b => b ≠ 34) else none

/-- What a line inside a package sets. -/
def loadLine (p : Package) (line : Bytes) : Package :=
  match afterKey nameKey line with
  | some rest => (quoted rest).elim p fun value => { p with name := .print 64 value }
  | none =>
  match afterKey versionKey line with
  | some rest => (quoted rest).elim p fun value => { p with version := .print 32 value }
  | none =>
  match afterKey descriptionKey line with
  | some rest => (quoted rest).elim p fun value => { p with description := .print 256 value }
  | none =>
    if [34, 47] <+: line then
      (quoted (line.drop 1)).elim p fun value => p.addFile (.print 256 value)
    else p

/-- The loop of `db_load_installed`: the packages before the present one, and that. -/
def loadFrom (maxPkgs : Nat) (done : List Package) (cur : Option Package) :
    List Bytes → List Package
  | [] => done ++ cur.toList
  | piece :: rest =>
    if lineText piece = packageHeader then
      if maxPkgs ≤ (done ++ cur.toList).length then done ++ cur.toList
      else loadFrom maxPkgs (done ++ cur.toList) (some .empty) rest
    else loadFrom maxPkgs done (cur.map (loadLine · (lineText piece))) rest

/-- `db_load_installed`, on the contents of the file. -/
def loadInstalled (file : Bytes) : List Package := loadFrom maxDbPkgs [] none (fgets 512 file)

/-! ## Whole lines -/

variable {limit : Option Nat} {lines : List Bytes} {p : Package} {files : List (CStr 256)}
  {line : Bytes} {maxPkgs : Nat} {done db : List Package} {cur : Option Package}

theorem pieces_writeLines (h : ∀ l ∈ lines, 10 ∉ l ∧ ∀ n ∈ limit, l.length < n) :
    pieces limit (writeLines lines) = lines.map (· ++ [10]) := by
  induction lines with
  | nil => rfl
  | cons l lines ih =>
    obtain ⟨hl, hlines⟩ := forall_mem_cons.1 h
    have hline : pieces limit _ = _ := piecesFrom_line hl.1 hl.2 (writeLines lines)
    rw [ih hlines] at hline
    rw [writeLines, flatMap_cons, append_assoc]
    exact hline

/-- No text of the package has a quote or a newline. -/
def Clean (p : Package) : Prop := ∀ text ∈ p.texts, 34 ∉ text ∧ 10 ∉ text

instance (p : Package) : Decidable (Clean p) := decidableBAll _ _

theorem clean_iff :
    Clean p ↔ (34 ∉ p.name.bytes ∧ 10 ∉ p.name.bytes) ∧
      (34 ∉ p.version.bytes ∧ 10 ∉ p.version.bytes) ∧
      (34 ∉ p.description.bytes ∧ 10 ∉ p.description.bytes) ∧
      ∀ file ∈ p.files, 34 ∉ file.bytes ∧ 10 ∉ file.bytes := by
  simp [Clean, Package.texts]

theorem newline_notMem_wrap {left text right : Bytes} (hleft : 10 ∉ left) (htext : 10 ∉ text)
    (hright : 10 ∉ right) : 10 ∉ left ++ (text ++ right) := by
  simp only [mem_append, not_or]
  exact ⟨hleft, htext, hright⟩

theorem mem_fileLines (h : line ∈ fileLines files) :
    ∃ file ∈ files, ∃ right ∈ [[34], [34, 44]], line = [32, 32, 34] ++ (file.bytes ++ right) := by
  fun_induction fileLines files with
  | case1 => cases h
  | case2 file => exact ⟨file, by simp, [34], by simp, mem_singleton.1 h⟩
  | case3 file files _ ih =>
    rcases mem_cons.1 h with rfl | h
    · exact ⟨file, mem_cons_self, [34, 44], by simp, rfl⟩
    · obtain ⟨file', hfile, hright⟩ := ih h
      exact ⟨file', mem_cons_of_mem _ hfile, hright⟩

/-- The lines of a clean package are read as lines. -/
theorem fits_packageLines (h : Clean p) : ∀ l ∈ packageLines p, 10 ∉ l ∧ l.length < 511 := by
  obtain ⟨⟨-, hname⟩, ⟨-, hversion⟩, ⟨-, hdescription⟩, hfiles⟩ := clean_iff.1 h
  have hlength {left text right : Bytes} {n : Nat} (ht : text.length < n)
      (hn : left.length + n + right.length < 512) : (left ++ (text ++ right)).length < 511 := by
    rw [length_append, length_append]
    omega
  intro l hl
  rw [packageLines, mem_cons, packageBody, mem_append, mem_append] at hl
  rcases hl with rfl | hl | hl | hl
  · decide
  · simp only [mem_cons, not_mem_nil, or_false] at hl
    rcases hl with rfl | rfl | rfl | rfl
    · exact ⟨newline_notMem_wrap (by decide) hname (by decide),
        hlength p.name.length_lt (by decide)⟩
    · exact ⟨newline_notMem_wrap (by decide) hversion (by decide),
        hlength p.version.length_lt (by decide)⟩
    · exact ⟨newline_notMem_wrap (by decide) hdescription (by decide),
        hlength p.description.length_lt (by decide)⟩
    · decide
  · obtain ⟨file, hfile, right, hright, rfl⟩ := mem_fileLines hl
    have hshort : 10 ∉ right ∧ right.length ≤ 2 := by
      simp only [mem_cons, not_mem_nil, or_false] at hright
      rcases hright with rfl | rfl <;> decide
    refine ⟨newline_notMem_wrap (by decide) (hfiles file hfile).2 hshort.1,
      hlength file.length_lt ?_⟩
    have : [32, 32, (34 : UInt8)].length = 3 := rfl
    omega
  · simp only [mem_cons, not_mem_nil, or_false] at hl
    rcases hl with rfl | rfl <;> decide

/-! ## What the C reader makes of them -/

/-- A text with nothing that is stripped from a line. -/
structure Plain (line : Bytes) : Prop where
  nul : 0 ∉ line
  head : ∀ b ∈ line.head?, b ≠ 32 ∧ b ≠ 9
  last : ∀ b ∈ line.getLast?, b ≠ 10 ∧ b ≠ 13

theorem lineText_plain (h : Plain line) : lineText (line ++ [10]) = line := by
  have hcut : cut (line ++ [10]) = line ++ [10] := cut_eq_self (by simp [h.nul])
  have hhead : (line ++ [10]).dropWhile (fun b => b = 32 || b = 9) = line ++ [10] := by
    rcases line with - | ⟨b, line⟩
    · rfl
    · have hb := h.head b rfl
      rw [cons_append, dropWhile_cons_of_neg (by simpa using hb)]
  have hlast : line.rdropWhile (fun b => b = 10 || b = 13) = line := by
    rw [rdropWhile_eq_self_iff]
    intro hne
    have hb := h.last _ (getLast?_eq_some_getLast hne)
    simpa using hb
  rw [lineText, hcut, hhead, rdropWhile_concat_pos _ _ _ (by decide), hlast]

theorem plain_wrap {left text right : Bytes} {a b : UInt8} (hleft : 0 ∉ left)
    (htext : 0 ∉ text) (hright : 0 ∉ right) (ha : left.head? = some a)
    (hb : right.getLast? = some b) (hab : a ≠ 32 ∧ a ≠ 9 ∧ b ≠ 10 ∧ b ≠ 13) :
    Plain (left ++ (text ++ right)) where
  nul := by simp [hleft, htext, hright]
  head := by
    intro c hc
    rw [head?_append, ha] at hc
    cases hc
    exact ⟨hab.1, hab.2.1⟩
  last := by
    intro c hc
    rw [getLast?_append, getLast?_append, hb] at hc
    cases hc
    exact hab.2.2

theorem quoted_append {text rest : Bytes} (h : 34 ∉ text) :
    quoted (text ++ 34 :: rest) = some text := by
  have hall : ∀ b ∈ text, decide (b ≠ 34) = true := by
    intro b hb
    refine decide_eq_true ?_
    rintro rfl
    exact h hb
  rw [quoted, takeWhile_append_of_pos hall]
  simp

section

variable {p : Package} {text : Bytes}

theorem loadLine_name (h : 34 ∉ text) :
    loadLine p (nameKey ++ (text ++ [34])) = { p with name := .print 64 text } := by
  rw [loadLine, afterKey_append]
  simp only [quoted_append h, elim_some]

theorem loadLine_version (h : 34 ∉ text) :
    loadLine p (versionKey ++ (text ++ [34])) = { p with version := .print 32 text } := by
  have hname : afterKey nameKey (versionKey ++ (text ++ [34])) = none :=
    afterKey_eq_none (by decide) (by simp)
  rw [loadLine, hname, afterKey_append]
  simp only [quoted_append h, elim_some]

theorem loadLine_description (h : 34 ∉ text) :
    loadLine p (descriptionKey ++ (text ++ [34])) = { p with description := .print 256 text } := by
  have hname : afterKey nameKey (descriptionKey ++ (text ++ [34])) = none :=
    afterKey_eq_none (by decide) (by simp)
  have hversion : afterKey versionKey (descriptionKey ++ (text ++ [34])) = none :=
    afterKey_eq_none (by decide) (by simp)
  rw [loadLine, hname, hversion, afterKey_append]
  simp only [quoted_append h, elim_some]

/-- A line that starts with the letter of none of the keys is one of a file, or changes nothing. -/
theorem loadLine_of_head {line : Bytes}
    (h : line.head? ∉ [some 110, some 118, some (100 : UInt8)]) :
    loadLine p line = if [34, 47] <+: line then
      (quoted (line.drop 1)).elim p fun value => p.addFile (.print 256 value) else p := by
  simp only [mem_cons, not_mem_nil, or_false, not_or] at h
  rw [loadLine, afterKey_eq_none (by decide) (head?_nameKey ▸ h.1),
    afterKey_eq_none (by decide) (head?_versionKey ▸ h.2.1),
    afterKey_eq_none (by decide) (head?_descriptionKey ▸ h.2.2)]

theorem loadLine_file {file : CStr 256} {rest : Bytes} (h : 34 ∉ file.bytes)
    (hslash : file.bytes.head? = some 47) :
    loadLine p (34 :: (file.bytes ++ 34 :: rest)) = p.addFile file := by
  obtain ⟨tail, htail⟩ : ∃ tail, file.bytes = 47 :: tail := by
    rcases hf : file.bytes with - | ⟨b, tail⟩
    · rw [hf] at hslash
      cases hslash
    · rw [hf] at hslash
      cases hslash
      exact ⟨tail, rfl⟩
  have hstart : [34, 47] <+: 34 :: (file.bytes ++ 34 :: rest) := by
    rw [htail]
    exact ⟨tail ++ 34 :: rest, rfl⟩
  rw [loadLine_of_head (by simp), if_pos hstart, drop_one, tail_cons, quoted_append h,
    elim_some, CStr.print_bytes]

end

theorem loadFrom_lines (h : ∀ l ∈ lines, lineText (l ++ [10]) ≠ packageHeader)
    (rest : List Bytes) :
    loadFrom maxPkgs done (some p) (lines.map (· ++ [10]) ++ rest) =
      loadFrom maxPkgs done
        (some (lines.foldl (fun q l => loadLine q (lineText (l ++ [10]))) p)) rest := by
  induction lines generalizing p with
  | nil => rfl
  | cons l lines ih =>
    obtain ⟨hl, hlines⟩ := forall_mem_cons.1 h
    rw [map_cons, cons_append, loadFrom, if_neg hl]
    exact ih hlines

theorem lineText_file (file : CStr 256) {right : Bytes}
    (h : right ∈ [[34], [34, (44 : UInt8)]]) :
    lineText ([32, 32, 34] ++ (file.bytes ++ right) ++ [10]) = [34] ++ (file.bytes ++ right) := by
  have hright : 0 ∉ right ∧ ∃ b, right.getLast? = some b ∧ b ≠ 10 ∧ b ≠ 13 := by
    simp only [mem_cons, not_mem_nil, or_false] at h
    rcases h with rfl | rfl
    · exact ⟨by decide, 34, rfl, by decide⟩
    · exact ⟨by decide, 44, rfl, by decide⟩
  obtain ⟨hnul, b, hb, hlast⟩ := hright
  have hplain : Plain ([34] ++ (file.bytes ++ right)) :=
    plain_wrap (by decide) file.nul_notMem hnul rfl hb ⟨by decide, by decide, hlast⟩
  exact .trans (by simp [lineText, cut]) (lineText_plain hplain)

theorem foldl_fileLines (h : ∀ file ∈ files, 34 ∉ file.bytes ∧ file.bytes.head? = some 47) :
    (fileLines files).foldl (fun q l => loadLine q (lineText (l ++ [10]))) p =
      files.foldl Package.addFile p := by
  fun_induction fileLines files generalizing p with
  | case1 => rfl
  | case2 file =>
    obtain ⟨hquote, hslash⟩ := h file mem_cons_self
    rw [foldl_cons, lineText_file file (by decide)]
    exact loadLine_file hquote hslash
  | case3 file files _ ih =>
    obtain ⟨⟨hquote, hslash⟩, hfiles⟩ := forall_mem_cons.1 h
    rw [foldl_cons, lineText_file file (by decide), ih hfiles]
    exact congrArg (foldl .addFile · files) (loadLine_file hquote hslash)

/-- Files that all have room are entered one after the other. -/
theorem foldl_addFile (files : List (CStr 256)) (h : p.files.length + files.length ≤ 256) :
    (files.foldl Package.addFile p).files = p.files ++ files ∧
      (files.foldl Package.addFile p).name = p.name ∧
      (files.foldl Package.addFile p).version = p.version ∧
      (files.foldl Package.addFile p).description = p.description := by
  induction files generalizing p with
  | nil => simp
  | cons file files ih =>
    rw [length_cons] at h
    have hroom : p.files.length < 256 := by omega
    have hadd : p.addFile file = { p with
        files := p.files ++ [file], files_le := by rw [length_append]; exact hroom } :=
      dif_pos hroom
    have hnext := ih (p := p.addFile file) (by
      rw [hadd, length_append, length_singleton]
      omega)
    rw [foldl_cons]
    rw [hadd] at hnext ⊢
    simpa using hnext

/-- Every file of the package is absolute. -/
def Absolute (p : Package) : Prop := ∀ file ∈ p.files, file.bytes.head? = some 47

instance (p : Package) : Decidable (Absolute p) := decidableBAll _ _

/-- The keys of the lines that have a text. -/
def keys : List Bytes := [nameKey, versionKey, descriptionKey]

theorem mem_keys : nameKey ∈ keys ∧ versionKey ∈ keys ∧ descriptionKey ∈ keys := by decide

theorem lineText_key {key : Bytes} (hkey : key ∈ keys) {n : Nat} (text : CStr n) :
    lineText (key ++ (text.bytes ++ [34]) ++ [10]) = key ++ (text.bytes ++ [34]) := by
  have hkeys : ∀ key ∈ keys, 0 ∉ key ∧ ∃ a ∈ key.head?, a ≠ 32 ∧ a ≠ 9 := by decide
  obtain ⟨hnul, a, ha, hblank⟩ := hkeys key hkey
  exact lineText_plain
    (plain_wrap hnul text.nul_notMem (by decide) ha rfl ⟨hblank.1, hblank.2, by decide, by decide⟩)

theorem lineText_packageBody (p : Package) {l : Bytes} (hl : l ∈ packageBody p) :
    lineText (l ++ [10]) ≠ packageHeader := by
  have hhead {line : Bytes} (h : line.head? ≠ some 91) : line ≠ packageHeader := by
    rintro rfl
    exact h (by decide)
  rw [packageBody, mem_append, mem_append] at hl
  rcases hl with hl | hl | hl
  · simp only [mem_cons, not_mem_nil, or_false] at hl
    rcases hl with rfl | rfl | rfl | rfl
    · rw [lineText_key mem_keys.1]
      exact hhead (by simp)
    · rw [lineText_key mem_keys.2.1]
      exact hhead (by simp)
    · rw [lineText_key mem_keys.2.2]
      exact hhead (by simp)
    · decide
  · obtain ⟨file, -, right, hright, rfl⟩ := mem_fileLines hl
    rw [lineText_file file hright]
    exact hhead (by simp)
  · simp only [mem_cons, not_mem_nil, or_false] at hl
    rcases hl with rfl | rfl <;> decide

/-- The lines of a clean package make up the package again. -/
theorem foldl_packageBody (hclean : Clean p) (habs : Absolute p) :
    (packageBody p).foldl (fun q l => loadLine q (lineText (l ++ [10]))) .empty = p := by
  obtain ⟨⟨hname, -⟩, ⟨hversion, -⟩, ⟨hdescription, -⟩, hquote⟩ := clean_iff.1 hclean
  have hfiles : ∀ file ∈ p.files, 34 ∉ file.bytes ∧ file.bytes.head? = some 47 := fun file hfile =>
    ⟨(hquote file hfile).1, habs file hfile⟩
  have hother {q : Package} {line : Bytes}
      (h : line.head? ∉ [some 110, some 118, some (100 : UInt8)] ∧ ¬[34, 47] <+: line) :
      loadLine q line = q :=
    (loadLine_of_head h.1).trans (if_neg h.2)
  rw [packageBody, foldl_append, foldl_append, foldl_fileLines hfiles]
  simp only [foldl_cons, lineText_key mem_keys.1, lineText_key mem_keys.2.1,
    lineText_key mem_keys.2.2, loadLine_name hname, loadLine_version hversion,
    loadLine_description hdescription, @hother _ (lineText (filesOpen ++ [10])) (by decide),
    @hother _ (lineText ([93] ++ [10])) (by decide), @hother _ (lineText ([] ++ [10])) (by decide),
    CStr.print_bytes]
  obtain ⟨hf, hn, hv, hd⟩ := foldl_addFile p.files (p := { Package.empty with
      name := p.name, version := p.version, description := p.description })
    (by simpa [Package.empty] using p.files_le)
  exact Package.ext hn hv hd (hf.trans (nil_append _))

theorem loadFrom_packageLines (hclean : Clean p) (habs : Absolute p)
    (hroom : (done ++ cur.toList).length < maxPkgs) (rest : List Bytes) :
    loadFrom maxPkgs done cur ((packageLines p).map (· ++ [10]) ++ rest) =
      loadFrom maxPkgs (done ++ cur.toList) (some p) rest := by
  have hheader : lineText (packageHeader ++ [10]) = packageHeader := by decide
  rw [packageLines, map_cons, cons_append, loadFrom, if_pos hheader,
    if_neg (Nat.not_le.2 hroom), loadFrom_lines fun l hl => lineText_packageBody p hl,
    foldl_packageBody hclean habs]

theorem loadFrom_packages (hclean : ∀ p ∈ db, Clean p) (habs : ∀ p ∈ db, Absolute p)
    (hroom : (done ++ cur.toList).length + db.length ≤ maxPkgs) :
    loadFrom maxPkgs done cur ((db.flatMap packageLines).map (· ++ [10])) =
      done ++ cur.toList ++ db := by
  induction db generalizing done cur with
  | nil => exact (append_nil _).symm
  | cons p db ih =>
    obtain ⟨hp, hdb⟩ := forall_mem_cons.1 hclean
    obtain ⟨hpabs, hdbabs⟩ := forall_mem_cons.1 habs
    rw [length_cons] at hroom
    rw [flatMap_cons, map_append, loadFrom_packageLines hp hpabs (by omega),
      ih hdb hdbabs (by simp only [length_append, toList_some, length_singleton]
                          at hroom ⊢
                        omega)]
    simp

theorem fits_dbLines (h : ∀ p ∈ db, Clean p) :
    ∀ l ∈ [dbComment, []] ++ db.flatMap packageLines, 10 ∉ l ∧ l.length < 511 := by
  intro l hl
  rcases mem_append.1 hl with hl | hl
  · simp only [mem_cons, not_mem_nil, or_false] at hl
    rcases hl with rfl | rfl <;> decide +kernel
  · obtain ⟨p, hp, hl⟩ := mem_flatMap.1 hl
    exact fits_packageLines (h p hp) l hl

theorem loadInstalled_saveInstalled (hclean : ∀ p ∈ db, Clean p) (habs : ∀ p ∈ db, Absolute p)
    (hlen : db.length ≤ maxDbPkgs) : loadInstalled (saveInstalled db) = db := by
  have hfit : ∀ l ∈ [dbComment, []] ++ db.flatMap packageLines,
      10 ∉ l ∧ ∀ n ∈ some (512 - 1), l.length < n := by
    intro l hl
    obtain ⟨hnewline, hlength⟩ := fits_dbLines hclean l hl
    refine ⟨hnewline, fun n hn => ?_⟩
    cases hn
    exact hlength
  have hcomment : lineText (dbComment ++ [10]) ≠ packageHeader := by decide +kernel
  have hblank : lineText [10] ≠ packageHeader := by decide
  rw [loadInstalled, saveInstalled, fgets, pieces_writeLines hfit, map_append, map_cons,
    map_cons, cons_append, cons_append, nil_append, loadFrom,
    if_neg hcomment, loadFrom, if_neg hblank]
  exact loadFrom_packages hclean habs (by simpa using hlen)

/-! ## What the C reader can find -/

/-- A newline can only be the last byte. -/
def NewlineLast (text : Bytes) : Prop := ∀ l r, text = l ++ 10 :: r → r = []

theorem newlineLast_of_mem_pieces {text piece : Bytes} (h : piece ∈ pieces limit text) :
    NewlineLast piece := by
  rintro l r rfl
  by_contra hr
  have hmem := newline_notMem_dropLast h
  rw [dropLast_append_cons, dropLast_cons_of_ne_nil hr] at hmem
  simp at hmem

theorem NewlineLast.left {l r : Bytes} (h : NewlineLast (l ++ r)) : NewlineLast l := by
  rintro a b rfl
  exact (append_eq_nil_iff.1 (h a (b ++ r) (by simp))).1

theorem NewlineLast.right {l r : Bytes} (h : NewlineLast (l ++ r)) : NewlineLast r := by
  rintro a b rfl
  exact h (l ++ a) b (by simp)

theorem newline_notMem_lineText {piece : Bytes} (h : NewlineLast piece) : 10 ∉ lineText piece := by
  -- the stripped line is a stretch of the piece
  obtain ⟨s, hs⟩ : cut piece <+: piece := takeWhile_prefix _
  obtain ⟨t, ht⟩ := dropWhile_suffix (fun b => b = 32 || b = 9) (l := cut piece)
  obtain ⟨u, hu⟩ : lineText piece <+: (cut piece).dropWhile fun b => b = 32 || b = 9 :=
    rdropWhile_prefix _ _
  have hlast : NewlineLast (lineText piece) := by
    rw [← hs] at h
    have h' := h.left
    rw [← ht] at h'
    have h'' := h'.right
    rw [← hu] at h''
    exact h''.left
  intro hmem
  obtain ⟨l, r, hlr⟩ := append_of_mem hmem
  obtain rfl := hlast l r hlr
  have hne : lineText piece ≠ [] := ne_nil_of_mem hmem
  have hget : (lineText piece).getLast hne = 10 := by simp [hlr]
  have hnot : ¬ (decide ((lineText piece).getLast hne = 10) ||
      decide ((lineText piece).getLast hne = 13)) = true := rdropWhile_last_not _ _ hne
  rw [hget] at hnot
  exact hnot rfl

theorem quoted_eq_some {text value : Bytes} (h : quoted text = some value) :
    34 ∉ value ∧ value = text.takeWhile fun b => b ≠ 34 := by
  rw [quoted] at h
  split_ifs at h
  cases h
  exact ⟨fun hmem => by simpa using mem_takeWhile_imp hmem, rfl⟩

/-- No line spoils a package that is clean and whose files are absolute. -/
theorem loadLine_inv (hline : 10 ∉ line) (h : Clean p ∧ Absolute p) :
    Clean (loadLine p line) ∧ Absolute (loadLine p line) := by
  obtain ⟨hclean, habs⟩ := h
  obtain ⟨hname, hversion, hdescription, hfiles⟩ := clean_iff.1 hclean
  -- what a line sets is printed from a part of it that has no quote
  have hset {rest : Bytes} (hrest : ∀ b ∈ rest, b ∈ line) {set : Bytes → Package}
      (h : ∀ value, value = rest.takeWhile (fun b => decide (b ≠ 34)) →
        (∀ {n : Nat} [NeZero n], 34 ∉ (CStr.print n value).bytes ∧
          10 ∉ (CStr.print n value).bytes) → Clean (set value) ∧ Absolute (set value)) :
      Clean ((quoted rest).elim p set) ∧ Absolute ((quoted rest).elim p set) := by
    rcases hvalue : quoted rest with - | value
    · exact ⟨hclean, habs⟩
    · obtain ⟨hquote, hpart⟩ := quoted_eq_some hvalue
      refine h value hpart ⟨fun hb => hquote (CStr.mem_of_mem_print hb), fun hb => ?_⟩
      have hmem := CStr.mem_of_mem_print hb
      rw [hpart] at hmem
      exact hline (hrest 10 ((takeWhile_sublist _).subset hmem))
  have hkey {key rest : Bytes} (h : afterKey key line = some rest) : ∀ b ∈ rest, b ∈ line := by
    rw [afterKey] at h
    split_ifs at h
    cases h
    exact fun b hb => mem_of_mem_drop hb
  rw [loadLine]
  split
  · next rest hrest =>
    exact hset (hkey hrest) fun value _ hprint =>
      ⟨clean_iff.2 ⟨hprint, hversion, hdescription, hfiles⟩, habs⟩
  · split
    · next rest hrest =>
      exact hset (hkey hrest) fun value _ hprint =>
        ⟨clean_iff.2 ⟨hname, hprint, hdescription, hfiles⟩, habs⟩
    · split
      · next rest hrest =>
        exact hset (hkey hrest) fun value _ hprint =>
          ⟨clean_iff.2 ⟨hname, hversion, hprint, hfiles⟩, habs⟩
      · split_ifs with hfile
        · refine hset (fun b hb => mem_of_mem_drop hb) fun value hvalue hprint => ?_
          have hslash : value.head? = some 47 := by
            obtain ⟨rest, rfl⟩ := hfile
            rw [hvalue]
            rfl
          rw [Package.addFile]
          split_ifs
          · refine ⟨clean_iff.2 ⟨hname, hversion, hdescription, ?_⟩, ?_⟩
            · exact forall_mem_append.2 ⟨hfiles, forall_mem_singleton.2 hprint⟩
            · refine forall_mem_append.2 ⟨habs, forall_mem_singleton.2 ?_⟩
              exact CStr.head?_print hslash (by decide) (by decide)
          · exact ⟨hclean, habs⟩
        · exact ⟨hclean, habs⟩

theorem loadFrom_inv (hlines : ∀ piece ∈ lines, NewlineLast piece)
    (h : ∀ p ∈ done ++ cur.toList, Clean p ∧ Absolute p) :
    ∀ p ∈ loadFrom maxPkgs done cur lines, Clean p ∧ Absolute p := by
  induction lines generalizing done cur with
  | nil => exact h
  | cons piece lines ih =>
    obtain ⟨hpiece, hlines⟩ := forall_mem_cons.1 hlines
    rw [loadFrom]
    split_ifs
    · exact h
    · refine ih hlines (forall_mem_append.2 ⟨h, forall_mem_singleton.2 ?_⟩)
      decide
    · obtain ⟨hdone, hcur⟩ := forall_mem_append.1 h
      refine ih hlines (forall_mem_append.2 ⟨hdone, fun p hp => ?_⟩)
      obtain ⟨q, hq, rfl⟩ := map_eq_some_iff.1 (mem_toList.1 hp)
      exact loadLine_inv (newline_notMem_lineText hpiece) (hcur q (mem_toList.2 hq))

/-- **Whatever is in the file**, no text that `lpkg` reads from it has a quote or a newline. -/
theorem clean_of_mem_loadInstalled {file : Bytes} (h : p ∈ loadInstalled file) :
    Clean p ∧ Absolute p :=
  loadFrom_inv (fun _ hpiece => newlineLast_of_mem_pieces hpiece) (by simp) p h

theorem length_loadFrom (h : (done ++ cur.toList).length ≤ maxPkgs) :
    (loadFrom maxPkgs done cur lines).length ≤ maxPkgs := by
  induction lines generalizing done cur with
  | nil => exact h
  | cons piece lines ih =>
    rw [loadFrom]
    split_ifs with _ hfull
    · exact h
    · refine ih ?_
      rw [length_append]
      exact Nat.not_le.1 hfull
    · refine ih ?_
      rcases cur with - | p
      · exact h
      · simpa using h

theorem length_loadInstalled (file : Bytes) : (loadInstalled file).length ≤ maxDbPkgs :=
  length_loadFrom (Nat.zero_le _)

/-! ## Installing -/

/-- `name_buf`: the name of the package file without its extension. -/
def nameBuf (path : Bytes) : Bytes :=
  let buf := (CStr.print 128 (path.rtakeWhile fun b => b ≠ 47)).bytes
  if 46 ∈ buf then (buf.rdropWhile fun b => b ≠ 46).dropLast else buf

def packageName (path : Bytes) : CStr 64 := .print 64 ((nameBuf path).takeWhile fun b => b ≠ 45)

def packageVersion (path : Bytes) : CStr 32 :=
  if 45 ∈ nameBuf path then .print 32 ((nameBuf path).dropWhile fun b => b ≠ 45).tail
  else .print 32 (utf8 "1.0")

/-- `dest_lpkg`: where a package of the repository is downloaded to. -/
def destLpkg (target : Bytes) : Bytes :=
  (CStr.print 256 (utf8 "/tmp/" ++ (target ++ utf8 ".lpkg"))).bytes

/-- What `get_tar_file_list` enters for a piece of the listing: nothing for a directory. -/
def tarFile (piece : Bytes) : Option (CStr 256) :=
  let line := (cut piece).rdropWhile fun b => b = 10 || b = 13
  if line = [] ∨ line.getLast? = some 47 then none else some (.print 256 (47 :: line))

/-- `get_tar_file_list`, on what `tar -tf` prints. -/
def tarFiles (listing : Bytes) : List (CStr 256) := ((fgets 256 listing).filterMap tarFile).take 256

/-- The entry `install_local_lpkg` makes. -/
def newPackage (path listing : Bytes) : Package where
  name := packageName path
  version := packageVersion path
  description := .print 256 ((packageName path).bytes ++ utf8 " package")
  files := tarFiles listing
  files_le := length_take_le _ _

/-- Where it is entered: in place of a package with the same name, or at the end if there is
room. -/
def enterPackage (db : List Package) (p : Package) : Option (List Package) :=
  match db.findIdx? fun q => q.name = p.name with
  | some i => some (db.set i p)
  | none => if maxDbPkgs ≤ db.length then none else some (db ++ [p])

/-- The databases that installs can build.  Every command reads the file of the one before. -/
inductive Buildable : List Package → Prop
  | empty : Buildable []
  | install {db db' : List Package} {path listing : Bytes} (h : Buildable db)
      (henter : enterPackage db (newPackage path listing) = some db') : Buildable db'
  | reload {db : List Package} (h : Buildable db) : Buildable (loadInstalled (saveInstalled db))

theorem absolute_newPackage (path listing : Bytes) : Absolute (newPackage path listing) := by
  intro file hfile
  obtain ⟨piece, -, hpiece⟩ := mem_filterMap.1 (mem_of_mem_take hfile)
  rw [tarFile] at hpiece
  split_ifs at hpiece
  cases hpiece
  exact CStr.head?_print rfl (by decide) (by decide)

theorem Buildable.inv (h : Buildable db) : (∀ p ∈ db, Absolute p) ∧ db.length ≤ maxDbPkgs := by
  induction h with
  | empty => exact ⟨by simp, Nat.zero_le _⟩
  | @install db db' path listing _ henter ih =>
    rw [enterPackage] at henter
    split at henter
    · cases henter
      refine ⟨fun p hp => ?_, by rw [length_set]; exact ih.2⟩
      rcases mem_or_eq_of_mem_set hp with hp | rfl
      · exact ih.1 p hp
      · exact absolute_newPackage path listing
    · split_ifs at henter with hfull
      cases henter
      refine ⟨forall_mem_append.2
        ⟨ih.1, forall_mem_singleton.2 (absolute_newPackage path listing)⟩, ?_⟩
      rw [length_append]
      exact Nat.not_le.1 hfull
  | reload _ _ => exact ⟨fun p hp => (clean_of_mem_loadInstalled hp).2, length_loadInstalled _⟩

/-- **One round settles a database.**  Whatever the file, what was read from it is read again from
the file that is then written. -/
theorem load_save_load (file : Bytes) :
    loadInstalled (saveInstalled (loadInstalled file)) = loadInstalled file :=
  loadInstalled_saveInstalled (fun _ hp => (clean_of_mem_loadInstalled hp).1)
    (fun _ hp => (clean_of_mem_loadInstalled hp).2) (length_loadInstalled file)

end Lpkg
