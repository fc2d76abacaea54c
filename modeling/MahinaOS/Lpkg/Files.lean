import MahinaOS.Lib.Run
import MahinaOS.Lpkg.Database

/-!
# lpkg: the files of the installed packages

`lpkg install` of a package file unpacks the archive into `/` and enters what `tar -tf` lists as the
files of the package; `lpkg remove` unlinks the files that are entered and takes the package out of
the database (`install_local_lpkg` and `handle_remove` of `lpkg/main.c`).  Every command reads the
database first and writes it back at the end.

A state is the database file and the regular files on disk that came from packages.  What file a
path names is a parameter (`resolve`), so nothing depends on how paths are spelled.  So is what the
other programs do: an installation carries the text that `tar -tf` prints and the regular files that
`tar -xf` leaves and takes away (a link over a regular file takes it away), and a removal the files
whose `unlink` fails.  The state should be *tracked*: the files on disk are the ones that the
database lists.

* **`tracked_iff`**: in a run of commands that succeed, and whose texts have no quote and no
  newline, every state is tracked exactly if every command is *faithful*.  An installation is
  faithful if what it leaves on disk is what it lists, up to files of other packages, and the
  version it replaces has no file that stays and is now owned by none; a removal is faithful if
  `unlink` fails for the files that another package lists and for no others.
* `shared_file_removed`: two packages with a file in common, a version that drops a file, and a
  file that cannot be unlinked.
-/

namespace Lpkg

open CText JsonText Run List Option

/-! ## The commands -/

/-- The database file, and the regular files from packages that are on disk. -/
structure System (α : Type) where
  dbFile : Bytes
  files : List α
  deriving DecidableEq

/-- A command, with what the programs and calls it makes do: the listing of `tar -tf`, the regular
files that `tar -xf` leaves (`written`) and those it replaces by something else (`gone`), and the
files whose `unlink` fails (`stuck`). -/
inductive Command (α : Type) where
  | install (path listing : Bytes) (written gone : List α)
  | remove (name : Bytes) (stuck : List α)
  deriving DecidableEq

/-- The packages without the one of that name. -/
def others (db : List Package) (name : Bytes) : List Package :=
  db.eraseP fun q => q.name.bytes = name

section

variable {α : Type} [DecidableEq α] (resolve : Bytes → α)

/-- The files that the package lists. -/
def Package.owned (p : Package) : List α := p.files.map fun file => resolve file.bytes

/-- The files that the database lists. -/
def ownedBy (db : List Package) : List α := db.flatMap fun p => p.owned resolve

/-- One run of `lpkg install` or `lpkg remove`. -/
def step (s : System α) : Command α → System α
  | .install path listing written gone =>
    let files := s.files.filter (· ∉ gone) ++ written
    match enterPackage (loadInstalled s.dbFile) (newPackage path listing) with
    | some db => ⟨saveInstalled db, files⟩
    -- the archive is already unpacked when the database turns out to be full
    | none => ⟨s.dbFile, files⟩
  | .remove name stuck =>
    match (loadInstalled s.dbFile).find? fun q => q.name.bytes = name with
    | some p =>
      -- a failing `unlink` is reported, and the package leaves the database all the same
      ⟨saveInstalled (others (loadInstalled s.dbFile) name),
        s.files.filter fun x => x ∉ p.owned resolve ∨ x ∈ stuck⟩
    | none => s

def System.empty : System α := ⟨[], []⟩

/-- The files on disk are the ones the database lists. -/
def Tracked (s : System α) : Prop :=
  ∀ x, x ∈ s.files ↔ x ∈ ownedBy resolve (loadInstalled s.dbFile)

/-- The command ends with success: there is room for the package, or it is there. -/
def Succeeds (s : System α) : Command α → Prop
  | .install path listing _ _ =>
    (enterPackage (loadInstalled s.dbFile) (newPackage path listing)).isSome = true
  | .remove name _ => ∃ p ∈ loadInstalled s.dbFile, p.name.bytes = name

/-- No text that is entered has a quote or a newline in it. -/
def PlainTexts : Command α → Prop
  | .install path listing _ _ => Clean (newPackage path listing)
  | .remove _ _ => True

/-- What a command asks of the packages that are there. -/
def Faithful (s : System α) : Command α → Prop
  | .install path listing written gone =>
    let p := newPackage path listing
    let before := ownedBy resolve (loadInstalled s.dbFile)
    let rest := ownedBy resolve (others (loadInstalled s.dbFile) p.name.bytes)
    (∀ x ∈ written, x ∈ p.owned resolve ∨ x ∈ rest) ∧
      (∀ x ∈ p.owned resolve, x ∈ written ∨ x ∈ before ∧ x ∉ gone) ∧
      (∀ x ∈ before, x ∈ gone ∨ x ∈ p.owned resolve ∨ x ∈ rest) ∧
      ∀ x ∈ rest, x ∈ gone → x ∈ written
  | .remove name stuck =>
    ∀ p ∈ (loadInstalled s.dbFile).find? fun q => q.name.bytes = name,
      ∀ x ∈ p.owned resolve,
        x ∈ stuck ↔ x ∈ ownedBy resolve (others (loadInstalled s.dbFile) name)

instance (s : System α) : (cmd : Command α) → Decidable (Succeeds s cmd)
  | .install _ _ _ _ => instDecidableEqBool _ _
  | .remove _ _ => decidableBEx _ _

omit [DecidableEq α] in
instance : (cmd : Command α) → Decidable (PlainTexts cmd)
  | .install _ _ _ _ => inferInstanceAs (Decidable (Clean _))
  | .remove _ _ => instDecidableTrue

instance (s : System α) : (cmd : Command α) → Decidable (Faithful resolve s cmd)
  | .install _ _ _ _ => instDecidableAnd
  | .remove _ _ => decidableForallMem _

/-! ## What a command does to the database -/

omit [DecidableEq α] in
theorem mem_ownedBy {db : List Package} {x : α} :
    x ∈ ownedBy resolve db ↔ ∃ p ∈ db, x ∈ p.owned resolve :=
  mem_flatMap

end

variable {db : List Package} {p : Package}

theorem mem_iff_of_find? {name : Bytes}
    (h : db.find? (fun q => q.name.bytes = name) = some p) (q : Package) :
    q ∈ db ↔ q = p ∨ q ∈ others db name := by
  obtain ⟨hp, as, bs, rfl, has⟩ := find?_eq_some_iff_append.1 h
  have herase : others (as ++ p :: bs) name = as ++ bs := by
    rw [others, eraseP_append_right _ fun q hq => by simpa using has q hq,
      eraseP_cons_of_pos (p := fun q : Package => decide (q.name.bytes = name)) hp]
  rw [herase]
  simp only [mem_append, mem_cons]
  tauto

theorem mem_set_findIdx? {pred : Package → Bool} {i : Nat} (h : db.findIdx? pred = some i)
    (p q : Package) : q ∈ db.set i p ↔ q = p ∨ q ∈ db.eraseP pred := by
  induction db generalizing i with
  | nil => cases h
  | cons a db ih =>
    rw [findIdx?_cons] at h
    split_ifs at h with ha
    · cases h
      rw [set_cons_zero, eraseP_cons_of_pos ha, mem_cons]
    · obtain ⟨j, hj, rfl⟩ := map_eq_some_iff.1 h
      rw [set_cons_succ, eraseP_cons_of_neg ha, mem_cons, mem_cons, ih hj]
      tauto

/-- An installation puts the new package in place of the one of that name. -/
theorem mem_enterPackage_iff {db' : List Package} (h : enterPackage db p = some db') (q : Package) :
    q ∈ db' ↔ q = p ∨ q ∈ others db p.name.bytes := by
  have hsame : (fun q : Package => decide (q.name = p.name)) =
      fun q => decide (q.name.bytes = p.name.bytes) :=
    funext fun q => decide_eq_decide.2 CStr.ext_iff
  rw [enterPackage, hsame] at h
  split at h
  · next i hi =>
    cases h
    exact mem_set_findIdx? hi p q
  · next hnone =>
    split_ifs at h
    cases h
    have herase : others db p.name.bytes = db :=
      eraseP_of_forall_not fun q hq => by simpa using findIdx?_eq_none_iff.1 hnone q hq
    rw [herase, mem_append, mem_singleton, or_comm]

theorem length_enterPackage {db' : List Package} (h : enterPackage db p = some db')
    (hlen : db.length ≤ maxDbPkgs) : db'.length ≤ maxDbPkgs := by
  rw [enterPackage] at h
  split at h
  · cases h
    rwa [length_set]
  · split_ifs at h with hfull
    cases h
    rw [length_append]
    exact Nat.not_le.1 hfull

section

variable {α : Type} [DecidableEq α] {resolve : Bytes → α} {s : System α} {path listing : Bytes}

omit [DecidableEq α] in
/-- The database a successful installation leaves, read by the next command. -/
theorem ownedBy_install {db : List Package} (hclean : Clean (newPackage path listing))
    (henter : enterPackage (loadInstalled s.dbFile) (newPackage path listing) = some db) (x : α) :
    x ∈ ownedBy resolve (loadInstalled (saveInstalled db)) ↔
      x ∈ (newPackage path listing).owned resolve ∨
        x ∈ ownedBy resolve
          (others (loadInstalled s.dbFile) (newPackage path listing).name.bytes) := by
  have hgood : ∀ p ∈ db, Clean p ∧ Absolute p := by
    intro p hp
    rcases (mem_enterPackage_iff henter p).1 hp with rfl | hp
    · exact ⟨hclean, absolute_newPackage path listing⟩
    · exact clean_of_mem_loadInstalled (mem_of_mem_eraseP hp)
  rw [loadInstalled_saveInstalled (fun p hp => (hgood p hp).1) (fun p hp => (hgood p hp).2)
    (length_enterPackage henter (length_loadInstalled _)), mem_ownedBy, mem_ownedBy]
  simp only [mem_enterPackage_iff henter]
  simp

omit [DecidableEq α] in
/-- The database a removal leaves, read by the next command. -/
theorem loadInstalled_others (name : Bytes) :
    loadInstalled (saveInstalled (others (loadInstalled s.dbFile) name)) =
      others (loadInstalled s.dbFile) name := by
  have hgood : ∀ p ∈ others (loadInstalled s.dbFile) name, Clean p ∧ Absolute p := fun p hp =>
    clean_of_mem_loadInstalled (mem_of_mem_eraseP hp)
  exact loadInstalled_saveInstalled (fun p hp => (hgood p hp).1) (fun p hp => (hgood p hp).2)
    ((length_eraseP_le).trans (length_loadInstalled _))

/-! ## Runs -/

theorem tracked_install_iff {written gone : List α} (h : Tracked resolve s)
    (hsucc : Succeeds s (.install path listing written gone))
    (hplain : PlainTexts (.install path listing written gone)) :
    Tracked resolve (step resolve s (.install path listing written gone)) ↔
      Faithful resolve s (.install path listing written gone) := by
  obtain ⟨db, henter⟩ := isSome_iff_exists.1 hsucc
  have hstep : step resolve s (.install path listing written gone) =
      ⟨saveInstalled db, s.files.filter (· ∉ gone) ++ written⟩ := by
    rw [step, henter]
  rw [hstep, Tracked]
  simp only [mem_append, mem_filter, decide_eq_true_eq, h _, ownedBy_install hplain henter]
  constructor
  · intro hx
    refine ⟨fun x hw => (hx x).1 (.inr hw), fun x hp => ((hx x).2 (.inl hp)).symm, ?_, ?_⟩
    · intro x hdb
      rw [or_iff_not_imp_left]
      exact fun hgone => (hx x).1 (.inl ⟨hdb, hgone⟩)
    · intro x hrest hgone
      exact ((hx x).2 (.inr hrest)).resolve_left fun hstays => hstays.2 hgone
  · rintro ⟨hw, hp, hdb, hkept⟩ x
    constructor
    · rintro (⟨hx, hgone⟩ | hx)
      · exact (hdb x hx).resolve_left hgone
      · exact hw x hx
    · rintro (hx | hx)
      · exact (hp x hx).symm
      · obtain ⟨q, hq, hxq⟩ := (mem_ownedBy resolve).1 hx
        have hbefore := (mem_ownedBy resolve).2 ⟨q, mem_of_mem_eraseP hq, hxq⟩
        by_cases hgone : x ∈ gone
        · exact .inr (hkept x hx hgone)
        · exact .inl ⟨hbefore, hgone⟩

theorem tracked_remove_iff {name : Bytes} {stuck : List α} (h : Tracked resolve s)
    (hsucc : Succeeds s (.remove name stuck)) :
    Tracked resolve (step resolve s (.remove name stuck)) ↔
      Faithful resolve s (.remove name stuck) := by
  obtain ⟨p, hfind⟩ :
      ∃ p, (loadInstalled s.dbFile).find? (fun q => q.name.bytes = name) = some p := by
    obtain ⟨q, hq, hname⟩ := hsucc
    exact isSome_iff_exists.1 (find?_isSome.2 ⟨q, hq, by simpa using hname⟩)
  have hstep : step resolve s (.remove name stuck) =
      ⟨saveInstalled (others (loadInstalled s.dbFile) name),
        s.files.filter fun x => x ∉ p.owned resolve ∨ x ∈ stuck⟩ := by
    rw [step, hfind]
  have howned (x : α) : x ∈ ownedBy resolve (loadInstalled s.dbFile) ↔ x ∈ p.owned resolve ∨
      x ∈ ownedBy resolve (others (loadInstalled s.dbFile) name) := by
    rw [mem_ownedBy, mem_ownedBy]
    simp only [mem_iff_of_find? hfind]
    simp
  rw [hstep, Tracked, Faithful, hfind, loadInstalled_others]
  simp only [mem_filter, h _, howned, decide_eq_true_eq, mem_some_iff, forall_eq']
  constructor
  · intro hx x hp
    constructor
    · exact fun hstuck => (hx x).1 ⟨.inl hp, .inr hstuck⟩
    · exact fun hrest => ((hx x).2 hrest).2.resolve_left fun hnot => hnot hp
  · intro hshared x
    constructor
    · rintro ⟨hp | hrest, hnot | hstuck⟩
      · exact absurd hp hnot
      · exact (hshared x hp).1 hstuck
      · exact hrest
      · exact hrest
    · intro hrest
      refine ⟨.inr hrest, or_iff_not_imp_left.2 fun hp => ?_⟩
      exact (hshared x (not_not.1 hp)).2 hrest

/-- **The files on disk are the listed ones** in every state of a run exactly if every command is
faithful. -/
theorem tracked_iff {cmds : List (Command α)}
    (h : Along (step resolve) (fun s cmd => Succeeds s cmd ∧ PlainTexts cmd) System.empty cmds) :
    (∀ pre, pre <+: cmds → Tracked resolve (run (step resolve) System.empty pre)) ↔
      Along (step resolve) (Faithful resolve) System.empty cmds := by
  refine forall_prefix_iff (fun s cmd hs hcmd => ?_) (fun x => .rfl) h
  cases cmd with
  | install path listing written gone => exact tracked_install_iff hs hcmd.1 hcmd.2
  | remove name stuck => exact tracked_remove_iff hs hcmd.1

end

/-- The installation of an archive of regular files. -/
def installOf (path : String) (names : List String) : Command Bytes :=
  .install (utf8 path) (names.flatMap fun name => utf8 name ++ [10])
    (names.map fun name => 47 :: utf8 name) []

/-- Two packages with files of their own, of which one is removed. -/
def separateRun : List (Command Bytes) :=
  [installOf "/tmp/htop-3.2.lpkg" ["usr/bin/htop"], installOf "/tmp/nano-8.lpkg" ["usr/bin/nano"],
    .remove (utf8 "htop") []]

theorem tracked_separateRun :
    (run (step id) System.empty separateRun).files = [utf8 "/usr/bin/nano"] ∧
      ∀ pre, pre <+: separateRun → Tracked id (run (step id) System.empty pre) :=
  ⟨by decide +kernel, (tracked_iff (by decide +kernel)).2 (by decide +kernel)⟩

/-- Two packages share a file, and removing one takes it from the other; a version without a file of
the version before leaves that file behind; and so does a removal that cannot unlink it. -/
theorem shared_file_removed :
    let shared := run (step id) System.empty
      [installOf "/tmp/htop-3.2.lpkg" ["usr/share/icon"],
        installOf "/tmp/nano-8.lpkg" ["usr/share/icon"], .remove (utf8 "htop") []]
    let upgraded := run (step id) System.empty
      [installOf "/tmp/htop-3.2.lpkg" ["usr/bin/htop", "usr/bin/old"],
        installOf "/tmp/htop-3.3.lpkg" ["usr/bin/htop"]]
    let removed := run (step id) System.empty
      [installOf "/tmp/htop-3.2.lpkg" ["usr/bin/htop"],
        .remove (utf8 "htop") [utf8 "/usr/bin/htop"]]
    shared.files = [] ∧ ownedBy id (loadInstalled shared.dbFile) = [utf8 "/usr/share/icon"] ∧
      utf8 "/usr/bin/old" ∈ upgraded.files ∧
      ownedBy id (loadInstalled upgraded.dbFile) = [utf8 "/usr/bin/htop"] ∧
      removed.files = [utf8 "/usr/bin/htop"] ∧ loadInstalled removed.dbFile = [] := by
  decide +kernel

end Lpkg
