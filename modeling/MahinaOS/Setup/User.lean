import MahinaOS.Lib.Faulty
import MahinaOS.Lib.Text

/-!
# The account the installer creates

`create_user` of the installer (`luna-setup-rs/src/engine/user.rs`) hashes the password, appends one
line each to `etc/passwd`, `etc/shadow` and `etc/group` of the new system, and makes the home
directory.  The lines are put together with `format!`, from the texts as they were entered; the
screen before (`screens/user_info.rs`) asks only that the user name is not blank and the password
not empty.

The readers of these files take them line by line and split each line at its colons (`entries`).
What should come of the call is one more entry in each file, with the given name and the ids 1000,
and still no name twice (`AddsUser`).

* **`createUser_adds_iff`**: when a call that returns does this.
* `createUser_spec`: a call that returns has appended the three lines, and a failure of `crypt`
  leaves the files as they were.
* `createUser_takes_root`: two names the wizard accepts that go wrong.
-/

namespace Setup

open Faulty List

/-! ## The call -/

inductive UserError where
  | fileWriteFailed (msg : String)
  | cryptFailed
  deriving DecidableEq, Repr

/-- The account files, under `etc/`. -/
inductive AccountFile where
  | passwd
  | shadow
  | group
  deriving DecidableEq, Repr

/-- What `create_user` changes under the target directory: the account files, where an absent one is
empty, and the directories under `home/`. -/
structure Target where
  file : AccountFile → List Char
  homes : List (List Char)

/-- The calls that can fail on their own. -/
inductive Syscall where
  | openAppend
  | writeAll
  | createDirAll
  deriving DecidableEq, Repr

abbrev UserSetup := Prog Syscall UserError Target

def syscall (k : Syscall) : UserSetup Unit := Faulty.syscall .fileWriteFailed k

/-- The NUL character, which a C string cannot hold. -/
def nul : Char := Char.ofNat 0

def salt : List Char := "$6$mahinasalt$".toList

/-- `hash_password`, over the `crypt` of the C library. -/
def hashPassword (crypt : List Char → List Char → Option (List Char)) (password : List Char) :
    Option (List Char) :=
  -- `CString::new` fails on a NUL
  if nul ∈ password then none else crypt password salt

/-- `passwd_entry`, without its newline. -/
def passwdEntry (username fullName : List Char) : List Char :=
  username ++ ":x:1000:1000:".toList ++ fullName ++ ",,,:/home/".toList ++ username ++
    ":/bin/luna-shell".toList

/-- `shadow_entry`, without its newline. -/
def shadowEntry (username hash : List Char) : List Char :=
  username ++ ":".toList ++ hash ++ ":19500:0:99999:7:::".toList

/-- `group_entry`, without its newline. -/
def groupEntry (username : List Char) : List Char := username ++ ":x:1000:".toList

/-- The line for each of the files. -/
def entryLine (username fullName hash : List Char) : AccountFile → List Char
  | .passwd => passwdEntry username fullName
  | .shadow => shadowEntry username hash
  | .group => groupEntry username

def Target.append (t : Target) (f : AccountFile) (text : List Char) : Target :=
  { t with file := Function.update t.file f (t.file f ++ text) }

/-- Open a file for appending and write to it. -/
def appendEntry (f : AccountFile) (text : List Char) : UserSetup Unit := do
  syscall .openAppend
  syscall .writeAll
  update fun t => t.append f text

/-- `create_user`. -/
def createUser (crypt : List Char → List Char → Option (List Char))
    (username fullName password : List Char) : UserSetup Unit := do
  let hash ← orThrow (hashPassword crypt password) .cryptFailed
  appendEntry .passwd (passwdEntry username fullName ++ ['\n'])
  appendEntry .shadow (shadowEntry username hash ++ ['\n'])
  appendEntry .group (groupEntry username ++ ['\n'])
  syscall .createDirAll
  update fun t => { t with homes := t.homes ++ [username] }

/-- What the wizard asks of its fields before it goes on (`UserInfoScreen::on_click`). -/
def wizardAccepts (username password : List Char) : Bool :=
  !(Text.trim username).isEmpty && !password.isEmpty

variable {f : AccountFile} {username line : List Char}

theorem appendEntry_spec {f₀ : Faults Syscall} {text : List Char} {t : Target}
    {Q : Unit → Target → Prop} {E : UserError → Target → Prop} (hQ : Q () (t.append f text))
    (hE : ∀ msg, E (.fileWriteFailed msg) t) : Spec f₀ (appendEntry f text) t Q E :=
  .bind (.syscall (.bind (.syscall (.update hQ) fun _ => hE)) fun _ => hE)

/-- A call that returns has appended its line to every file; one that fails to hash the password has
changed nothing. -/
theorem createUser_spec (crypt : List Char → List Char → Option (List Char))
    (username fullName password : List Char) (t : Target) (f₀ : Faults Syscall) :
    Spec f₀ (createUser crypt username fullName password) t
      (fun _ t' => ∃ hash, hashPassword crypt password = some hash ∧
        ∀ f, t'.file f = t.file f ++ (entryLine username fullName hash f ++ ['\n']))
      (fun e t' => e = .cryptFailed → t' = t) := by
  refine .bind (.orThrow (fun hash hhash => ?_) fun _ _ => rfl)
  refine .bind (appendEntry_spec ?_ fun msg h => nomatch h)
  refine .bind (appendEntry_spec ?_ fun msg h => nomatch h)
  refine .bind (appendEntry_spec ?_ fun msg h => nomatch h)
  refine .bind (.syscall (.update ⟨hash, hhash, ?_⟩) fun _ msg h => nomatch h)
  intro f
  cases f <;> simp [Target.append, entryLine]

/-! ## Reading the files -/

/-- The entries of an account file: its lines, split at the colons. -/
def entries (content : List Char) : List (List (List Char)) :=
  (Text.lines content).map (splitOn ':')

def nameOf (entry : List (List Char)) : List Char := entry.headD []

def names (content : List Char) : List (List Char) := (entries content).map nameOf

/-- A field that holds a number. -/
def idAt (i : Nat) (entry : List (List Char)) : Option UInt32 := entry[i]?.bind Text.parseU32

/-- The ids of an entry, where its file has them. -/
def HasIds (f : AccountFile) (id : UInt32) (entry : List (List Char)) : Prop :=
  match f with
  | .passwd => idAt 2 entry = some id ∧ idAt 3 entry = some id
  | .shadow => True
  | .group => idAt 2 entry = some id

/-- From `before` to `after`, the file `f` has got one more entry, for `username` and with the ids
1000, and no name occurs twice in it. -/
structure AddsUser (username : List Char) (f : AccountFile) (before after : List Char) : Prop where
  entry : ∃ e, entries after = entries before ++ [e] ∧ nameOf e = username ∧ HasIds f 1000 e
  nodup : (names after).Nodup

theorem entries_append {before : List Char} (h : Text.Terminated before) (text : List Char) :
    entries (before ++ text) = entries before ++ entries text := by
  rw [entries, Text.lines_append h, map_append, entries, entries]

theorem entries_line (h : '\n' ∉ line) (hr : line.getLast? ≠ some '\r') :
    entries (line ++ ['\n']) = [line.splitOn ':'] := by
  rw [entries, Text.lines_cons h hr]
  rfl

/-- A line with newlines in it is read as several entries. -/
theorem newline_notMem_of_entries {e : List (List Char)} (h : entries (line ++ ['\n']) = [e]) :
    '\n' ∉ line := by
  have hlen := congrArg length h
  rw [entries, length_map, Text.length_lines_concat, length_singleton] at hlen
  exact count_eq_zero.1 (by omega)

/-- When one line appended to a file adds a user to it. -/
theorem addsUser_append_iff {before : List Char} (hterm : Text.Terminated before)
    (hr : line.getLast? ≠ some '\r') :
    AddsUser username f before (before ++ (line ++ ['\n'])) ↔
      '\n' ∉ line ∧ nameOf (line.splitOn ':') = username ∧ HasIds f 1000 (line.splitOn ':') ∧
        (names before).Nodup ∧ username ∉ names before := by
  have hnames (h : '\n' ∉ line) (hname : nameOf (line.splitOn ':') = username) :
      (names (before ++ (line ++ ['\n']))).Nodup ↔
        (names before).Nodup ∧ username ∉ names before := by
    rw [names, entries_append hterm, entries_line h hr, map_append, map_singleton, hname,
      nodup_append]
    simp [names]
  constructor
  · rintro ⟨⟨e, he, hname, hids⟩, hnodup⟩
    rw [entries_append hterm, append_cancel_left_eq] at he
    have hline := newline_notMem_of_entries he
    rw [entries_line hline hr, singleton_inj] at he
    subst he
    exact ⟨hline, hname, hids, (hnames hline hname).1 hnodup⟩
  · rintro ⟨hline, hname, hids, hnodup⟩
    refine ⟨⟨_, ?_, hname, hids⟩, (hnames hline hname).2 hnodup⟩
    rw [entries_append hterm, entries_line hline hr]

/-! ## What the lines are read as -/

theorem getLast?_entryLine (username fullName hash : List Char) (f : AccountFile) :
    (entryLine username fullName hash f).getLast? ≠ some '\r' := by
  have hend (text suffix : List Char) (c : Char) (hc : c ≠ '\r') (h : suffix.getLast? = some c) :
      (text ++ suffix).getLast? ≠ some '\r' := by
    rw [getLast?_append, h]
    exact fun heq => hc (Option.some.inj heq)
  cases f with
  | passwd => exact hend _ _ 'l' (by decide) (by decide)
  | shadow | group => exact hend _ _ ':' (by decide) (by decide)

/-- A newline can get into the lines only with one of the texts. -/
theorem newline_notMem_entryLine {fullName hash : List Char} :
    (∀ f, '\n' ∉ entryLine username fullName hash f) ↔
      '\n' ∉ username ∧ '\n' ∉ fullName ∧ '\n' ∉ hash := by
  have hids : '\n' ∉ ":x:1000:1000:".toList := by decide
  have hhome : '\n' ∉ ",,,:/home/".toList := by decide
  have hshell : '\n' ∉ ":/bin/luna-shell".toList := by decide
  have hcolon : '\n' ∉ ":".toList := by decide
  have hdays : '\n' ∉ ":19500:0:99999:7:::".toList := by decide
  have hgid : '\n' ∉ ":x:1000:".toList := by decide
  constructor
  · intro h
    have hpasswd : '\n' ∉ passwdEntry username fullName := h .passwd
    have hshadow : '\n' ∉ shadowEntry username hash := h .shadow
    simp only [passwdEntry, mem_append, not_or] at hpasswd
    simp only [shadowEntry, mem_append, not_or] at hshadow
    exact ⟨hpasswd.1.2, hpasswd.1.1.1.2, hshadow.1.2⟩
  · rintro ⟨hu, hn, hh⟩ f
    cases f with
    | passwd =>
      simp only [entryLine, passwdEntry, mem_append, not_or]
      exact ⟨⟨⟨⟨⟨hu, hids⟩, hn⟩, hhome⟩, hu⟩, hshell⟩
    | shadow =>
      simp only [entryLine, shadowEntry, mem_append, not_or]
      exact ⟨⟨⟨hu, hcolon⟩, hh⟩, hdays⟩
    | group =>
      simp only [entryLine, groupEntry, mem_append, not_or]
      exact ⟨hu, hgid⟩

theorem entryLine_eq_append (username fullName hash : List Char) (f : AccountFile) :
    ∃ rest, entryLine username fullName hash f = username ++ ':' :: rest := by
  have hids : ":x:1000:1000:".toList = ':' :: "x:1000:1000:".toList := by decide
  have hcolon : ":".toList = [':'] := by decide
  have hgid : ":x:1000:".toList = ':' :: "x:1000:".toList := by decide
  cases f with
  | passwd =>
    simp only [entryLine, passwdEntry, hids, append_assoc]
    exact ⟨_, rfl⟩
  | shadow =>
    simp only [entryLine, shadowEntry, hcolon, append_assoc]
    exact ⟨_, rfl⟩
  | group =>
    exact ⟨_, rfl⟩

theorem nameOf_entryLine_iff {fullName hash : List Char} :
    nameOf ((entryLine username fullName hash f).splitOn ':') = username ↔ ':' ∉ username := by
  obtain ⟨rest, hrest⟩ := entryLine_eq_append username fullName hash f
  rw [hrest]
  exact Text.headD_splitOn_append_iff

/-- The ids are in their place if the name before them has no colon. -/
theorem hasIds_entryLine (h : ':' ∉ username) (fullName hash : List Char) (f : AccountFile) :
    HasIds f 1000 ((entryLine username fullName hash f).splitOn ':') := by
  have hx : ':' ∉ "x".toList := by decide
  have hid : ':' ∉ "1000".toList := by decide
  have hparse : Text.parseU32 "1000".toList = some 1000 := by decide
  cases f with
  | passwd =>
    have hids : ":x:1000:1000:".toList =
        ':' :: ("x".toList ++ ':' :: ("1000".toList ++ ':' :: ("1000".toList ++ [':']))) := by
      decide
    simp only [entryLine, passwdEntry, hids, append_assoc, cons_append]
    rw [splitOn_append_cons_self_of_not_mem h, splitOn_append_cons_self_of_not_mem hx,
      splitOn_append_cons_self_of_not_mem hid, splitOn_append_cons_self_of_not_mem hid]
    exact ⟨hparse, hparse⟩
  | shadow => trivial
  | group =>
    have hgid : ":x:1000:".toList = ':' :: ("x".toList ++ ':' :: ("1000".toList ++ [':'])) := by
      decide
    rw [entryLine, groupEntry, hgid, splitOn_append_cons_self_of_not_mem h,
      splitOn_append_cons_self_of_not_mem hx, splitOn_append_cons_self_of_not_mem hid]
    exact hparse

/-- The user a call that returns should add is there, in every file and next to all that was there
before, exactly if the texts have none of the format's separators where they matter and the name is
new. -/
theorem createUser_adds_iff {crypt : List Char → List Char → Option (List Char)}
    {username fullName password : List Char} {t t' : Target} {faults : Faults Syscall}
    (hterm : ∀ f, Text.Terminated (t.file f))
    (hret : exec (createUser crypt username fullName password) t faults = (.ok (), t')) :
    (∀ f, AddsUser username f (t.file f) (t'.file f)) ↔
      ':' ∉ username ∧ '\n' ∉ username ∧ '\n' ∉ fullName ∧
        (∀ hash, hashPassword crypt password = some hash → '\n' ∉ hash) ∧
        ∀ f, (names (t.file f)).Nodup ∧ username ∉ names (t.file f) := by
  have hspec := (createUser_spec crypt username fullName password t faults).exec
  rw [hret] at hspec
  obtain ⟨hash, hhash, hfile⟩ := hspec
  have hadds (f : AccountFile) : AddsUser username f (t.file f) (t'.file f) ↔
        '\n' ∉ entryLine username fullName hash f ∧ ':' ∉ username ∧
          (names (t.file f)).Nodup ∧ username ∉ names (t.file f) := by
    rw [hfile f, addsUser_append_iff (hterm f) (getLast?_entryLine username fullName hash f),
      nameOf_entryLine_iff]
    constructor
    · rintro ⟨hline, hname, -, hnew⟩
      exact ⟨hline, hname, hnew⟩
    · rintro ⟨hline, hname, hnew⟩
      exact ⟨hline, hname, hasIds_entryLine hname fullName hash f, hnew⟩
  have hhashes : (∀ hash, hashPassword crypt password = some hash → '\n' ∉ hash) ↔ '\n' ∉ hash := by
    rw [hhash]
    simp
  rw [forall_congr' hadds, forall_and, newline_notMem_entryLine, hhashes]
  constructor
  · rintro ⟨⟨hu, hn, hh⟩, hrest⟩
    exact ⟨(hrest .passwd).1, hu, hn, hh, fun f => (hrest f).2⟩
  · rintro ⟨hcolon, hu, hn, hh, hnew⟩
    exact ⟨⟨hu, hn, hh⟩, fun f => ⟨hcolon, hnew f⟩⟩

def freshTarget : Target where
  file
    | .passwd => "root:x:0:0:root:/root:/bin/sh\n".toList
    | .shadow => "root:*:19500:0:99999:7:::\n".toList
    | .group => "root:x:0:\n".toList
  homes := []

/-- A call on a fresh system in which no system call fails and `crypt` has some answer. -/
def createOnFresh (username : List Char) : Except UserError Unit × Target :=
  exec (createUser (fun _ salt => some (salt ++ ['h'])) username username "pw".toList) freshTarget
    fun _ => []

/-- A plain new name is added as it should be. -/
theorem createUser_adds_ann :
    wizardAccepts "ann".toList "pw".toList = true ∧
      ∀ f, AddsUser "ann".toList f (freshTarget.file f)
        ((createOnFresh "ann".toList).2.file f) := by
  refine ⟨by decide +kernel, (createUser_adds_iff (fun f => ?_)
    (show createOnFresh "ann".toList = (.ok (), (createOnFresh "ann".toList).2) from rfl)).2 ?_⟩
  · cases f <;> decide +kernel
  · refine ⟨by decide, by decide, by decide, fun hash h => ?_, fun f => ?_⟩
    · obtain rfl : salt ++ ['h'] = hash := Option.some.inj h
      decide
    · cases f <;> decide +kernel

/-- Two names that the wizard accepts: `root` is then there twice, and what follows a colon in the
name takes the place of the ids. -/
theorem createUser_takes_root :
    wizardAccepts "root".toList "pw".toList = true ∧
      (createOnFresh "root".toList).1.isOk = true ∧
      names ((createOnFresh "root".toList).2.file .passwd) = ["root".toList, "root".toList] ∧
      wizardAccepts "ann:x:0:0".toList "pw".toList = true ∧
      (createOnFresh "ann:x:0:0".toList).1.isOk = true ∧
      (entries ((createOnFresh "ann:x:0:0".toList).2.file .passwd)).map
          (fun e => (nameOf e, idAt 2 e, idAt 3 e)) =
        [("root".toList, some 0, some 0), ("ann".toList, some 0, some 0)] := by
  decide +kernel

end Setup
