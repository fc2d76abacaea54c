import Mathlib.Data.List.Nodup
import MahinaOS.Control.Boot

/-!
# The boot menu

What the boot loader makes of `limine.conf`: a line that begins with a slash starts an entry, and
the lines after it are the options of the entry.  The kernel gets the words of the option `cmdline`.

* `menu_text`: the file has one entry in the menu for each entry of the configuration.
* **`menu_generate`**: whom the menu of a generated file has entries for, what each of them boots,
  and which is the first.
-/

namespace Control

open List

structure MenuEntry where
  title : List Char
  options : List (List Char)

namespace MenuEntry

def option (e : MenuEntry) (key : List Char) : Option (List Char) :=
  e.options.findSome? (·.dropPrefix? key)

def args (e : MenuEntry) : List (List Char) :=
  ((e.option "\tcmdline: ".toList).map (·.splitOn ' ')).getD []

def arg (e : MenuEntry) (key : List Char) : Option (List Char) :=
  e.args.findSome? (·.dropPrefix? key)

end MenuEntry

/-- The entries that some lines make up. -/
def menuOf : List (List Char) → List MenuEntry
  | [] => []
  | l :: ls =>
    if l.head? = some '/' then
      ⟨l.tail, ls.takeWhile fun l => l.head? ≠ some '/'⟩ :: menuOf ls
    else menuOf ls

/-- The menu of a file; blank lines mean nothing. -/
def menu (file : List Char) : List MenuEntry := menuOf ((file.splitOn '\n').filter (· ≠ []))

/-! ## The lines of the file -/

namespace LimineConf

variable (conf : LimineConf)

def cmdline (e : LimineEntry) : List (List Char) :=
  ["root=LABEL=MAHINA_ROOT".toList,
    "rootflags=".toList ++ ("ro,subvol=@generations/".toList ++ Text.decimal e.id ++
      "/rootfs".toList),
    "console=tty0".toList, "console=ttyS0".toList,
    "mahina.generation=".toList ++ Text.decimal e.id] ++
  if e.trial then ["mahina.candidate=1".toList, "panic=10".toList, "panic_on_oops=1".toList]
  else ["panic=10".toList]

def title (e : LimineEntry) : List Char :=
  "MahinaOS Gen #".toList ++ Text.decimal e.id ++ ' ' :: e.badge.toList

def options (e : LimineEntry) : List (List Char) :=
  ["\tprotocol: linux".toList, "\tpath: ".toList ++ conf.kernelPath.toList,
    "\tmodule_path: ".toList ++ conf.initramfsPath.toList,
    "\tcmdline: ".toList ++ [' '].intercalate (cmdline e)]

def entryLines (e : LimineEntry) : List (List Char) := ('/' :: title e) :: conf.options e

def headerLines : List (List Char) :=
  ["# MahinaOS Bootloader Configuration".toList,
    "# Automatically generated by mahina-control-d — DO NOT HAND EDIT".toList,
    "timeout: ".toList ++ Text.decimal conf.timeoutSecs]

theorem toList_toString (n : UInt32) : (toString n).toList = Text.decimal n := by
  rw [Text.decimal]
  exact Nat.toList_repr

theorem toList_pieces :
    "/MahinaOS Gen #".toList = '/' :: "MahinaOS Gen #".toList ∧
    "\tprotocol: linux\n".toList = "\tprotocol: linux".toList ++ ['\n'] ∧
    "\tcmdline: root=LABEL=MAHINA_ROOT rootflags=ro,subvol=@generations/".toList =
      "\tcmdline: ".toList ++ ("root=LABEL=MAHINA_ROOT".toList ++
        ' ' :: ("rootflags=".toList ++ "ro,subvol=@generations/".toList)) ∧
    "/rootfs console=tty0 console=ttyS0 mahina.generation=".toList =
      "/rootfs".toList ++ ' ' :: ("console=tty0".toList ++ ' ' :: ("console=ttyS0".toList ++
        ' ' :: "mahina.generation=".toList)) ∧
    " mahina.candidate=1 panic=10 panic_on_oops=1\n\n".toList =
      ' ' :: ("mahina.candidate=1".toList ++ ' ' :: ("panic=10".toList ++
        ' ' :: ("panic_on_oops=1".toList ++ ['\n', '\n']))) ∧
    " panic=10\n\n".toList = ' ' :: ("panic=10".toList ++ ['\n', '\n']) := by
  decide +kernel

theorem toList_entryText (e : LimineEntry) :
    (conf.entryText e).toList = (conf.entryLines e ++ [[]]).flatMap (· ++ ['\n']) := by
  obtain ⟨htitle, hprotocol, hroot, hconsole, htrial, hpanic⟩ := toList_pieces
  have hblank : " ".toList = [' '] := by decide
  have hnewline : "\n".toList = ['\n'] := by decide
  unfold entryText entryLines options title cmdline
  simp only [String.toList_append, toList_toString, htitle, hprotocol, hroot, hconsole, hblank,
    hnewline, apply_ite String.toList, htrial, hpanic]
  generalize "MahinaOS Gen #".toList = a, "\tprotocol: linux".toList = b,
    "\tcmdline: ".toList = c, "root=LABEL=MAHINA_ROOT".toList = d, "rootflags=".toList = f,
    "ro,subvol=@generations/".toList = g, "/rootfs".toList = h, "console=tty0".toList = i,
    "console=ttyS0".toList = j, "mahina.generation=".toList = k, "mahina.candidate=1".toList = l,
    "panic=10".toList = m, "panic_on_oops=1".toList = n, "\tpath: ".toList = o,
    "\tmodule_path: ".toList = p
  rcases e.trial with - | -
  · simp [intercalate]
  · simp [intercalate]

theorem toList_text :
    conf.text.toList = (conf.headerLines ++ [] :: conf.entries.flatMap fun e =>
      conf.entryLines e ++ [[]]).flatMap (· ++ ['\n']) := by
  have hfirst : "# MahinaOS Bootloader Configuration\n".toList =
    "# MahinaOS Bootloader Configuration".toList ++ ['\n'] := by decide +kernel
  have hsecond : "# Automatically generated by mahina-control-d — DO NOT HAND EDIT\n".toList =
    "# Automatically generated by mahina-control-d — DO NOT HAND EDIT".toList ++ ['\n'] := by
    decide +kernel
  have hblank : "\n\n".toList = ['\n', '\n'] := by decide
  have hentries : (String.join (conf.entries.map conf.entryText)).toList =
      (conf.entries.flatMap fun e => conf.entryLines e ++ [[]]).flatMap (· ++ ['\n']) := by
    rw [String.toList_join, flatMap_map, flatMap_assoc]
    simp only [toList_entryText]
  unfold text headerLines
  simp only [String.toList_append, hfirst, hsecond, hblank, toList_toString, hentries]
  generalize "# MahinaOS Bootloader Configuration".toList = a,
    "# Automatically generated by mahina-control-d — DO NOT HAND EDIT".toList = b,
    "timeout: ".toList = c
  simp

/-! ## The menu of the file -/

theorem notMem_decimal {c : Char} (hc : c.isDigit = false) (n : UInt32) : c ∉ Text.decimal n :=
  fun h => Bool.false_ne_true (hc.symm.trans (Text.isDigit_of_mem_decimal h))

variable {e : LimineEntry}

/-- The arguments of the kernel are words of one line. -/
theorem notMem_cmdline {c : Char} (hc : c = ' ' ∨ c = '\n') {w : List Char} (hw : w ∈ cmdline e) :
    c ∉ w := by
  have hid : c ∉ Text.decimal e.id := notMem_decimal (by rcases hc with rfl | rfl <;> decide) e.id
  have hlast : ∀ v ∈ ["mahina.candidate=1".toList, "panic=10".toList, "panic_on_oops=1".toList],
      c ∉ v := by rcases hc with rfl | rfl <;> decide +kernel
  have hfixed : ∀ v ∈ ["root=LABEL=MAHINA_ROOT".toList, "console=tty0".toList,
      "console=ttyS0".toList, "rootflags=".toList, "ro,subvol=@generations/".toList,
      "/rootfs".toList, "mahina.generation=".toList], c ∉ v := by
    rcases hc with rfl | rfl <;> decide +kernel
  simp only [forall_mem_cons] at hfixed hlast
  rw [cmdline, mem_append] at hw
  rcases hw with hw | hw
  · simp only [mem_cons, not_mem_nil, or_false] at hw
    rcases hw with rfl | rfl | rfl | rfl | rfl
    · exact hfixed.1
    · simp only [mem_append, not_or]
      exact ⟨hfixed.2.2.2.1, ⟨hfixed.2.2.2.2.1, hid⟩, hfixed.2.2.2.2.2.1⟩
    · exact hfixed.2.1
    · exact hfixed.2.2.1
    · simp only [mem_append, not_or]
      exact ⟨hfixed.2.2.2.2.2.2.1, hid⟩
  · split at hw
    · simp only [mem_cons, not_mem_nil, or_false] at hw
      rcases hw with rfl | rfl | rfl
      exacts [hlast.1, hlast.2.1, hlast.2.2.1]
    · rw [mem_singleton.1 hw]
      exact hlast.2.1

/-- The badge of an entry and the paths are part of one line. -/
structure OneLine : Prop where
  kernel : '\n' ∉ conf.kernelPath.toList
  initramfs : '\n' ∉ conf.initramfsPath.toList
  badge : ∀ e ∈ conf.entries, '\n' ∉ e.badge.toList

variable {conf} {l : List Char}

theorem OneLine.entryLines (h : conf.OneLine) (he : e ∈ conf.entries) (hl : l ∈ conf.entryLines e) :
    '\n' ∉ l := by
  have hfixed : ∀ v ∈ ["MahinaOS Gen #".toList, "\tprotocol: linux".toList, "\tpath: ".toList,
    "\tmodule_path: ".toList, "\tcmdline: ".toList], '\n' ∉ v := by decide +kernel
  simp only [forall_mem_cons] at hfixed
  obtain ⟨htitle, hprotocol, hpath, hmodule, hcmdline, -⟩ := hfixed
  unfold LimineConf.entryLines options at hl
  simp only [mem_cons, not_mem_nil, or_false] at hl
  rcases hl with rfl | rfl | rfl | rfl | rfl
  · unfold title
    simp only [mem_append, mem_cons, not_or]
    exact ⟨by decide, ⟨htitle, notMem_decimal (by decide) e.id⟩, by decide, h.badge e he⟩
  · exact hprotocol
  · rw [mem_append, not_or]
    exact ⟨hpath, h.kernel⟩
  · rw [mem_append, not_or]
    exact ⟨hmodule, h.initramfs⟩
  · rw [mem_append, not_or]
    exact ⟨hcmdline, Text.notMem_intercalate (by decide) fun w hw => notMem_cmdline (.inr rfl) hw⟩

theorem newline_notMem_headerLines (hl : l ∈ conf.headerLines) : '\n' ∉ l := by
  unfold headerLines at hl
  simp only [mem_cons, not_mem_nil, or_false] at hl
  rcases hl with rfl | rfl | rfl
  · decide +kernel
  · decide +kernel
  · rw [mem_append, not_or]
    exact ⟨by decide, notMem_decimal (by decide) _⟩

/-- The lines of the file that are not blank. -/
theorem lines_text (h : conf.OneLine) :
    (conf.text.toList.splitOn '\n').filter (· ≠ []) =
      conf.headerLines ++ conf.entries.flatMap conf.entryLines := by
  have hheader : conf.headerLines.filter (· ≠ []) = conf.headerLines := rfl
  have hentry (e : LimineEntry) :
      (conf.entryLines e ++ [[]]).filter (· ≠ []) = conf.entryLines e := rfl
  rw [toList_text, Text.splitOn_terminated]
  · simp only [filter_append, filter_cons, filter_flatMap, hheader, hentry]
    simp
  · intro l hl
    rcases mem_append.1 hl with hl | hl
    · exact newline_notMem_headerLines hl
    · rcases mem_cons.1 hl with rfl | hl
      · exact not_mem_nil
      · obtain ⟨e, he, hl⟩ := mem_flatMap.1 hl
        rcases mem_append.1 hl with hl | hl
        · exact h.entryLines he hl
        · rw [mem_singleton.1 hl]
          exact not_mem_nil

/-- The entry of the menu that an entry of the configuration becomes. -/
def menuEntry (conf : LimineConf) (e : LimineEntry) : MenuEntry := ⟨title e, conf.options e⟩

theorem head?_options (hl : l ∈ conf.options e) : l.head? ≠ some '/' := by
  unfold options at hl
  simp only [mem_cons, not_mem_nil, or_false] at hl
  rcases hl with rfl | rfl | rfl | rfl
  all_goals exact fun h => absurd (Option.some.inj h) (by decide)

end LimineConf

theorem menuOf_skip {ls : List (List Char)} (h : ∀ l ∈ ls, l.head? ≠ some '/')
    (rest : List (List Char)) : menuOf (ls ++ rest) = menuOf rest := by
  induction ls with
  | nil => rfl
  | cons l ls ih =>
    obtain ⟨hl, hls⟩ := forall_mem_cons.1 h
    rw [cons_append, menuOf, if_neg hl, ih hls]

/-- An entry ends where the next one starts. -/
theorem menuOf_entry {t : List Char} {options rest : List (List Char)}
    (h : ∀ l ∈ options, l.head? ≠ some '/') (hrest : ∀ l ∈ rest.head?, l.head? = some '/') :
    menuOf (('/' :: t) :: (options ++ rest)) = ⟨t, options⟩ :: menuOf rest := by
  have hstop : rest.takeWhile (fun l => l.head? ≠ some '/') = [] := by
    rcases rest with - | ⟨l, rest⟩
    · rfl
    · have hl : l.head? = some '/' := hrest l rfl
      rw [takeWhile_cons, if_neg (by simpa using hl)]
  rw [menuOf, menuOf_skip h,
    takeWhile_append_of_pos fun l hl => decide_eq_true (h l hl), hstop, append_nil]
  rfl

namespace LimineConf

variable {conf : LimineConf}

theorem menuOf_entries (entries : List LimineEntry) :
    menuOf (entries.flatMap conf.entryLines) = entries.map conf.menuEntry := by
  induction entries with
  | nil => rfl
  | cons e entries ih =>
    rw [flatMap_cons, entryLines, cons_append,
      menuOf_entry (fun l => head?_options) fun l hl => ?_, ih]
    · rfl
    · rcases entries with - | ⟨e', entries⟩
      · cases hl
      · cases hl
        rfl

/-- **The menu has the entries of the configuration.** -/
theorem menu_text (h : conf.OneLine) : menu conf.text.toList = conf.entries.map conf.menuEntry := by
  have hheader : ∀ l ∈ conf.headerLines, l.head? ≠ some '/' := by
    intro l hl
    unfold headerLines at hl
    simp only [mem_cons, not_mem_nil, or_false] at hl
    rcases hl with rfl | rfl | rfl
    all_goals exact fun h => absurd (Option.some.inj h) (by decide)
  rw [menu, lines_text h, menuOf_skip hheader, menuOf_entries]

/-! ## The arguments of an entry -/

theorem args_menuEntry (e : LimineEntry) : (conf.menuEntry e).args = cmdline e := by
  have hoption : (conf.menuEntry e).option "\tcmdline: ".toList =
      some ([' '].intercalate (cmdline e)) := rfl
  have hne : cmdline e ≠ [] := cons_ne_nil _ _
  rw [MenuEntry.args, hoption, Option.map_some, Option.getD_some,
    splitOn_intercalate ' ' (fun w hw => notMem_cmdline (.inl rfl) hw) hne]

theorem rootflags_menuEntry (e : LimineEntry) :
    (conf.menuEntry e).arg "rootflags=".toList =
      some ("ro,subvol=@generations/".toList ++ Text.decimal e.id ++ "/rootfs".toList) := by
  rw [MenuEntry.arg, args_menuEntry]
  rfl

theorem generation_menuEntry (e : LimineEntry) :
    (conf.menuEntry e).arg "mahina.generation=".toList = some (Text.decimal e.id) := by
  have hroot : "root=LABEL=MAHINA_ROOT".toList.dropPrefix? "mahina.generation=".toList = none := by
    decide
  have hflags (flags : List Char) :
    ("rootflags=".toList ++ flags).dropPrefix? "mahina.generation=".toList = none := rfl
  have htty : "console=tty0".toList.dropPrefix? "mahina.generation=".toList = none := by decide
  have httyS : "console=ttyS0".toList.dropPrefix? "mahina.generation=".toList = none := by decide
  have hid (id : List Char) :
      ("mahina.generation=".toList ++ id).dropPrefix? "mahina.generation=".toList = some id :=
    dropPrefix?_append_of_beq id (beq_self_eq_true _)
  rw [MenuEntry.arg, args_menuEntry]
  unfold cmdline
  simp only [cons_append, findSome?_cons, hroot, hflags, htty, httyS, hid]

theorem candidate_menuEntry (e : LimineEntry) :
    "mahina.candidate=1".toList ∈ (conf.menuEntry e).args ↔ e.trial = true := by
  have hflags (flags : List Char) : "mahina.candidate=1".toList ≠ "rootflags=".toList ++ flags :=
    fun h => absurd (Option.some.inj (congrArg head? h)) (by decide)
  have hid (id : List Char) : "mahina.candidate=1".toList ≠ "mahina.generation=".toList ++ id := by
    intro h
    have htake : ("mahina.generation=".toList ++ id).take 8 = "mahina.g".toList := rfl
    rw [← h] at htake
    exact absurd htake (by decide)
  have hroot : "mahina.candidate=1".toList ≠ "root=LABEL=MAHINA_ROOT".toList := by decide
  have htty : "mahina.candidate=1".toList ≠ "console=tty0".toList := by decide
  have httyS : "mahina.candidate=1".toList ≠ "console=ttyS0".toList := by decide
  have hpanic : "mahina.candidate=1".toList ≠ "panic=10".toList := by decide
  rw [args_menuEntry]
  unfold cmdline
  simp only [mem_append, mem_cons, hroot, hflags, htty, httyS, hid, not_mem_nil, false_or]
  split
  · next htrial => exact iff_of_true mem_cons_self htrial
  · next htrial =>
    exact iff_of_false (fun h => hpanic (mem_singleton.1 h)) htrial

end LimineConf

/-! ## The generations of the menu -/

namespace LimineConfigGenerator

variable (gen : LimineConfigGenerator) {reg : GenerationRegistry} {candidateId : Option UInt32}

def otherIds (reg : GenerationRegistry) (candidateId : Option UInt32) : List UInt32 :=
  (if candidateId ≠ some reg.currentGenerationId then [reg.currentGenerationId] else []) ++
    (if reg.fallbackGenerationId ≠ reg.currentGenerationId ∧
        candidateId ≠ some reg.fallbackGenerationId then [reg.fallbackGenerationId] else []) ++
    (reg.generations.filter (retained reg candidateId)).map (·.id)

theorem map_id_generate (hcand : ∀ c ∈ candidateId, c ∈ reg.ids) :
    (gen.generate reg candidateId).entries.map (fun e => (e.id, e.trial)) =
      candidateId.toList.map (·, true) ++ (otherIds reg candidateId).map (·, false) := by
  have hfirst : (candidateEntries reg candidateId).map (fun e => (e.id, e.trial)) =
      candidateId.toList.map (·, true) := by
    rcases candidateId with - | c
    · rfl
    · obtain ⟨g, hg⟩ := Option.isSome_iff_exists.1
        (GenerationRegistry.getSummary_isSome.2 (hcand c rfl))
      have hid : g.id = c := (GenerationRegistry.mem_of_getSummary hg).2
      simp [candidateEntries, hg, hid]
  have hcurrent : (currentEntries reg candidateId).map (fun e => (e.id, e.trial)) =
      (if candidateId ≠ some reg.currentGenerationId then [reg.currentGenerationId] else []).map
        (·, false) := by
    rw [currentEntries]
    split_ifs <;> rfl
  have hfallback : (fallbackEntries reg candidateId).map (fun e => (e.id, e.trial)) =
      (if reg.fallbackGenerationId ≠ reg.currentGenerationId ∧
        candidateId ≠ some reg.fallbackGenerationId then [reg.fallbackGenerationId] else []).map
          (·, false) := by
    rw [fallbackEntries]
    split_ifs <;> rfl
  simp only [generate, otherIds, map_append, hfirst, hcurrent, hfallback, retainedEntries,
    map_map, append_assoc]
  rfl

theorem nodup_otherIds (hids : reg.ids.Nodup) : (otherIds reg candidateId).Nodup := by
  have hretained : ((reg.generations.filter (retained reg candidateId)).map (·.id)).Nodup :=
    hids.sublist (filter_sublist.map _)
  have hother : ∀ g ∈ reg.generations.filter (retained reg candidateId),
      g.id ≠ reg.currentGenerationId ∧ g.id ≠ reg.fallbackGenerationId := by
    intro g hg
    have hkept := (mem_filter.1 hg).2
    simp only [retained, Bool.and_eq_true, Bool.not_eq_true', Bool.or_eq_false_iff,
      decide_eq_false_iff_not] at hkept
    exact ⟨hkept.1.1.1, hkept.1.1.2⟩
  rw [otherIds]
  refine .append (.append ?_ ?_ ?_) hretained ?_
  · split_ifs <;> simp
  · split_ifs <;> simp
  · rw [disjoint_left]
    intro id hcurrent hfallback
    split_ifs at hcurrent hfallback with h₁ h₂ <;> simp_all
  · rw [disjoint_left]
    intro id hfirst hlast
    obtain ⟨g, hg, rfl⟩ := mem_map.1 hlast
    obtain ⟨hcurrent, hfallback⟩ := hother g hg
    rcases mem_append.1 hfirst with hfirst | hfirst
    · split_ifs at hfirst <;> simp_all
    · split_ifs at hfirst <;> simp_all

theorem mem_otherIds {id : UInt32} :
    id ∈ otherIds reg candidateId ↔ candidateId ≠ some id ∧
      (id = reg.currentGenerationId ∨ id = reg.fallbackGenerationId ∨
        ∃ g ∈ reg.generations, g.id = id ∧ (g.status = .healthy ∨ g.status = .superseded)) := by
  rw [otherIds]
  simp only [mem_append, mem_ite_nil_right, mem_singleton, mem_map, mem_filter, retained,
    Bool.and_eq_true, Bool.not_eq_true', Bool.or_eq_false_iff, Bool.or_eq_true,
    decide_eq_false_iff_not, decide_eq_true_eq]
  constructor
  · rintro ((⟨hcand, rfl⟩ | ⟨⟨-, hcand⟩, rfl⟩) | ⟨g, ⟨hg, ⟨-, hcand⟩, hstatus⟩, rfl⟩)
    · exact ⟨hcand, .inl rfl⟩
    · exact ⟨hcand, .inr (.inl rfl)⟩
    · exact ⟨hcand, .inr (.inr ⟨g, hg, rfl, hstatus⟩)⟩
  · rintro ⟨hcand, hid⟩
    by_cases hcur : id = reg.currentGenerationId
    · exact .inl (.inl ⟨hcur ▸ hcand, hcur⟩)
    · by_cases hfb : id = reg.fallbackGenerationId
      · exact .inl (.inr ⟨⟨hfb ▸ hcur, hfb ▸ hcand⟩, hfb⟩)
      · obtain ⟨g, hg, rfl, hstatus⟩ := (hid.resolve_left hcur).resolve_left hfb
        exact .inr ⟨g, ⟨hg, ⟨⟨hcur, hfb⟩, hcand⟩, hstatus⟩, rfl⟩

theorem newline_notMem_badge {e : LimineEntry}
    (he : e ∈ (gen.generate reg candidateId).entries) : '\n' ∉ e.badge.toList := by
  have hbadges : ∀ badge ∈ ["[CANDIDATE TRIAL - TRIES 3]", "[DEFAULT HEALTHY]",
      "[CURRENT HEALTHY]", "[FALLBACK HEALTHY]", "[PINNED]", "[BACKUP]"],
      '\n' ∉ badge.toList := by decide +kernel
  simp only [forall_mem_cons] at hbadges
  obtain ⟨hcandidate, hdefault, hcurrent, hfallback, hpinned, hbackup, -⟩ := hbadges
  simp only [generate, mem_append] at he
  rcases he with ((he | he) | he) | he
  · rw [candidateEntries] at he
    split at he
    · rw [mem_singleton.1 he]
      exact hcandidate
    · cases he
  · rw [currentEntries] at he
    split at he
    · rw [mem_singleton.1 he]
      dsimp only
      split
      · exact hdefault
      · exact hcurrent
    · cases he
  · rw [fallbackEntries] at he
    split at he
    · rw [mem_singleton.1 he]
      exact hfallback
    · cases he
  · obtain ⟨g, -, rfl⟩ := mem_map.1 he
    dsimp only
    split
    · exact hpinned
    · exact hbackup

/-- **The boot menu.**  For every registry with distinct ids and every candidate that is registered,
or none, the menu of the generated file has entries for some generations `ids`, in this order:

* `ids` are the candidate, the current generation, the fallback and the healthy and superseded
  ones, each once;
* the first is the candidate if there is one, and the current generation otherwise;
* the kernel of each entry gets the generation's own id and its own subvolume;
* it is told that it is on trial in the candidate's entry and in no other. -/
theorem menu_generate (hkernel : '\n' ∉ gen.kernelPath.toList)
    (hinitramfs : '\n' ∉ gen.initramfsPath.toList) (hids : reg.ids.Nodup)
    (hcand : ∀ c ∈ candidateId, c ∈ reg.ids) :
    ∃ ids : List UInt32, ids.Nodup ∧
      (∀ id, id ∈ ids ↔ candidateId = some id ∨ id = reg.currentGenerationId ∨
        id = reg.fallbackGenerationId ∨
        ∃ g ∈ reg.generations, g.id = id ∧ (g.status = .healthy ∨ g.status = .superseded)) ∧
      ids.head? = some (candidateId.getD reg.currentGenerationId) ∧
      (menu (gen.generate reg candidateId).text.toList).map
        (·.arg "mahina.generation=".toList) = ids.map (fun id => some (Text.decimal id)) ∧
      (menu (gen.generate reg candidateId).text.toList).map (·.arg "rootflags=".toList) =
        ids.map (fun id => some
          ("ro,subvol=@generations/".toList ++ Text.decimal id ++ "/rootfs".toList)) ∧
      (menu (gen.generate reg candidateId).text.toList).map
        (fun e => decide ("mahina.candidate=1".toList ∈ e.args)) =
        ids.map (fun id => decide (candidateId = some id)) := by
  have hline : (gen.generate reg candidateId).OneLine :=
    ⟨hkernel, hinitramfs, fun e he => newline_notMem_badge gen he⟩
  -- what is read off an entry by its id and whether it is on trial
  have hmap {α : Type} {F : MenuEntry → α} (G : UInt32 → Bool → α)
      (hF : ∀ e, F ((gen.generate reg candidateId).menuEntry e) = G e.id e.trial) :
      (menu (gen.generate reg candidateId).text.toList).map F =
        candidateId.toList.map (G · true) ++
          (otherIds reg candidateId).map (G · false) := by
    have hentries := congrArg (map fun p => G p.1 p.2) (map_id_generate gen hcand)
    rw [map_map, map_append, map_map, map_map] at hentries
    rw [LimineConf.menu_text hline, map_map]
    exact (map_congr_left fun e _ => hF e).trans hentries
  refine ⟨candidateId.toList ++ otherIds reg candidateId, ?_, fun id => ?_, ?_, ?_, ?_, ?_⟩
  · refine .append ?_ (nodup_otherIds hids) ?_
    · rcases candidateId with - | c <;> simp
    · rw [disjoint_left]
      intro id hfirst hother
      exact (mem_otherIds.1 hother).1 (Option.mem_toList.1 hfirst)
  · rw [mem_append, Option.mem_toList, mem_otherIds]
    by_cases hfirst : candidateId = some id
    · exact iff_of_true (.inl hfirst) (.inl hfirst)
    · exact or_congr_right (and_iff_right hfirst)
  · rcases candidateId with - | c
    · simp [otherIds]
    · rfl
  · rw [map_append]
    exact hmap (fun id _ => some (Text.decimal id)) LimineConf.generation_menuEntry
  · rw [map_append]
    exact hmap (fun id _ => some ("ro,subvol=@generations/".toList ++ Text.decimal id ++
      "/rootfs".toList)) LimineConf.rootflags_menuEntry
  · have hother : (otherIds reg candidateId).map (fun id => decide (candidateId = some id)) =
        (otherIds reg candidateId).map fun _ => false :=
      map_congr_left fun id hid => decide_eq_false (mem_otherIds.1 hid).1
    have hfirst : candidateId.toList.map (fun id => decide (candidateId = some id)) =
        candidateId.toList.map fun _ => true :=
      map_congr_left fun id hid => decide_eq_true (Option.mem_toList.1 hid)
    rw [map_append, hfirst, hother]
    exact hmap (fun _ b => b) fun e => by
      simp only [LimineConf.candidate_menuEntry, Bool.decide_eq_true]

def trialRegistry : GenerationRegistry :=
  { GenerationRegistry.baseline with
    generations := GenerationRegistry.baseline.generations ++
      [{ id := 102
         parentId := some 101
         description := "Test Candidate"
         createdAtEpochSecs := 2000
         status := .candidate
         isPinned := false
         isCurrent := false
         isFallback := false }] }

/-- The menu of a trial: the candidate, and the baseline, which is current and the fallback. -/
theorem menu_generate_trial :
    ∃ ids : List UInt32, (∀ id, id ∈ ids ↔ some 102 = some id ∨ id = 101 ∨ id = 101 ∨
        ∃ g ∈ trialRegistry.generations, g.id = id ∧
          (g.status = .healthy ∨ g.status = .superseded)) ∧
      ids.head? = some 102 ∧
      (menu (({} : LimineConfigGenerator).generate trialRegistry (some 102)).text.toList).map
        (·.arg "mahina.generation=".toList) = ids.map fun id => some (Text.decimal id) := by
  have hids : trialRegistry.ids.Nodup := by decide
  have hcand : ∀ c ∈ some (102 : UInt32), c ∈ trialRegistry.ids := by
    intro c hc
    obtain rfl := Option.some.inj hc
    decide
  obtain ⟨ids, -, hmem, hhead, hgeneration, -⟩ := menu_generate ({} : LimineConfigGenerator)
    (by decide +kernel) (by decide +kernel) hids hcand
  exact ⟨ids, hmem, hhead, hgeneration⟩

end LimineConfigGenerator

end Control
