import MahinaOS.Lib.Text

/-!
# Generations and the boot state

The records of the control plane's state store (`mahina-control/src/state.rs`): generation
manifests, the generation registry with its per-generation summaries, and the transactional boot
state, which is kept on disk as a small text record.

* `GenerationRegistry.baseline` is the registry of a freshly installed system: generation 101 is
  both the current and the fallback generation.
* `BootState.toRecord` and `BootState.parse` write and read the boot-state file.
* **`BootState.parse_toRecord`** says that every boot state whose boot id is one trimmed line
  survives the round trip through the file, and **`BootState.parse_toRecord_iff`** that no other
  one does: whatever the file holds, the boot id read from it is such a line.

Ids are `u32`; text that goes through a file is a list of characters.
-/

namespace Control

open List

/-! ## Errors and peers -/

/-- `ControlError` of `error.rs`. -/
inductive ControlError where
  | permissionDenied (reason : String)
  | peerCredFailed (reason : String)
  | tokenExpired
  | tokenInvalid (reason : String)
  | notFound (resource : String)
  | invalidParameter (param reason : String)
  | io (msg : String)
  | serialization (msg : String)
  | internal (msg : String)
  deriving DecidableEq, Repr

/-- The kernel's credentials of the process at the other end of a socket (`auth.rs`). -/
structure PeerCredentials where
  pid : Int32
  uid : UInt32
  gid : UInt32
  deriving DecidableEq, Repr

/-! ## Generations -/

def defaultBaselineGenId : UInt32 := 101
def defaultRetentionQuota : Nat := 5
def defaultMaxBootAttempts : UInt32 := 3

inductive GenerationStatus where
  | staged | candidate | booted | healthy | superseded | failed | archived | pruned
  deriving DecidableEq, Repr

/-- The `Display` text of a status, which goes into the commit digest. -/
def GenerationStatus.display : GenerationStatus → String
  | staged => "STAGED"
  | candidate => "CANDIDATE"
  | booted => "BOOTED"
  | healthy => "HEALTHY"
  | superseded => "SUPERSEDED"
  | failed => "FAILED"
  | archived => "ARCHIVED"
  | pruned => "PRUNED"

/-- The `Debug` text of a status, which goes into error messages. -/
def GenerationStatus.debug : GenerationStatus → String
  | staged => "Staged"
  | candidate => "Candidate"
  | booted => "Booted"
  | healthy => "Healthy"
  | superseded => "Superseded"
  | failed => "Failed"
  | archived => "Archived"
  | pruned => "Pruned"

structure GenerationManifest where
  id : UInt32
  parentId : Option UInt32
  description : String
  createdAtEpochSecs : UInt64
  kernelVersion : String
  status : GenerationStatus
  btrfsTreeRootId : UInt64
  isPinned : Bool
  commitDigestSha256 : String
  deriving DecidableEq, Repr

/-- The commit digest of a manifest's fields; `digestHex` is the hexadecimal SHA-256 digest. -/
def computeDigest (digestHex : String → String) (id : UInt32) (parentId : Option UInt32)
    (description : String) (createdAtEpochSecs : UInt64) (kernelVersion : String)
    (status : GenerationStatus) (btrfsTreeRootId : UInt64) (isPinned : Bool)
    (packageManifest kernelSha256 initramfsSha256 : String) : String :=
  let parentStr := match parentId with
    | some p => toString p
    | none => "none"
  digestHex <|
    "id:" ++ toString id ++ "|parent:" ++ parentStr ++ "|desc:" ++ description ++
    "|time:" ++ toString createdAtEpochSecs ++ "|kernel:" ++ kernelVersion ++
    "|status:" ++ status.display ++ "|btrfs_tree:" ++ toString btrfsTreeRootId ++
    "|pinned:" ++ toString isPinned ++ "|pkg_digest:" ++ digestHex packageManifest ++
    "|k_hash:" ++ kernelSha256 ++ "|initrd_hash:" ++ initramfsSha256

/-- The digest is that of the fields the manifest has now. -/
def GenerationManifest.verifyDigest (man : GenerationManifest) (digestHex : String → String)
    (packageManifest kernelSha256 initramfsSha256 : String) : Bool :=
  let expected := computeDigest digestHex man.id man.parentId man.description
    man.createdAtEpochSecs man.kernelVersion man.status man.btrfsTreeRootId man.isPinned
    packageManifest kernelSha256 initramfsSha256
  man.commitDigestSha256 = expected

theorem GenerationStatus.display_inj {st st' : GenerationStatus} (h : st.display = st'.display) :
    st = st' := by
  cases st <;> cases st' <;> first | rfl | exact absurd h (by decide)

theorem GenerationStatus.bar_notMem_display (st : GenerationStatus) : '|' ∉ st.display.toList := by
  cases st <;> decide

/-- A digest without collisions tells a status and a pin from any other. -/
theorem computeDigest_inj {digestHex : String → String} (hinj : Function.Injective digestHex)
    {id : UInt32} {parentId : Option UInt32} {description : String} {createdAtEpochSecs : UInt64}
    {kernelVersion : String} {status status' : GenerationStatus} {btrfsTreeRootId : UInt64}
    {isPinned isPinned' : Bool} {packageManifest kernelSha256 initramfsSha256 : String} :
    computeDigest digestHex id parentId description createdAtEpochSecs kernelVersion status
        btrfsTreeRootId isPinned packageManifest kernelSha256 initramfsSha256 =
      computeDigest digestHex id parentId description createdAtEpochSecs kernelVersion status'
        btrfsTreeRootId isPinned' packageManifest kernelSha256 initramfsSha256 ↔
    status = status' ∧ isPinned = isPinned' := by
  constructor
  · intro h
    have htext := congrArg String.toList (hinj h)
    have hbar : "|btrfs_tree:".toList = '|' :: "btrfs_tree:".toList := rfl
    simp only [String.toList_append, append_assoc, append_cancel_left_eq, hbar,
      cons_append] at htext
    -- the status ends at the next bar, and then the pin is all that is left to compare
    have hsplit := congrArg (Text.splitFirst '|') htext
    rw [Text.splitFirst_append status.bar_notMem_display,
      Text.splitFirst_append status'.bar_notMem_display, Prod.mk.injEq, Option.some.injEq] at hsplit
    obtain ⟨hstatus, hpin⟩ := hsplit
    rw [append_cancel_left_eq, append_cancel_left_eq, append_cancel_left_eq,
      append_cancel_right_eq] at hpin
    refine ⟨GenerationStatus.display_inj (String.toList_inj.1 hstatus), ?_⟩
    cases isPinned <;> cases isPinned' <;> first | rfl | exact absurd hpin (by decide)
  · rintro ⟨rfl, rfl⟩
    rfl

structure GenerationSummary where
  id : UInt32
  parentId : Option UInt32
  description : String
  createdAtEpochSecs : UInt64
  status : GenerationStatus
  isPinned : Bool
  isCurrent : Bool
  isFallback : Bool
  deriving DecidableEq, Repr

structure GenerationRegistry where
  currentGenerationId : UInt32
  fallbackGenerationId : UInt32
  nextGenerationId : UInt32
  retentionQuota : Nat
  pinnedGenerations : List UInt32
  generations : List GenerationSummary
  deriving DecidableEq, Repr

namespace GenerationRegistry

def baseline : GenerationRegistry where
  currentGenerationId := defaultBaselineGenId
  fallbackGenerationId := defaultBaselineGenId
  nextGenerationId := defaultBaselineGenId + 1
  retentionQuota := defaultRetentionQuota
  pinnedGenerations := [defaultBaselineGenId]
  generations := [{
    id := defaultBaselineGenId
    parentId := none
    description := "MahinaOS Baseline System Generation"
    createdAtEpochSecs := 1788739200
    status := .healthy
    isPinned := true
    isCurrent := true
    isFallback := true }]

def getSummary (reg : GenerationRegistry) (id : UInt32) : Option GenerationSummary :=
  reg.generations.find? (·.id = id)

def isPinned (reg : GenerationRegistry) (id : UInt32) : Bool := reg.pinnedGenerations.contains id

def ids (reg : GenerationRegistry) : List UInt32 := reg.generations.map (·.id)

variable {reg : GenerationRegistry}

theorem getSummary_isSome {id : UInt32} : (reg.getSummary id).isSome = true ↔ id ∈ reg.ids := by
  simp [getSummary, ids]

theorem mem_of_getSummary {id : UInt32} {g : GenerationSummary} (h : reg.getSummary id = some g) :
    g ∈ reg.generations ∧ g.id = id :=
  ⟨mem_of_find?_eq_some h, by simpa using find?_some h⟩

end GenerationRegistry

/-- The manifest `init_if_needed` writes for the baseline generation. -/
def baselineManifest (digestHex : String → String) : GenerationManifest where
  id := defaultBaselineGenId
  parentId := none
  description := "MahinaOS Baseline System Generation"
  createdAtEpochSecs := 1788739200
  kernelVersion := "Linux 6.6-mahina"
  status := .healthy
  btrfsTreeRootId := 100
  isPinned := true
  commitDigestSha256 := computeDigest digestHex defaultBaselineGenId none
    "MahinaOS Baseline System Generation" 1788739200 "Linux 6.6-mahina" .healthy 100 true "[]"
    "0000000000000000000000000000000000000000000000000000000000000000"
    "0000000000000000000000000000000000000000000000000000000000000000"

/-! ## The boot state -/

inductive BootStage where
  | normalBoot | candidateTrial | failedRollback
  deriving DecidableEq, Repr

inductive BootHealthStatus where
  | pending | healthy | failed
  deriving DecidableEq, Repr

structure BootState where
  generationId : UInt32
  bootAttempts : UInt32
  maxAttempts : UInt32
  bootId : String
  stage : BootStage
  fallbackGenerationId : UInt32
  healthStatus : BootHealthStatus
  deriving DecidableEq, Repr

namespace BootState

def new (generationId fallbackId : UInt32) : BootState where
  generationId := generationId
  bootAttempts := 0
  maxAttempts := defaultMaxBootAttempts
  bootId := "boot-init"
  stage := .normalBoot
  fallbackGenerationId := fallbackId
  healthStatus := .healthy

def candidateTrial (candidateId fallbackId : UInt32) (bootId : String) : BootState where
  generationId := candidateId
  bootAttempts := 0
  maxAttempts := defaultMaxBootAttempts
  bootId := bootId
  stage := .candidateTrial
  fallbackGenerationId := fallbackId
  healthStatus := .pending

def stageStr : BootStage → String
  | .normalBoot => "NORMAL_BOOT"
  | .candidateTrial => "CANDIDATE_TRIAL"
  | .failedRollback => "FAILED_ROLLBACK"

def healthStr : BootHealthStatus → String
  | .pending => "PENDING"
  | .healthy => "HEALTHY"
  | .failed => "FAILED"

/-- One `KEY=value` line of the record, with its newline. -/
def field (kv : String × List Char) : List Char := kv.1.toList ++ '=' :: (kv.2 ++ ['\n'])

/-- The comment line at the head of the record. -/
def recordHeader : List Char :=
  "# MahinaOS Transactional Boot State - Managed by mahina-control-d".toList

/-- The keys of the record with their values, in the order they are written. -/
def fields (s : BootState) : List (String × List Char) :=
  [("GENERATION_ID", Text.decimal s.generationId),
   ("BOOT_ATTEMPTS", Text.decimal s.bootAttempts),
   ("MAX_ATTEMPTS", Text.decimal s.maxAttempts),
   ("BOOT_ID", s.bootId.toList),
   ("STAGE", (stageStr s.stage).toList),
   ("FALLBACK_GENERATION_ID", Text.decimal s.fallbackGenerationId),
   ("HEALTH_STATUS", (healthStr s.healthStatus).toList)]

def toRecord (s : BootState) : List Char := recordHeader ++ '\n' :: s.fields.flatMap field

/-- The local variables of the parser's loop. -/
structure Partial where
  genId : Option UInt32 := none
  attempts : Option UInt32 := none
  maxAttempts : Option UInt32 := none
  bootId : Option String := none
  stage : Option BootStage := none
  fallbackId : Option UInt32 := none
  health : Option BootHealthStatus := none
  deriving DecidableEq

def parseStage (val : List Char) : Option BootStage :=
  if val = "NORMAL_BOOT".toList then some .normalBoot
  else if val = "CANDIDATE_TRIAL".toList then some .candidateTrial
  else if val = "FAILED_ROLLBACK".toList then some .failedRollback
  else none

def parseHealth (val : List Char) : Option BootHealthStatus :=
  if val = "PENDING".toList then some .pending
  else if val = "HEALTHY".toList then some .healthy
  else if val = "FAILED".toList then some .failed
  else none

/-- What the parser's loop does with one key and its value. -/
def setField (p : Partial) (key : String) (val : List Char) : Partial :=
  match key with
  | "GENERATION_ID" => { p with genId := Text.parseU32 val }
  | "BOOT_ATTEMPTS" => { p with attempts := Text.parseU32 val }
  | "MAX_ATTEMPTS" => { p with maxAttempts := Text.parseU32 val }
  | "BOOT_ID" => { p with bootId := some (String.ofList val) }
  | "STAGE" => { p with stage := parseStage val }
  | "FALLBACK_GENERATION_ID" => { p with fallbackId := Text.parseU32 val }
  | "HEALTH_STATUS" => { p with health := parseHealth val }
  | _ => p

/-- The body of the parser's loop: blank lines and comments are skipped. -/
def parseLine (p : Partial) (line : List Char) : Partial :=
  let line := Text.trim line
  if line = [] ∨ line.head? = some '#' then p
  else
    let parts := Text.splitFirst '=' line
    setField p (String.ofList (Text.trim parts.1)) (Text.trim (parts.2.getD []))

def finish (p : Partial) : Except ControlError BootState :=
  match p.genId with
  | none => .error (.invalidParameter "GENERATION_ID" "Missing GENERATION_ID in boot-state")
  | some generationId => .ok {
      generationId := generationId
      bootAttempts := p.attempts.getD 0
      maxAttempts := p.maxAttempts.getD defaultMaxBootAttempts
      bootId := p.bootId.getD "unknown"
      stage := p.stage.getD .normalBoot
      fallbackGenerationId := p.fallbackId.getD defaultBaselineGenId
      healthStatus := p.health.getD .healthy }

def parse (content : List Char) : Except ControlError BootState :=
  finish ((Text.lines content).foldl parseLine {})

/-! ### Reading a record back -/

/-- A value that survives being a field of the record: one line with no outer white space. -/
def LineValue (v : List Char) : Prop := '\n' ∉ v ∧ Text.Trimmed v

instance (v : List Char) : Decidable (LineValue v) := inferInstanceAs (Decidable (_ ∧ _))

/-- A key of the record: non-empty, no comment sign, separator, newline or outer white space. -/
def Key (k : List Char) : Prop :=
  k ≠ [] ∧ k.head? ≠ some '#' ∧ '=' ∉ k ∧ '\n' ∉ k ∧ Text.Trimmed k

instance (k : List Char) : Decidable (Key k) := inferInstanceAs (Decidable (_ ∧ _))

theorem trimmed_line {k v : List Char} (hk : Key k) (hv : Text.Trimmed v) :
    Text.Trimmed (k ++ '=' :: v) := by
  rintro c (hc | hc)
  · rw [head?_append_of_ne_nil _ hk.1] at hc
    exact hk.2.2.2.2 c (.inl hc)
  · rw [getLast?_append_cons, getLast?_cons, Option.some.injEq] at hc
    rcases hl : v.getLast? with - | d
    · rw [hl] at hc
      subst hc
      decide
    · rw [hl] at hc
      exact hv c (.inr (hl.trans (congrArg some hc)))

theorem lines_field {kv : String × List Char} (hk : Key kv.1.toList) (hv : LineValue kv.2)
    (rest : List Char) :
    Text.lines (field kv ++ rest) = (kv.1.toList ++ '=' :: kv.2) :: Text.lines rest := by
  have hnl : '\n' ∉ kv.1.toList ++ '=' :: kv.2 := by
    simp only [mem_append, mem_cons, not_or]
    exact ⟨hk.2.2.2.1, by decide, hv.1⟩
  have hcr : (kv.1.toList ++ '=' :: kv.2).getLast? ≠ some '\r' := fun h => by
    have hws := trimmed_line hk hv.2 '\r' (.inr h)
    exact absurd hws (by decide)
  rw [← Text.lines_cons hnl hcr]
  simp [field]

theorem parseLine_line {k v : List Char} (hk : Key k) (hv : Text.Trimmed v) (p : Partial) :
    parseLine p (k ++ '=' :: v) = setField p (String.ofList k) v := by
  have hne : ¬(k ++ '=' :: v = [] ∨ (k ++ '=' :: v).head? = some '#') := by
    rw [head?_append_of_ne_nil _ hk.1]
    simp [hk.2.1]
  simp only [parseLine]
  rw [Text.trim_eq_self (trimmed_line hk hv), if_neg hne, Text.splitFirst_append hk.2.2.1]
  simp only [Option.getD_some]
  rw [Text.trim_eq_self hk.2.2.2.2, Text.trim_eq_self hv]

theorem lineValue_of_forall {v : List Char} (h : ∀ c ∈ v, Text.isWhitespace c = false) :
    LineValue v :=
  ⟨fun hn => absurd (h _ hn) (by decide), Text.trimmed_of_forall h⟩

theorem lineValue_decimal (n : UInt32) : LineValue (Text.decimal n) :=
  lineValue_of_forall fun _ hc => Text.isWhitespace_of_isDigit (Text.isDigit_of_mem_decimal hc)

/-- The boot ids the lifecycle makes up: a word followed by a generation id. -/
theorem lineValue_append_toString {w : String}
    (hw : w.toList.all (!Text.isWhitespace ·) = true) (n : UInt32) :
    LineValue (w ++ toString n).toList := by
  have hn : (toString n).toList = Text.decimal n := Nat.toList_repr
  rw [String.toList_append, hn]
  refine lineValue_of_forall fun c hc => ?_
  rcases mem_append.1 hc with hc | hc
  · simpa using all_eq_true.1 hw c hc
  · exact Text.isWhitespace_of_isDigit (Text.isDigit_of_mem_decimal hc)

theorem lineValue_stageStr (s : BootStage) : LineValue (stageStr s).toList := by
  cases s <;> decide

theorem lineValue_healthStr (h : BootHealthStatus) : LineValue (healthStr h).toList := by
  cases h <;> decide

theorem parseStage_stageStr (s : BootStage) : parseStage (stageStr s).toList = some s := by
  cases s <;> decide

theorem parseHealth_healthStr (h : BootHealthStatus) :
    parseHealth (healthStr h).toList = some h := by
  cases h <;> decide

/-- The parser's loop over well-formed fields sets them one after the other. -/
theorem foldl_parseLine_fields {kvs : List (String × List Char)}
    (h : ∀ kv ∈ kvs, Key kv.1.toList ∧ LineValue kv.2) (p : Partial) :
    (Text.lines (kvs.flatMap field)).foldl parseLine p =
      kvs.foldl (fun p kv => setField p kv.1 kv.2) p := by
  induction kvs generalizing p with
  | nil => rfl
  | cons kv kvs ih =>
    obtain ⟨hk, hv⟩ := h kv mem_cons_self
    rw [flatMap_cons, lines_field hk hv, foldl_cons, parseLine_line hk hv.2,
      String.ofList_toList, ih fun kv hkv => h kv (mem_cons_of_mem _ hkv)]
    rfl

variable {s : BootState}

theorem fields_wellFormed (h : LineValue s.bootId.toList) :
    ∀ kv ∈ s.fields, Key kv.1.toList ∧ LineValue kv.2 := by
  simp only [fields, forall_mem_cons, not_mem_nil, false_imp_iff, implies_true, and_true]
  exact ⟨⟨by decide, lineValue_decimal _⟩, ⟨by decide, lineValue_decimal _⟩,
    ⟨by decide, lineValue_decimal _⟩, ⟨by decide, h⟩,
    ⟨by decide, lineValue_stageStr _⟩, ⟨by decide, lineValue_decimal _⟩,
    ⟨by decide, lineValue_healthStr _⟩⟩

theorem foldl_setField_fields (s : BootState) :
    s.fields.foldl (fun p kv => setField p kv.1 kv.2) {} =
      { genId := some s.generationId
        attempts := some s.bootAttempts
        maxAttempts := some s.maxAttempts
        bootId := some s.bootId
        stage := some s.stage
        fallbackId := some s.fallbackGenerationId
        health := some s.healthStatus } := by
  simp [fields, setField, Text.parseU32_decimal, parseStage_stageStr, parseHealth_healthStr]

/-- **The boot-state file is read back as it was written**, for every boot state whose boot id is
one line with no outer white space. -/
theorem parse_toRecord (h : LineValue s.bootId.toList) : parse s.toRecord = .ok s := by
  have hheader : parseLine {} recordHeader = {} := by decide
  rw [parse, toRecord, Text.lines_cons (by decide) (by decide), foldl_cons, hheader,
    foldl_parseLine_fields (fields_wellFormed h), foldl_setField_fields]
  rfl

/-! ### What a record can be read as -/

/-- The boot id in the parser's variables is a value that fits on a line. -/
def Partial.Readable (p : Partial) : Prop := ∀ b, p.bootId = some b → LineValue b.toList

variable {p : Partial}

theorem readable_setField (hp : p.Readable) (key : String) {val : List Char}
    (hval : LineValue val) : (setField p key val).Readable := by
  intro b hb
  unfold setField at hb
  split at hb
  case h_4 =>
    simp only [Option.some.injEq] at hb
    rw [← hb, String.toList_ofList]
    exact hval
  all_goals exact hp b hb

theorem readable_parseLine (hp : p.Readable) {line : List Char} (hline : '\n' ∉ line) :
    (parseLine p line).Readable := by
  simp only [parseLine]
  split_ifs with h
  · exact hp
  · refine readable_setField hp _ ⟨fun hm => hline ?_, Text.trimmed_trim _⟩
    have hv := Text.mem_of_mem_trim hm
    rcases hs : (Text.splitFirst '=' (Text.trim line)).2 with - | v
    · simp [hs] at hv
    · rw [hs] at hv
      exact Text.mem_of_mem_trim (Text.mem_of_mem_splitFirst hs hv)

theorem readable_foldl {ls : List (List Char)} (hls : ∀ l ∈ ls, '\n' ∉ l) (hp : p.Readable) :
    (ls.foldl parseLine p).Readable := by
  induction ls generalizing p with
  | nil => exact hp
  | cons l ls ih =>
    rw [forall_mem_cons] at hls
    exact ih hls.2 (readable_parseLine hp hls.1)

/-- Whatever the file holds, the boot id that is read from it is one trimmed line. -/
theorem lineValue_of_parse {content : List Char} (h : parse content = .ok s) :
    LineValue s.bootId.toList := by
  have hread : ((Text.lines content).foldl parseLine {}).Readable :=
    readable_foldl (fun _ => Text.newline_notMem_of_mem_lines) (by intro b hb; cases hb)
  rw [parse, finish] at h
  split at h
  · cases h
  · cases h
    rcases hb : ((Text.lines content).foldl parseLine {}).bootId with - | b
    · exact (by decide : LineValue "unknown".toList)
    · exact hread b hb

/-- **The boot states that survive the file**: a boot state is read back as it was written exactly
when its boot id has no newline and no outer white space; the ids, counters, stage and health never
matter. -/
theorem parse_toRecord_iff (s : BootState) :
    parse s.toRecord = .ok s ↔ '\n' ∉ s.bootId.toList ∧ Text.Trimmed s.bootId.toList :=
  ⟨lineValue_of_parse, parse_toRecord⟩

end BootState

end Control
