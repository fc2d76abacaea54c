import MahinaOS.Lib.Run
import MahinaOS.Control.Store

/-!
# The generation lifecycle

The operations of `GenerationLifecycleManager` (`mahina-control/src/lifecycle.rs`) with the
snapshot engine (`btrfs.rs`) and the health evaluator (`health.rs`) they use: creating a candidate
generation, activating it for a trial boot, attesting it healthy, rolling back, pinning, and the
retention sweep.

A `Call` is an operation together with everything its environment decides — which system calls
fail, the free space, the outcome of the snapshot command, the clock and the two health probes — so
`step` is a function and a history of the system is a list of calls, started from `baselineDisk`.
-/

namespace Control

open Faulty ListUpdate Function

/-! ## The snapshot engine -/

/-- The free space that a candidate asks for: 2 GiB. -/
def minFreeSpaceBytes : UInt64 := 2 * 1024 * 1024 * 1024

/-- What became of `btrfs subvolume snapshot`. -/
inductive SnapshotOutcome where
  | created
  | notExecuted (e : String)
  | exitFailure (stderr : String)
  | targetMissing
  deriving DecidableEq, Repr

/-- What the environment of one call decides. -/
structure Env where
  faults : Faults Syscall := fun _ => []
  /-- The free bytes `statvfs` reports, if it succeeds. -/
  freeSpace : Option UInt64 := none
  snapshot : SnapshotOutcome := .created
  /-- The seconds since the epoch, if the clock is not before it. -/
  now : Option UInt64 := none
  checkCore : Except String Unit := .ok ()
  checkPlatform : Except String Unit := .ok ()

/-- The configuration of a lifecycle manager, and the SHA-256 function it is linked with. -/
structure Manager where
  generationsRoot : String := "/generations"
  minFreeSpaceBytes : UInt64 := Control.minFreeSpaceBytes
  mockMode : Bool := false
  bootGenerator : LimineConfigGenerator := {}
  digestHex : String → String

namespace Manager

variable (m : Manager) (env : Env)

/-- `query_free_space`: 10 GiB in mock mode, and if `statvfs` fails. -/
def queryFreeSpace : UInt64 :=
  let tenGiB := 10 * 1024 * 1024 * 1024
  if m.mockMode then tenGiB else env.freeSpace.getD tenGiB

/-- `verify_free_space`: too little free space ends the creation before anything is written. -/
def verifyFreeSpace : Store Unit :=
  let free := m.queryFreeSpace env
  ensure (¬free < m.minFreeSpaceBytes)
    (.internal ("Insufficient disk space for candidate generation: " ++ toString free ++
      " bytes free, " ++ toString m.minFreeSpaceBytes ++ " bytes required"))

variable (id : UInt32)

/-- `fs::create_dir_all(generations_root/<id>)`. -/
def createGenDir : Store Unit := do
  syscall .mkdir
  update fun d => { d with genDirs := update d.genDirs id true }

/-- `fs::remove_dir_all(generations_root/<id>)`. -/
def removeGenDir : Store Unit := do
  syscall .delete
  update fun d => { d with
    genDirs := update d.genDirs id false
    rootfs := update d.rootfs id false }

/-- The snapshot of a generation is there. -/
def addSnapshot : Store Unit :=
  update fun d => { d with rootfs := update d.rootfs id true }

/-- `create_snapshot`: in mock mode a directory, otherwise what `btrfs` makes of it. -/
def createSnapshot : Store Unit :=
  if m.mockMode then do
    syscall .mkdir
    addSnapshot id
  else
    match env.snapshot with
    | .created => addSnapshot id
    | .notExecuted e => throw (.io ("Failed to execute btrfs command: " ++ e))
    | .exitFailure stderr =>
      throw (.internal ("btrfs subvolume snapshot failed: " ++
        String.ofList (Text.trim stderr.toList)))
    | .targetMissing =>
      throw (.internal ("Snapshot target \"" ++ m.generationsRoot ++ "/" ++ toString id ++
        "/rootfs\" does not exist after creation"))

/-- Delete the snapshot of a generation; nothing to do if there is none.  In mock mode a failure
to remove it is ignored here, otherwise by every caller. -/
def deleteSnapshot : Store Unit := do
  let d ← disk
  onlyIf (d.rootfs id = true) do
    syscall .delete
    update fun d => { d with rootfs := update d.rootfs id false }

/-- The closure `cleanup` of `transactional_create_candidate`. -/
def cleanup : Store Unit := do
  let _ ← attempt (deleteSnapshot id)
  let _ ← attempt (removeGenDir id)

/-- `fs::remove_file(manifest_path(id))`. -/
def removeManifest : Store Unit := do
  syscall .delete
  update fun d => { d with manifests := update d.manifests id none }

/-- The manifest of a new candidate. -/
def candidateManifest (genId parentId : UInt32)
    (description kernelVersion packageManifest kernelSha256 initramfsSha256 : String) :
    GenerationManifest :=
  let createdAtEpochSecs := env.now.getD 1788740000
  let btrfsTreeRootId : UInt64 := genId.toUInt64
  { id := genId
    parentId := some parentId
    description := description
    createdAtEpochSecs := createdAtEpochSecs
    kernelVersion := kernelVersion
    status := .staged
    btrfsTreeRootId := btrfsTreeRootId
    isPinned := false
    commitDigestSha256 := computeDigest m.digestHex genId (some parentId) description
      createdAtEpochSecs kernelVersion .staged btrfsTreeRootId false packageManifest kernelSha256
      initramfsSha256 }

/-- The registry entry of a new candidate. -/
def candidateSummary (manifest : GenerationManifest) : GenerationSummary where
  id := manifest.id
  parentId := manifest.parentId
  description := manifest.description
  createdAtEpochSecs := manifest.createdAtEpochSecs
  status := .staged
  isPinned := false
  isCurrent := false
  isFallback := false

variable (reg : GenerationRegistry)

/-- The registry with an entry for a new candidate. -/
def addCandidate (manifest : GenerationManifest) : GenerationRegistry :=
  { reg with generations := reg.generations ++ [candidateSummary manifest] }

variable (description kernelVersion packageManifest kernelSha256 initramfsSha256 : String)

/-- `transactional_create_candidate`: what was made for the candidate is taken away again if a step
fails. -/
def transactionalCreateCandidate : Store GenerationManifest := do
  m.verifyFreeSpace env
  let genId ← allocateNextId m.digestHex
  createGenDir genId
  onError (m.createSnapshot env genId) (removeGenDir genId)
  let reg ← onError (loadRegistry m.digestHex) (cleanup genId)
  let manifest := m.candidateManifest env genId reg.currentGenerationId description kernelVersion
    packageManifest kernelSha256 initramfsSha256
  onError (saveManifest manifest) (cleanup genId)
  onError (saveRegistry (addCandidate reg manifest)) do
    cleanup genId
    removeManifest genId
  pure manifest

/-! ## The health evaluator -/

/-- What the health evaluator reports. -/
structure HealthReport where
  coreHealthy : Bool
  platformHealthy : Bool
  isPromotable : Bool
  details : List String
  deriving DecidableEq, Repr

/-- One probe: whether it passed, and its line of the report. -/
def probe (mock : Bool) (check : Except String Unit) (passed failed : String) : Bool × String :=
  match if mock then .ok () else check with
  | .ok () => (true, "[✓] " ++ passed)
  | .error e => (false, "[✗] " ++ failed ++ e)

/-- `evaluate`: a generation can be promoted if both probes pass. -/
def evaluate : HealthReport :=
  let core := probe m.mockMode env.checkCore
    "CORE_HEALTHY: Filesystems writable, runtime directories verified" "CORE_HEALTHY FAILED: "
  let platform := probe m.mockMode env.checkPlatform
    "PLATFORM_HEALTHY: Display pipeline and compositor verified" "PLATFORM_HEALTHY FAILED: "
  { coreHealthy := core.1
    platformHealthy := platform.1
    isPromotable := core.1 && platform.1
    details := [core.2, platform.2] }

/-- The `Debug` text of a string: quoted, with the common escapes. -/
def debugStr (s : String) : String :=
  let esc : Char → List Char
    | '"' => ['\\', '"']
    | '\\' => ['\\', '\\']
    | '\n' => ['\\', 'n']
    | '\r' => ['\\', 'r']
    | '\t' => ['\\', 't']
    | c => [c]
  String.ofList ('"' :: s.toList.flatMap esc ++ ['"'])

/-- The `Debug` text of a list of strings. -/
def debugList (l : List String) : String := "[" ++ ", ".intercalate (l.map debugStr) ++ "]"

/-! ## Registry updates of the lifecycle -/

/-- What attestation does to each entry when the current generation changes from `old` to
`target`. -/
def promoteEntry (old target : UInt32) (g : GenerationSummary) : GenerationSummary :=
  if g.id = old then
    { g with
      isCurrent := false
      isFallback := true
      status := if g.status = .healthy then .superseded else g.status }
  else if g.id = target then
    { g with isCurrent := true, isFallback := false, status := .healthy }
  else g

/-- The registry after attesting `target` healthy. -/
def markHealthy (target : UInt32) : GenerationRegistry :=
  let old := reg.currentGenerationId
  if old ≠ target then
    { reg with
      fallbackGenerationId := old
      currentGenerationId := target
      generations := reg.generations.map (promoteEntry old target) }
  else
    reg.modify target fun g => { g with status := .healthy, isCurrent := true }

/-- What rolling back from `old` to `target` does to each entry. -/
def rollbackEntry (old target : UInt32) (g : GenerationSummary) : GenerationSummary :=
  if g.id = target then { g with isCurrent := true }
  else if g.id = old then
    { g with
      isCurrent := false
      status := if g.status = .candidate then .failed else g.status }
  else g

/-- The registry after rolling back to `target`. -/
def rollbackTo (target : UInt32) : GenerationRegistry :=
  { reg with
    currentGenerationId := target
    generations := reg.generations.map (rollbackEntry reg.currentGenerationId target) }

/-- The registry after activating a candidate. -/
def markCandidate (id : UInt32) : GenerationRegistry :=
  reg.modify id fun g => { g with status := .candidate }

/-- The registry after pruning a generation. -/
def markPruned (id : UInt32) : GenerationRegistry :=
  reg.modify id fun g => { g with status := .pruned }

/-! ## The operations -/

/-- Replace `limine.conf`; a failure to create its directory is ignored. -/
def writeLimineConf (conf : LimineConf) : Store Unit := do
  let _ ← attempt (syscall .mkdir)
  atomicWriteFile (Disk.setLimineConf conf)

/-- `create_candidate`. -/
def createCandidate : Store GenerationManifest := do
  initIfNeeded m.digestHex
  m.transactionalCreateCandidate env description kernelVersion packageManifest kernelSha256
    initramfsSha256

/-- The boot state of a trial of `genId`. -/
def trialBootState (genId : UInt32) : BootState :=
  .candidateTrial genId reg.currentGenerationId ("boot-gen-" ++ toString genId)

/-- The `Debug` text of an optional id. -/
def debugParent : Option UInt32 → String
  | some p => "Some(" ++ toString p ++ ")"
  | none => "None"

/-- `activate_candidate`: point the boot state and the boot loader at a candidate of the current
generation, and then mark it as one. -/
def activateCandidate (genId : UInt32) : Store BootState := do
  initIfNeeded m.digestHex
  let manifest ← loadManifest genId
  ensure (manifest.status = .staged ∨ manifest.status = .candidate)
    (.invalidParameter "gen_id" ("Generation #" ++ toString genId ++ " is in status " ++
      manifest.status.debug ++ ", expected Staged"))
  let reg ← loadRegistry m.digestHex
  ensure (manifest.parentId = some reg.currentGenerationId)
    (.invalidParameter "parent_id" ("Candidate parent (#" ++ debugParent manifest.parentId ++
      ") does not match active healthy generation (#" ++ toString reg.currentGenerationId ++ ")"))
  saveBootState (trialBootState reg genId)
  writeLimineConf (m.bootGenerator.generate reg (some genId))
  saveManifest { manifest with status := .candidate }
  saveRegistry (markCandidate reg genId)
  pure (trialBootState reg genId)

/-- One round of the retention sweep: delete the snapshot and directory of `id` and mark it pruned,
ignoring every failure. -/
def pruneOne (id : UInt32) : Store GenerationRegistry := do
  let _ ← attempt (deleteSnapshot id)
  let _ ← attempt (removeGenDir id)
  let manifest ← attempt (loadManifest id)
  ifOk manifest fun man => do
    let _ ← attempt (saveManifest { man with status := .pruned })
  pure (markPruned reg id)

/-- `execute_retention_prune`: prune what exceeds the quota, and return the ids. -/
def executeRetentionPrune : Store (List UInt32) := do
  let prunable ← prunableGenerations m.digestHex
  onlyIf (prunable ≠ []) do
    let reg ← loadRegistry m.digestHex
    let reg ← prunable.foldlM pruneOne reg
    saveRegistry reg
  pure prunable

/-- The boot state attestation writes. -/
def attestedBootState (b : BootState) (target : UInt32) : BootState :=
  { b with
    generationId := target
    bootAttempts := 0
    stage := .normalBoot
    healthStatus := .healthy }

/-- `attest_and_mark_healthy`: root promotes a generation, the one that is named or the one of the
boot state, if the health probes pass. -/
def attestAndMarkHealthy (genId : Option UInt32) (caller : PeerCredentials) :
    Store GenerationManifest := do
  initIfNeeded m.digestHex
  ensure (caller.uid = 0)
    (.permissionDenied "Health attestation requires system root credentials (UID 0)")
  let bootState ← loadBootState m.digestHex
  let targetId := genId.getD bootState.generationId
  let manifest ← loadManifest targetId
  ensure ((m.evaluate env).isPromotable = true)
    (.internal ("Health attestation rejected due to failed health checks: " ++
      debugList (m.evaluate env).details))
  saveBootState (attestedBootState bootState targetId)
  saveManifest { manifest with status := .healthy }
  let reg ← loadRegistry m.digestHex
  saveRegistry (markHealthy reg targetId)
  writeLimineConf (m.bootGenerator.generate (markHealthy reg targetId) none)
  let _ ← m.executeRetentionPrune
  pure { manifest with status := .healthy }

/-- The boot state a rollback writes. -/
def rollbackBootState (target : UInt32) : BootState where
  generationId := target
  bootAttempts := 0
  maxAttempts := 3
  bootId := "rollback-to-" ++ toString target
  stage := .failedRollback
  fallbackGenerationId := target
  healthStatus := .healthy

/-- Mark the manifest of the generation being left as failed if it was a candidate, ignoring every
failure. -/
def failOldManifest (old target : UInt32) : Store Unit :=
  onlyIf (old ≠ target) do
    let manifest ← attempt (loadManifest old)
    ifOk manifest fun man => onlyIf (man.status = .candidate) do
      let _ ← attempt (saveManifest { man with status := .failed })

/-- `rollback`: make the named generation or the fallback the current one. -/
def rollback (targetId : Option UInt32) : Store GenerationSummary := do
  initIfNeeded m.digestHex
  let reg ← loadRegistry m.digestHex
  let fallbackId := targetId.getD reg.fallbackGenerationId
  let targetSummary ← orThrow (reg.getSummary fallbackId)
    (.notFound ("Rollback target generation #" ++ toString fallbackId ++ " not found"))
  failOldManifest reg.currentGenerationId fallbackId
  saveBootState (rollbackBootState fallbackId)
  saveRegistry (rollbackTo reg fallbackId)
  writeLimineConf (m.bootGenerator.generate (rollbackTo reg fallbackId) none)
  pure targetSummary

end Manager

/-! ## Histories -/

/-- The operations of the lifecycle, with their arguments. -/
inductive Op where
  | create (description kernelVersion packageManifest kernelSha256 initramfsSha256 : String)
  | activate (genId : UInt32)
  | attest (genId : Option UInt32) (caller : PeerCredentials)
  | rollback (targetId : Option UInt32)
  | setPinned (id : UInt32) (pinned : Bool)
  deriving DecidableEq, Repr

/-- An operation, and what the environment decides during it. -/
structure Call where
  op : Op
  env : Env := {}

/-- Run a call for its effect. -/
def Call.perform (m : Manager) (c : Call) : Store Unit :=
  match c.op with
  | .create description kernelVersion packageManifest kernelSha256 initramfsSha256 => do
    let _ ← m.createCandidate c.env description kernelVersion packageManifest kernelSha256
      initramfsSha256
  | .activate genId => do let _ ← m.activateCandidate genId
  | .attest genId caller => do let _ ← m.attestAndMarkHealthy c.env genId caller
  | .rollback targetId => do let _ ← m.rollback targetId
  | .setPinned id pinned => setPinned m.digestHex id pinned

/-- The disk after a call, whether it succeeds or not. -/
def step (m : Manager) (d : Disk) (c : Call) : Disk := (exec (c.perform m) d c.env.faults).2

/-- The call returns `Ok`. -/
def Succeeds (m : Manager) (d : Disk) (c : Call) : Prop :=
  (exec (c.perform m) d c.env.faults).1.isOk = true

instance (m : Manager) (d : Disk) (c : Call) : Decidable (Succeeds m d c) :=
  inferInstanceAs (Decidable (_ = _))

/-- A freshly installed system: generation 101 is running, and no `limine.conf` has been generated
yet. -/
def baselineDisk (digestHex : String → String) : Disk where
  registry := some .baseline
  manifests := update (fun _ => none) defaultBaselineGenId
    (some (baselineManifest digestHex))
  bootState := some (BootState.new defaultBaselineGenId defaultBaselineGenId).toRecord
  limineConf := none
  genDirs := (· = defaultBaselineGenId)
  rootfs := (· = defaultBaselineGenId)

/-- The baseline is what `init_if_needed` makes of an empty store. -/
theorem exec_initIfNeeded (digestHex : String → String) :
    exec (initIfNeeded digestHex)
      { baselineDisk digestHex with
        registry := none, manifests := fun _ => none, bootState := none }
      (fun _ => []) = (.ok (), baselineDisk digestHex) := rfl

end Control
