import MahinaOS.Lib.Faulty
import MahinaOS.Lib.ListUpdate
import MahinaOS.Control.Boot
import Mathlib.Data.List.Sort

/-!
# The state store

`StateStore` (`mahina-control/src/state.rs`) keeps the generation registry, the manifests and the
boot state in files that are each replaced atomically.  The model's `Disk` holds the contents of
those files, the boot loader configuration and the generation directories; a file that JSON is
written to is held as the value it stands for.

Every file write goes through `atomicWriteFile`, so a fault plan for `.write` says which of them
fail; `.read`, `.mkdir` and `.delete` are the other system calls that can fail on their own.

The second half specifies each operation on a disk that has been initialised (`Disk.Ready`): a load
returns what is stored, and nothing but a save changes the disk.
-/

namespace Control

open Faulty ListUpdate

/-! ## The disk -/

/-- The kinds of system call that can fail on their own. -/
inductive Syscall where
  | write | read | mkdir | delete
  deriving DecidableEq, Repr

/-- The files of the control plane, and what is there of the generations themselves. -/
structure Disk where
  registry : Option GenerationRegistry
  manifests : UInt32 → Option GenerationManifest
  bootState : Option (List Char)
  limineConf : Option LimineConf
  /-- The directories `<generations_root>/<id>`. -/
  genDirs : UInt32 → Bool
  /-- The snapshots `<generations_root>/<id>/rootfs`. -/
  rootfs : UInt32 → Bool

namespace Disk

/-- The registry file is replaced. -/
def setRegistry (reg : GenerationRegistry) (d : Disk) : Disk := { d with registry := some reg }

/-- A manifest is stored under the id it carries. -/
def setManifest (m : GenerationManifest) (d : Disk) : Disk :=
  { d with manifests := Function.update d.manifests m.id (some m) }

/-- The boot state is stored as its textual record. -/
def setBootState (b : BootState) (d : Disk) : Disk := { d with bootState := some b.toRecord }

/-- The boot loader's configuration is replaced. -/
def setLimineConf (conf : LimineConf) (d : Disk) : Disk := { d with limineConf := some conf }

end Disk

/-- Programs on the disk, whose system calls can fail. -/
abbrev Store := Prog Syscall ControlError Disk

/-- A system call without an effect of its own. -/
def syscall (k : Syscall) : Store Unit := Faulty.syscall .io k

/-- `atomic_write_file`: the target is replaced as a whole, or not at all.  `u` is the effect of
replacing it. -/
def atomicWriteFile (u : Disk → Disk) : Store Unit := do
  syscall .write
  update u

/-- `fs::read_to_string` followed by decoding. -/
def readFile {α : Type} (file : Disk → Option α) : Store α := do
  syscall .read
  let d ← disk
  orThrow (file d) (.io "No such file or directory (os error 2)")

/-! ## Loading and saving -/

/-- `save_registry`. -/
def saveRegistry (reg : GenerationRegistry) : Store Unit := atomicWriteFile (Disk.setRegistry reg)

/-- `save_manifest`. -/
def saveManifest (m : GenerationManifest) : Store Unit := atomicWriteFile (Disk.setManifest m)

/-- `save_boot_state`. -/
def saveBootState (b : BootState) : Store Unit := atomicWriteFile (Disk.setBootState b)

section

variable (digestHex : String → String)

/-- `init_if_needed`: what is missing is written for the baseline generation. -/
def initIfNeeded : Store Unit := do
  syscall .mkdir
  syscall .mkdir
  let d ← disk
  onlyIf (d.registry = none) (saveRegistry .baseline)
  let d ← disk
  onlyIf (d.manifests defaultBaselineGenId = none) (saveManifest (baselineManifest digestHex))
  let d ← disk
  onlyIf (d.bootState = none)
    (saveBootState (.new defaultBaselineGenId defaultBaselineGenId))

/-- `load_registry`. -/
def loadRegistry : Store GenerationRegistry := do
  let d ← disk
  onlyIf (d.registry = none) (initIfNeeded digestHex)
  readFile (·.registry)

/-- `load_manifest`. -/
def loadManifest (id : UInt32) : Store GenerationManifest := do
  let d ← disk
  ensure (d.manifests id ≠ none)
    (.notFound ("Generation #" ++ toString id ++ " manifest not found"))
  readFile (·.manifests id)

/-- `load_boot_state`. -/
def loadBootState : Store BootState := do
  let d ← disk
  onlyIf (d.bootState = none) (initIfNeeded digestHex)
  let content ← readFile (·.bootState)
  match BootState.parse content with
  | .ok b => pure b
  | .error e => throw e

end

/-! ## Registry updates -/

/-- `u32::saturating_add(1)`. -/
def saturatingSucc (n : UInt32) : UInt32 := if n = 0xFFFFFFFF then n else n + 1

namespace GenerationRegistry

/-- Write through `generations.iter_mut().find(|g| g.id == id)`. -/
def modify (reg : GenerationRegistry) (id : UInt32)
    (f : GenerationSummary → GenerationSummary) : GenerationRegistry :=
  { reg with generations := modifyFirst (·.id = id) f reg.generations }

/-- The registry update of `allocate_next_id`. -/
def bumpNextId (reg : GenerationRegistry) : GenerationRegistry :=
  { reg with nextGenerationId := saturatingSucc reg.nextGenerationId }

/-- The pin list after pinning or unpinning a generation. -/
def pinList (reg : GenerationRegistry) (id : UInt32) (pinned : Bool) : List UInt32 :=
  if pinned then
    if reg.pinnedGenerations.contains id then reg.pinnedGenerations
    else reg.pinnedGenerations ++ [id]
  else reg.pinnedGenerations.filter (· != id)

/-- The registry update of `set_pinned`. -/
def pin (reg : GenerationRegistry) (id : UInt32) (pinned : Bool) : GenerationRegistry :=
  { reg with pinnedGenerations := reg.pinList id pinned }.modify id
    fun s => { s with isPinned := pinned }

/-- Never prune the current, the fallback or a pinned generation; prune only superseded or failed
ones. -/
def isPrunable (reg : GenerationRegistry) (g : GenerationSummary) : Bool :=
  !(g.id = reg.currentGenerationId || g.isCurrent) &&
  !(g.id = reg.fallbackGenerationId || g.isFallback) &&
  !(g.isPinned || reg.isPinned g.id) &&
  (g.status = .superseded || g.status = .failed)

/-- The ids retention would prune: the oldest prunable ones, as many as the registry exceeds its
quota by. -/
def prunable (reg : GenerationRegistry) : List UInt32 :=
  if reg.generations.length ≤ reg.retentionQuota then []
  else
    let prunable := ((reg.generations.filter reg.isPrunable).map (·.id)).insertionSort (· ≤ ·)
    prunable.take (min prunable.length (reg.generations.length - reg.retentionQuota))

end GenerationRegistry

section

variable (digestHex : String → String)

/-- Allocate and increment the next generation id. -/
def allocateNextId : Store UInt32 := do
  let reg ← loadRegistry digestHex
  saveRegistry reg.bumpNextId
  pure reg.nextGenerationId

/-- `set_pinned`: the current generation and the fallback cannot be unpinned. -/
def setPinned (id : UInt32) (pinned : Bool) : Store Unit := do
  let reg ← loadRegistry digestHex
  ensure (pinned = true ∨ ¬(id = reg.currentGenerationId ∨ id = reg.fallbackGenerationId))
    (.permissionDenied "Cannot unpin active current or designated fallback generation")
  let manifest ← attempt (loadManifest id)
  ifOk manifest fun m => saveManifest { m with isPinned := pinned }
  saveRegistry (reg.pin id pinned)

/-- `prunable_generations`. -/
def prunableGenerations : Store (List UInt32) := do
  let reg ← loadRegistry digestHex
  pure reg.prunable

end

/-! ## What the operations do on an initialised disk -/

/-- Every manifest is stored under its own id. -/
def Disk.Keyed (d : Disk) : Prop := ∀ i man, d.manifests i = some man → man.id = i

/-- A disk `init_if_needed` has nothing to do on, with the registry it holds and every manifest
under its own id. -/
structure Disk.Ready (d : Disk) (reg : GenerationRegistry) : Prop where
  registry : d.registry = some reg
  baseline : d.manifests defaultBaselineGenId ≠ none
  bootState : d.bootState ≠ none
  keyed : ∀ i man, d.manifests i = some man → man.id = i

section Specs

variable {digestHex : String → String} {f₀ : Faults Syscall} {d : Disk} {reg : GenerationRegistry}
variable {Q : Unit → Disk → Prop} {E : ControlError → Disk → Prop}

theorem spec_atomicWriteFile {u : Disk → Disk} (hQ : Q () (u d))
    (hE : f₀ .write ≠ [] → ∀ msg, E (.io msg) d) : Spec f₀ (atomicWriteFile u) d Q E :=
  .bind (.syscall (.update hQ) hE)

theorem spec_skip {c : Prop} [Decidable c] {x : Store Unit} (hc : ¬c) (hQ : Q () d) :
    Spec f₀ (onlyIf c x) d Q E :=
  .onlyIf (fun h => absurd h hc) fun _ => hQ

theorem spec_readFile {α : Type} {file : Disk → Option α} {a : α} (ha : file d = some a)
    {R : α → Disk → Prop} (hR : R a d) (hE : f₀ .read ≠ [] → ∀ msg, E (.io msg) d) :
    Spec f₀ (readFile file) d R E := by
  refine .bind (.syscall (.bind (.disk ?_)) hE)
  rw [ha]
  exact .pure hR

theorem spec_initIfNeeded (hd : d.Ready reg) (hQ : Q () d)
    (hE : f₀ .mkdir ≠ [] → ∀ msg, E (.io msg) d) : Spec f₀ (initIfNeeded digestHex) d Q E := by
  refine .bind (.syscall ?_ hE)
  refine .bind (.syscall ?_ hE)
  refine .bind (.disk (.bind (spec_skip (by simp [hd.registry]) ?_)))
  refine .bind (.disk (.bind (spec_skip hd.baseline ?_)))
  exact .bind (.disk (spec_skip hd.bootState hQ))

theorem spec_loadRegistry (hr : d.registry = some reg) {R : GenerationRegistry → Disk → Prop}
    (hR : R reg d) (hE : f₀ .read ≠ [] → ∀ msg, E (.io msg) d) :
    Spec f₀ (loadRegistry digestHex) d R E :=
  .bind (.disk (.bind (spec_skip (by simp [hr]) (spec_readFile hr hR hE))))

theorem spec_loadManifest {id : UInt32} {R : GenerationManifest → Disk → Prop}
    (hR : ∀ m, d.manifests id = some m → R m d)
    (hN : d.manifests id = none →
      E (.notFound ("Generation #" ++ toString id ++ " manifest not found")) d)
    (hE : f₀ .read ≠ [] → ∀ msg, E (.io msg) d) : Spec f₀ (loadManifest id) d R E := by
  refine .bind (.disk (.bind (.ensure (fun hs => ?_) fun h => hN (not_not.1 h))))
  obtain ⟨m, hm⟩ := Option.ne_none_iff_exists'.1 hs
  exact spec_readFile hm (hR m hm) hE

theorem spec_loadBootState {t : List Char} (ht : d.bootState = some t)
    {R : BootState → Disk → Prop} (hR : ∀ b, BootState.parse t = .ok b → R b d)
    (hP : ∀ e, BootState.parse t = .error e → E e d)
    (hE : f₀ .read ≠ [] → ∀ msg, E (.io msg) d) : Spec f₀ (loadBootState digestHex) d R E := by
  refine .bind (.disk (.bind (spec_skip (by simp [ht]) ?_)))
  refine .bind (spec_readFile ht ?_ hE)
  split
  · exact .pure (hR _ ‹_›)
  · exact .throw (hP _ ‹_›)

end Specs

end Control
