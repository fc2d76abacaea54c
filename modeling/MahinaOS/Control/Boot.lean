import MahinaOS.Control.State

/-!
# The boot loader configuration

`LimineConfigGenerator::generate` (`mahina-control/src/boot.rs`) computes the whole `limine.conf`
from the generation registry and, during a candidate trial, the candidate's id.  The boot loader
boots the first entry, so the order of the entries is what the configuration means.

A configuration is kept here as its list of entries; `LimineConf.text` is the file itself.

* `LimineConf.default?` is the generation the boot loader was told to boot.
* `head?_generate_none` and `head?_generate_some` compute its entry.
* `mem_generate` says which generations a configuration can name.
-/

namespace Control

structure LimineEntry where
  id : UInt32
  badge : String
  /-- The entry is a candidate trial: it carries `mahina.candidate=1` and `panic_on_oops=1`. -/
  trial : Bool
  deriving DecidableEq, Repr

/-- A `limine.conf`. -/
structure LimineConf where
  kernelPath : String
  initramfsPath : String
  timeoutSecs : UInt32
  entries : List LimineEntry
  deriving DecidableEq, Repr

namespace LimineConf

def entryText (conf : LimineConf) (e : LimineEntry) : String :=
  "/MahinaOS Gen #" ++ toString e.id ++ " " ++ e.badge ++ "\n" ++
  "\tprotocol: linux\n" ++
  "\tpath: " ++ conf.kernelPath ++ "\n" ++
  "\tmodule_path: " ++ conf.initramfsPath ++ "\n" ++
  "\tcmdline: root=LABEL=MAHINA_ROOT rootflags=ro,subvol=@generations/" ++ toString e.id ++
  "/rootfs console=tty0 console=ttyS0 mahina.generation=" ++ toString e.id ++
  (if e.trial then " mahina.candidate=1 panic=10 panic_on_oops=1\n\n" else " panic=10\n\n")

def text (conf : LimineConf) : String :=
  "# MahinaOS Bootloader Configuration\n" ++
  "# Automatically generated by mahina-control-d — DO NOT HAND EDIT\n" ++
  "timeout: " ++ toString conf.timeoutSecs ++ "\n\n" ++
  String.join (conf.entries.map conf.entryText)

/-- The generation of the first entry, which is the one the boot loader boots. -/
def default? (conf : LimineConf) : Option UInt32 := conf.entries.head?.map (·.id)

end LimineConf

structure LimineConfigGenerator where
  kernelPath : String := "boot():/vmlinuz-mahina"
  initramfsPath : String := "boot():/initramfs-mahina.img"
  timeoutSecs : UInt32 := 3
  deriving DecidableEq, Repr

section

variable (reg : GenerationRegistry) (candidateId : Option UInt32)

/-- Entry 1 of a trial: the candidate, when it is registered. -/
def candidateEntries : List LimineEntry :=
  match candidateId.bind reg.getSummary with
  | some cand => [⟨cand.id, "[CANDIDATE TRIAL - TRIES 3]", true⟩]
  | none => []

/-- The current generation, unless it is the candidate itself. -/
def currentEntries : List LimineEntry :=
  if candidateId ≠ some reg.currentGenerationId then
    [⟨reg.currentGenerationId,
      if candidateId = none then "[DEFAULT HEALTHY]" else "[CURRENT HEALTHY]", false⟩]
  else []

/-- The designated fallback, if different from the current generation and the candidate. -/
def fallbackEntries : List LimineEntry :=
  if reg.fallbackGenerationId ≠ reg.currentGenerationId ∧
      candidateId ≠ some reg.fallbackGenerationId then
    [⟨reg.fallbackGenerationId, "[FALLBACK HEALTHY]", false⟩]
  else []

/-- The generations listed after those: retained healthy or superseded ones. -/
def retained (g : GenerationSummary) : Bool :=
  !(g.id = reg.currentGenerationId || g.id = reg.fallbackGenerationId || candidateId = some g.id) &&
    (g.status = .healthy || g.status = .superseded)

def retainedEntries : List LimineEntry :=
  (reg.generations.filter (retained reg candidateId)).map fun g =>
    ⟨g.id, if g.isPinned then "[PINNED]" else "[BACKUP]", false⟩

end

/-- The complete configuration, as a function of the registry. -/
def LimineConfigGenerator.generate (gen : LimineConfigGenerator) (reg : GenerationRegistry)
    (candidateId : Option UInt32) : LimineConf where
  kernelPath := gen.kernelPath
  initramfsPath := gen.initramfsPath
  timeoutSecs := gen.timeoutSecs
  entries := candidateEntries reg candidateId ++ currentEntries reg candidateId ++
    fallbackEntries reg candidateId ++ retainedEntries reg candidateId

namespace LimineConfigGenerator

variable (gen : LimineConfigGenerator) {reg : GenerationRegistry}

/-- Outside a trial the first entry is the current generation, without the trial's arguments. -/
theorem head?_generate_none : (gen.generate reg none).entries.head? =
    some ⟨reg.currentGenerationId, "[DEFAULT HEALTHY]", false⟩ := by
  simp [generate, candidateEntries, currentEntries]

/-- In a trial of a registered candidate the first entry is the candidate, with them. -/
theorem head?_generate_some {c : UInt32} (hc : c ∈ reg.ids) :
    (gen.generate reg (some c)).entries.head? =
      some ⟨c, "[CANDIDATE TRIAL - TRIES 3]", true⟩ := by
  obtain ⟨g, hg⟩ := Option.isSome_iff_exists.1 (GenerationRegistry.getSummary_isSome.2 hc)
  have hid : g.id = c := (GenerationRegistry.mem_of_getSummary hg).2
  simp [generate, candidateEntries, hg, hid]

/-- Whom an entry can be for: the candidate, the current generation, the fallback, or a retained
healthy or superseded generation. -/
theorem mem_generate {candidateId : Option UInt32} {e : LimineEntry}
    (he : e ∈ (gen.generate reg candidateId).entries) :
    candidateId = some e.id ∨ e.id = reg.currentGenerationId ∨ e.id = reg.fallbackGenerationId ∨
      ∃ g ∈ reg.generations, g.id = e.id ∧ (g.status = .healthy ∨ g.status = .superseded) := by
  simp only [generate, List.mem_append] at he
  rcases he with ((he | he) | he) | he
  · left
    rw [candidateEntries] at he
    split at he
    · rename_i g hg
      obtain ⟨c, hc, hg⟩ := Option.bind_eq_some_iff.1 hg
      rw [List.mem_singleton] at he
      rw [hc, he, (GenerationRegistry.mem_of_getSummary hg).2]
    · simp at he
  · right; left
    simp only [currentEntries] at he
    split at he <;> simp_all
  · right; right; left
    simp only [fallbackEntries] at he
    split at he <;> simp_all
  · right; right; right
    simp only [retainedEntries, List.mem_map, List.mem_filter] at he
    obtain ⟨g, ⟨hg, hr⟩, rfl⟩ := he
    simp only [retained, Bool.and_eq_true, Bool.or_eq_true, decide_eq_true_eq] at hr
    exact ⟨g, hg, rfl, hr.2⟩

end LimineConfigGenerator

end Control
