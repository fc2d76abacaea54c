import MahinaOS.Control.Histories

/-!
# Calls that are cut short by a failed write

Activation, attestation, rollback and pinning each replace several files, one after the other, and
each replacement is atomic.  When one of them fails the call returns an error, and the files that it
has replaced before stay replaced.

`Plans m env reg d op ws` says that a call passes its checks on the disk `d` and then makes the
writes `ws`.  **`allOrNothing_iff`**: whichever write fails, a call that returns an error leaves the
four kinds of files as they were *iff* the store is initialised and the call is rejected by its
checks or none of its writes but the last would change anything.  `activation_half_done` is an
activation that leaves the boot state of a trial behind, and nothing else of it.

One direction follows the specifications of the operations (`spec_idle`).  For the other one a
failure is placed at each write: `Cuts x d P` says that from the disk `d` the program `x` can be
made to fail with each of the disks in `P`, which are those of `Before` in turn.
-/

namespace Control

open Faulty ListUpdate Run List Function Manager

variable {id : UInt32}

/-! ## Exact runs of the store -/

section

variable {digestHex : String → String} {f : Faults Syscall} {d : Disk} {reg : GenerationRegistry}

theorem run_syscall {k : Syscall} (hf : f k = []) : syscall k ⟨d, f⟩ = .ok () ⟨d, f⟩ := by
  simp only [syscall, Faulty.syscall, hf]

theorem run_disk : (disk : Store Disk) ⟨d, f⟩ = .ok d ⟨d, f⟩ := rfl

theorem run_readFile {α : Type} {file : Disk → Option α} {a : α} (ha : file d = some a)
    (hf : f .read = []) : readFile file ⟨d, f⟩ = .ok a ⟨d, f⟩ := by
  refine (bind_ok (run_syscall hf)).trans ((bind_ok run_disk).trans ?_)
  rw [ha]
  rfl

theorem run_loadRegistry (hr : d.registry = some reg) (hf : f .read = []) :
    loadRegistry digestHex ⟨d, f⟩ = .ok reg ⟨d, f⟩ := by
  refine (bind_ok run_disk).trans ((bind_ok (onlyIf_neg ?_)).trans (run_readFile hr hf))
  simp [hr]

theorem run_prunableGenerations (hr : d.registry = some reg) (hf : f .read = []) :
    prunableGenerations digestHex ⟨d, f⟩ = .ok reg.prunable ⟨d, f⟩ :=
  bind_ok (run_loadRegistry hr hf)

theorem run_loadManifest {man : GenerationManifest} (hman : d.manifests id = some man)
    (hf : f .read = []) : loadManifest id ⟨d, f⟩ = .ok man ⟨d, f⟩ := by
  refine (bind_ok run_disk).trans ((bind_ok (ensure_ok ?_)).trans (run_readFile hman hf))
  simp [hman]

theorem run_loadManifest_none (hnone : d.manifests id = none) : loadManifest id ⟨d, f⟩ =
      .error (.notFound ("Generation #" ++ toString id ++ " manifest not found")) ⟨d, f⟩ :=
  (bind_ok run_disk).trans (bind_error (ensure_error (by simp [hnone])))

theorem run_loadBootState {t : List Char} {b : BootState} (ht : d.bootState = some t)
    (hb : BootState.parse t = .ok b) (hf : f .read = []) :
    loadBootState digestHex ⟨d, f⟩ = .ok b ⟨d, f⟩ := by
  refine (bind_ok run_disk).trans ((bind_ok (onlyIf_neg ?_)).trans
    ((bind_ok (run_readFile ht hf)).trans ?_))
  · simp [ht]
  · rw [hb]
    rfl

theorem run_initIfNeeded (hd : d.Ready reg) (hf : f .mkdir = []) :
    initIfNeeded digestHex ⟨d, f⟩ = .ok () ⟨d, f⟩ := by
  refine (bind_ok (run_syscall hf)).trans ((bind_ok (run_syscall hf)).trans ?_)
  refine (bind_ok run_disk).trans ((bind_ok (onlyIf_neg (by simp [hd.registry]))).trans ?_)
  refine (bind_ok run_disk).trans ((bind_ok (onlyIf_neg hd.baseline)).trans ?_)
  exact (bind_ok run_disk).trans (onlyIf_neg hd.bootState)

end

/-! ## Cutting a call short -/

/-- Only the write number `n` fails. -/
def failedWrite (n : Nat) : Faults Syscall := failAt .write "Input/output error (os error 5)" n

/-- From `d` the program can be made to fail with each of the disks in `P`. -/
def Cuts {α : Type} (x : Store α) (d : Disk) (P : Disk → Prop) : Prop :=
  ∀ d', P d' → ∃ N e w, x ⟨d, failedWrite N⟩ = .error e w ∧ w.disk = d'

/-- From `d` the program can be made to go well, with any number of writes left before one fails. -/
def Passes {α : Type} (x : Store α) (d : Disk) (a : α) (d' : Disk) : Prop :=
  ∀ n, ∃ N, x ⟨d, failedWrite N⟩ = .ok a ⟨d', failedWrite n⟩

/-- The disks before each of the writes `ws`, and those in `P` after them. -/
def Before (P : Disk → Prop) : List (Disk → Disk) → Disk → Disk → Prop
  | [], _, d' => P d'
  | u :: ws, d, d' => d' = d ∨ Before P ws (u d) d'

section

variable {α β : Type} {x : Store α} {g : α → Store β} {d d₁ d₂ : Disk} {P : Disk → Prop}
variable {u : Disk → Disk} {n : Nat} {a : α} {b : β}

theorem run_write_succ : atomicWriteFile u ⟨d, failedWrite (n + 1)⟩ = .ok () ⟨u d, failedWrite n⟩ :=
  bind_ok syscall_failAt_succ

theorem run_write_zero : ∃ e, atomicWriteFile u ⟨d, failedWrite 0⟩ = .error e ⟨d, fun _ => []⟩ :=
  ⟨_, bind_error syscall_failAt_zero⟩

/-- A part of the program that goes well. -/
theorem Cuts.after (hx : Passes x d a d₁) (hg : Cuts (g a) d₁ P) : Cuts (x >>= g) d P := by
  intro d' hd'
  obtain ⟨N, e, w, hrun, hw⟩ := hg d' hd'
  obtain ⟨N', hN'⟩ := hx N
  exact ⟨N', e, w, (bind_ok hN').trans hrun, hw⟩

/-- A part that makes no write. -/
theorem Cuts.reads (hx : ∀ n, x ⟨d, failedWrite n⟩ = .ok a ⟨d, failedWrite n⟩)
    (hg : Cuts (g a) d P) : Cuts (x >>= g) d P :=
  .after (fun n => ⟨n, hx n⟩) hg

/-- A write that fails, or goes well. -/
theorem Cuts.write {y : Store Unit} {k : Unit → Store β}
    (hy : ∀ n, y ⟨d, failedWrite n⟩ = atomicWriteFile u ⟨d, failedWrite n⟩)
    (hk : Cuts (k ()) (u d) P) : Cuts (y >>= k) d (fun d' => d' = d ∨ P d') := by
  rintro d' (rfl | hd')
  · obtain ⟨e, he⟩ := run_write_zero (d := d') (u := u)
    exact ⟨0, e, _, bind_error ((hy 0).trans he), rfl⟩
  · obtain ⟨N, e, w, hrun, hw⟩ := hk d' hd'
    exact ⟨N + 1, e, w, (bind_ok ((hy (N + 1)).trans run_write_succ)).trans hrun, hw⟩

/-- What comes after the failure does not matter. -/
theorem Cuts.bind_left (hx : Cuts x d P) : Cuts (x >>= g) d P := by
  intro d' hd'
  obtain ⟨N, e, w, hrun, hw⟩ := hx d' hd'
  exact ⟨N, e, w, bind_error hrun, hw⟩

/-- The last write of a program. -/
theorem Cuts.last : Cuts (atomicWriteFile u) d (· = d) := by
  rintro d' rfl
  obtain ⟨e, he⟩ := run_write_zero (d := d') (u := u)
  exact ⟨0, e, _, he, rfl⟩

theorem Cuts.none : Cuts x d fun _ => False := fun _ h => h.elim

theorem run_writeLimineConf {conf : LimineConf} (n : Nat) :
    writeLimineConf conf ⟨d, failedWrite n⟩ =
      atomicWriteFile (Disk.setLimineConf conf) ⟨d, failedWrite n⟩ :=
  bind_ok (attempt_ok (run_syscall (failAt_of_ne (by decide))))

theorem Passes.bind (hx : Passes x d a d₁) (hg : Passes (g a) d₁ b d₂) :
    Passes (x >>= g) d b d₂ := by
  intro n
  obtain ⟨n₁, hn₁⟩ := hg n
  obtain ⟨N, hN⟩ := hx n₁
  exact ⟨N, (bind_ok hN).trans hn₁⟩

theorem Passes.reads (hx : ∀ n, x ⟨d, failedWrite n⟩ = .ok a ⟨d, failedWrite n⟩)
    (hg : Passes (g a) d b d₂) : Passes (x >>= g) d b d₂ :=
  .bind (fun n => ⟨n, hx n⟩) hg

/-! ### Writes whose failure is ignored -/

theorem read_failedWrite {n : Nat} : failedWrite n .read = [] := failAt_of_ne (by decide)

theorem mkdir_failedWrite {n : Nat} : failedWrite n .mkdir = [] := failAt_of_ne (by decide)

theorem delete_failedWrite {n : Nat} : failedWrite n .delete = [] := failAt_of_ne (by decide)

theorem passes_failOldManifest (old target : UInt32) (d : Disk) :
    Passes (failOldManifest old target) d () (failManifest old target d) := by
  intro n
  by_cases hne : old = target
  · refine ⟨n, (onlyIf_neg (not_not.2 hne)).trans ?_⟩
    rw [failManifest]
    split
    · rw [if_neg fun h => h.1 hne]
    · rfl
  · simp only [failManifest, failOldManifest, onlyIf_pos hne]
    rcases hman : d.manifests old with - | man
    · exact ⟨n, bind_ok (attempt_error (run_loadManifest_none hman))⟩
    · have hload (n : Nat) := attempt_ok (run_loadManifest hman (read_failedWrite (n := n)))
      by_cases hc : man.status = .candidate
      · refine ⟨n + 1, (bind_ok (hload _)).trans ?_⟩
        refine (onlyIf_pos hc).trans ((bind_ok (attempt_ok run_write_succ)).trans ?_)
        dsimp only
        rw [if_pos ⟨hne, hc⟩]
        rfl
      · refine ⟨n, (bind_ok (hload n)).trans ((onlyIf_neg hc).trans ?_)⟩
        dsimp only
        rw [if_neg fun h => hc h.2]

/-! ### Initialisation -/

/-- The disk with the files that `init_if_needed` adds where they are missing. -/
def initialized (digestHex : String → String) (d : Disk) : Disk :=
  { d with
    registry := some (d.registry.getD .baseline)
    manifests := update d.manifests defaultBaselineGenId
      (some ((d.manifests defaultBaselineGenId).getD (baselineManifest digestHex)))
    bootState := some (d.bootState.getD
      (BootState.new defaultBaselineGenId defaultBaselineGenId).toRecord) }

theorem ready_initialized (hk : d.Keyed)
    (digestHex : String → String) :
    (initialized digestHex d).Ready (d.registry.getD .baseline) where
  registry := rfl
  baseline := by simp [initialized]
  bootState := by simp [initialized]
  keyed i man h := by
    rcases eq_or_ne i defaultBaselineGenId with rfl | hne
    · simp only [initialized, update_self, Option.some.injEq] at h
      rcases hb : d.manifests defaultBaselineGenId with - | man'
      · rw [← h, hb]
        rfl
      · rw [hb] at h
        exact h ▸ hk _ man' hb
    · simp only [initialized, update_of_ne hne] at h
      exact hk i man h

theorem passes_saveMissing {α : Type} (file : Disk → Option α) (set : α → Disk → Disk) {a : α}
    (hset : ∀ x, file d = some x → set x d = d) :
    Passes (onlyIf (file d = none) (atomicWriteFile (set a))) d ()
      (set ((file d).getD a) d) := by
  intro n
  rcases hfile : file d with - | x
  · exact ⟨n + 1, (onlyIf_pos rfl).trans run_write_succ⟩
  · refine ⟨n, (onlyIf_neg nofun).trans ?_⟩
    rw [Option.getD_some, hset x hfile]

variable (digestHex : String → String) (reg : GenerationRegistry)

theorem passes_setup (d : Disk) :
    Passes (initIfNeeded digestHex) d () (initialized digestHex d) := by
  refine .reads (fun n => run_syscall mkdir_failedWrite)
    (.reads (fun n => run_syscall mkdir_failedWrite) ?_)
  refine .reads (fun n => run_disk) (.bind (passes_saveMissing (·.registry) Disk.setRegistry
    fun reg hreg => by rw [Disk.setRegistry, ← hreg]) ?_)
  refine .reads (fun n => run_disk) (.bind (passes_saveMissing (·.manifests defaultBaselineGenId)
    (fun man d => { d with manifests := update d.manifests defaultBaselineGenId (some man) })
    fun man hman => by rw [← hman, update_eq_self]) ?_)
  exact .reads (fun n => run_disk) (passes_saveMissing (·.bootState)
    (fun t d => { d with bootState := some t }) fun t ht => by rw [← ht])

theorem passes_loadRegistry_none (hr : d.registry = none) :
    Passes (loadRegistry digestHex) d .baseline (initialized digestHex d) := by
  have hbaseline : (initialized digestHex d).registry = some .baseline := by
    rw [initialized, hr]
    rfl
  have hinit : Passes (onlyIf (d.registry = none) (initIfNeeded digestHex)) d ()
      (initialized digestHex d) := fun n =>
    (passes_setup digestHex d n).imp fun N hN => (onlyIf_pos hr).trans hN
  exact .reads (fun n => run_disk)
    (.bind hinit fun n => ⟨n, run_readFile hbaseline read_failedWrite⟩)

/-! ### Deletions and sweeps -/

/-- The disk without the directory and the snapshot of a generation. -/
def wipe (id : UInt32) (d : Disk) : Disk :=
  { d with
    genDirs := update d.genDirs id false
    rootfs := update d.rootfs id false }

/-- The disk with the manifest of a generation marked pruned, if there is one. -/
def pruneManifest (id : UInt32) (d : Disk) : Disk :=
  match d.manifests id with
  | some man => d.setManifest { man with status := .pruned }
  | none => d

/-- The disk after a sweep in which nothing fails. -/
def sweep (ids : List UInt32) (d : Disk) : Disk :=
  ids.foldl (fun d id => pruneManifest id (wipe id d)) d

variable {f : Faults Syscall}

theorem run_deleteSnapshot (hf : f .delete = []) (id : UInt32) (d : Disk) :
    deleteSnapshot id ⟨d, f⟩ =
      .ok () ⟨{ d with rootfs := update d.rootfs id false }, f⟩ := by
  by_cases hr : d.rootfs id = true
  · exact (bind_ok run_disk).trans ((onlyIf_pos hr).trans (bind_ok (run_syscall hf)))
  · have hsame : update d.rootfs id false = d.rootfs := by
      have hfalse : d.rootfs id = false := by simpa using hr
      rw [← hfalse]
      exact update_eq_self ..
    rw [hsame]
    exact (bind_ok run_disk).trans (onlyIf_neg hr)

theorem run_removeGenDir (hf : f .delete = []) (id : UInt32) (d : Disk) :
    removeGenDir id ⟨d, f⟩ = .ok () ⟨wipe id d, f⟩ :=
  bind_ok (run_syscall hf)

theorem run_deleteAll (hf : f .delete = []) (id : UInt32) (d : Disk) {k : Store α} :
    (do
      let _ ← attempt (deleteSnapshot id)
      let _ ← attempt (removeGenDir id)
      k) ⟨d, f⟩ = k ⟨wipe id d, f⟩ := by
  refine (bind_ok (attempt_ok (run_deleteSnapshot hf id d))).trans
    ((bind_ok (attempt_ok (run_removeGenDir hf id _))).trans ?_)
  simp only [wipe, update_idem]

theorem run_pruneOne_none (hdel : f .delete = []) (hman : d.manifests id = none) :
    pruneOne reg id ⟨d, f⟩ =
      .ok (markPruned reg id) ⟨pruneManifest id (wipe id d), f⟩ := by
  have hwiped : (wipe id d).manifests id = none := hman
  refine (run_deleteAll hdel id d).trans
    ((bind_ok (attempt_error (run_loadManifest_none hwiped))).trans ?_)
  rw [pruneManifest, hwiped]
  rfl

theorem run_pruneOne_some {f' : Faults Syscall}
    {man : GenerationManifest} (hdel : f .delete = []) (hread : f .read = [])
    (hman : d.manifests id = some man)
    (hsave : ∀ u d, atomicWriteFile u ⟨d, f⟩ = .ok () ⟨u d, f'⟩) :
    pruneOne reg id ⟨d, f⟩ =
      .ok (markPruned reg id) ⟨pruneManifest id (wipe id d), f'⟩ := by
  have hwiped : (wipe id d).manifests id = some man := hman
  have hignored : (do let _ ← attempt (saveManifest { man with status := .pruned }) : Store Unit)
      ⟨wipe id d, f⟩ = .ok () ⟨(wipe id d).setManifest { man with status := .pruned }, f'⟩ :=
    bind_ok (attempt_ok (hsave _ _))
  refine (run_deleteAll hdel id d).trans
    ((bind_ok (attempt_ok (run_loadManifest hwiped hread))).trans ?_)
  refine (bind_ok (ifOk_ok.trans hignored)).trans ?_
  rw [pruneManifest, hwiped]
  rfl

theorem passes_pruneOne (id : UInt32) (d : Disk) :
    Passes (pruneOne reg id) d (markPruned reg id) (pruneManifest id (wipe id d)) := by
  intro n
  rcases hman : d.manifests id with - | man
  · exact ⟨n, run_pruneOne_none reg delete_failedWrite hman⟩
  · exact ⟨n + 1, run_pruneOne_some reg delete_failedWrite read_failedWrite hman
      fun _ _ => run_write_succ⟩

theorem passes_foldlM_pruneOne (ids : List UInt32) (reg : GenerationRegistry) (d : Disk) :
    Passes (ids.foldlM pruneOne reg) d (ids.foldl markPruned reg) (sweep ids d) := by
  induction ids generalizing d reg with
  | nil => exact fun n => ⟨n, rfl⟩
  | cons id ids ih => exact .bind (passes_pruneOne reg id d) (ih _ _)

end

/-! ## The writes of a call -/

/-- The writes of a retention sweep: the manifests, and the registry if there is anything to do. -/
def sweepWrites (reg : GenerationRegistry) : List (Disk → Disk) :=
  if reg.prunable = [] then []
  else reg.prunable.map pruneManifest ++ [Disk.setRegistry (prunedRegistry reg)]

/-- The call passes its checks on `d`, and the writes it then makes are `ws`, in order. -/
def Plans (m : Manager) (env : Env) (reg : GenerationRegistry) (d : Disk) (op : Op)
    (ws : List (Disk → Disk)) : Prop :=
  match op with
  | .create .. => False
  | .activate genId => ∃ man, ActivateGuard d reg genId man ∧ ws = activateWrites m reg man genId
  | .attest genId caller => ∃ b man target, AttestGuard d genId b man target ∧ caller.uid = 0 ∧
    (m.evaluate env).isPromotable = true ∧
    ws = attestWrites m reg b man target ++ sweepWrites (markHealthy reg target)
  | .rollback targetId => targetId.getD reg.fallbackGenerationId ∈ reg.ids ∧
    ws = failManifest reg.currentGenerationId (targetId.getD reg.fallbackGenerationId) ::
      rollbackWrites m reg (targetId.getD reg.fallbackGenerationId)
  | .setPinned id pinned =>
    (pinned = true ∨ ¬(id = reg.currentGenerationId ∨ id = reg.fallbackGenerationId)) ∧
    ws = [pinManifest id pinned, Disk.setRegistry (reg.pin id pinned)]

/-- The registry is `reg`, and no file is missing that the call would add first. -/
def Opened (d : Disk) (reg : GenerationRegistry) (op : Op) : Prop :=
  d.registry = some reg ∧
    match op with
    | .create .. | .activate _ | .attest .. | .rollback _ =>
      d.manifests defaultBaselineGenId ≠ none ∧ d.bootState ≠ none
    | .setPinned .. => True

theorem Opened.of_ready {d : Disk} {reg : GenerationRegistry} (hd : d.Ready reg) (op : Op) :
    Opened d reg op := by
  refine ⟨hd.registry, ?_⟩
  cases op with
  | create | activate | attest | rollback => exact ⟨hd.baseline, hd.bootState⟩
  | setPinned => trivial

/-- The files of the store and the boot loader configuration are the same. -/
structure SameFiles (d d' : Disk) : Prop where
  registry : d'.registry = d.registry
  manifests : d'.manifests = d.manifests
  bootState : d'.bootState = d.bootState
  limineConf : d'.limineConf = d.limineConf

theorem SameFiles.refl (d : Disk) : SameFiles d d := ⟨rfl, rfl, rfl, rfl⟩

def OnlyWrites (f : Faults Syscall) : Prop := ∀ k, k ≠ .write → f k = []

/-! ### Where each operation can be cut short -/

section

variable {m : Manager} {env : Env} {reg : GenerationRegistry} {d : Disk} {man : GenerationManifest}
  {targetId genId : Option UInt32} {caller : PeerCredentials} {b : BootState} {target : UInt32}
  {P : Disk → Prop} {ws : List (Disk → Disk)} {op : Op} {ids : List UInt32} {f : Faults Syscall}

theorem cuts_activate (hd : d.Ready reg) {genId : UInt32} (hg : ActivateGuard d reg genId man) :
    Cuts (m.activateCandidate genId) d
      (Before (fun _ => False) (activateWrites m reg man genId) d) := by
  refine .reads (fun n => run_initIfNeeded hd mkdir_failedWrite) ?_
  refine .reads (fun n => run_loadManifest hg.manifest read_failedWrite) ?_
  refine .reads (fun n => ensure_ok hg.status) ?_
  refine .reads (fun n => run_loadRegistry hd.registry read_failedWrite) ?_
  refine .reads (fun n => ensure_ok hg.parent) ?_
  refine .write (fun n => rfl) ?_
  refine .write (fun n => run_writeLimineConf n) ?_
  refine .write (fun n => rfl) ?_
  exact .write (fun n => rfl) .none

theorem cuts_rollback (hd : d.Ready reg) (ht : targetId.getD reg.fallbackGenerationId ∈ reg.ids) :
    Cuts (m.rollback targetId) d
      (Before (fun _ => False) (rollbackWrites m reg (targetId.getD reg.fallbackGenerationId))
        (failManifest reg.currentGenerationId (targetId.getD reg.fallbackGenerationId) d)) := by
  obtain ⟨s, hs⟩ := Option.isSome_iff_exists.1 (GenerationRegistry.getSummary_isSome.2 ht)
  refine .reads (fun n => run_initIfNeeded hd mkdir_failedWrite) ?_
  refine .reads (fun n => run_loadRegistry hd.registry read_failedWrite) ?_
  refine .reads (a := s) (fun n => by rw [hs]; rfl) ?_
  refine .after (passes_failOldManifest _ _ d) ?_
  refine .write (fun n => rfl) ?_
  refine .write (fun n => rfl) ?_
  exact .write (fun n => run_writeLimineConf n) .none

theorem cuts_setPinned (hr : d.registry = some reg) {pinned : Bool}
    (hallowed : pinned = true ∨ ¬(id = reg.currentGenerationId ∨ id = reg.fallbackGenerationId)) :
    Cuts (setPinned m.digestHex id pinned) d (· = pinManifest id pinned d) := by
  refine .reads (fun n => run_loadRegistry hr read_failedWrite) ?_
  refine .reads (fun n => ensure_ok hallowed) ?_
  rcases hman : d.manifests id with - | man
  · have hpin : pinManifest id pinned d = d := by rw [pinManifest, hman]
    rw [hpin]
    refine .reads (fun n => attempt_error (run_loadManifest_none hman)) ?_
    exact .reads (fun n => rfl) .last
  · have hpin : pinManifest id pinned d = d.setManifest { man with isPinned := pinned } := by
      rw [pinManifest, hman]
    rw [hpin]
    refine .reads (fun n => attempt_ok (run_loadManifest hman read_failedWrite)) ?_
    exact .after (fun n => ⟨n + 1, ifOk_ok.trans run_write_succ⟩) .last

theorem cuts_executeRetentionPrune (hr : d.registry = some reg) :
    Cuts m.executeRetentionPrune d
      (fun d' => reg.prunable ≠ [] ∧ d' = sweep reg.prunable d) := by
  rintro _ ⟨hne, rfl⟩
  have hsweep : Cuts (do
      let r ← loadRegistry m.digestHex
      let r ← reg.prunable.foldlM pruneOne r
      saveRegistry r) d (· = sweep reg.prunable d) := by
    refine .reads (fun n => run_loadRegistry hr read_failedWrite) ?_
    exact .after (passes_foldlM_pruneOne reg.prunable reg d) .last
  obtain ⟨N, e, w, hrun, hw⟩ := hsweep _ rfl
  refine ⟨N, e, w, ?_, hw⟩
  refine (bind_ok (run_prunableGenerations hr read_failedWrite)).trans ?_
  exact bind_error ((onlyIf_pos hne).trans hrun)

theorem cuts_attest (hd : d.Ready reg) (hg : AttestGuard d genId b man target)
    (huid : caller.uid = 0) (hok : (m.evaluate env).isPromotable = true) :
    Cuts (m.attestAndMarkHealthy env genId caller) d
      (Before (fun d' => (markHealthy reg target).prunable ≠ [] ∧
          d' = sweep (markHealthy reg target).prunable
            (applyAll (attestWrites m reg b man target) d))
        (attestWrites m reg b man target) d) := by
  obtain ⟨⟨t, ht, hb⟩, rfl, hman⟩ := hg
  refine .reads (fun n => run_initIfNeeded hd mkdir_failedWrite) ?_
  refine .reads (fun n => ensure_ok huid) ?_
  refine .reads (fun n => run_loadBootState ht hb read_failedWrite) ?_
  refine .reads (fun n => run_loadManifest hman read_failedWrite) ?_
  refine .reads (fun n => ensure_ok hok) ?_
  refine .write (fun n => rfl) ?_
  refine .write (fun n => rfl) ?_
  have hreg : ∀ u v, (Disk.setManifest u (.setBootState v d)).registry = some reg :=
    fun _ _ => hd.registry
  refine .reads (fun n => run_loadRegistry (hreg _ _) read_failedWrite) ?_
  refine .write (fun n => rfl) ?_
  refine .write (fun n => run_writeLimineConf n) ?_
  exact (cuts_executeRetentionPrune rfl).bind_left

/-! ### Which writes change nothing -/

/-- The write touches no directory and no snapshot. -/
def FileWrite (u : Disk → Disk) : Prop :=
  ∀ d, (u d).genDirs = d.genDirs ∧ (u d).rootfs = d.rootfs

theorem FileWrite.eq_self {u : Disk → Disk} (hu : FileWrite u) (h : SameFiles d (u d)) :
    u d = d := by
  have hd := hu d
  obtain ⟨hreg, hman, hboot, hconf⟩ := h
  generalize u d = d' at *
  cases d
  cases d'
  simp_all

theorem before_of {d' : Disk} (h : P d') : Before P ws d d' := by
  induction ws generalizing d with
  | nil => exact h
  | cons u ws ih => exact .inr ih

/-- If the files are the same before each of the writes, every write but the last is idle. -/
theorem idle_of_before (hws : ∀ u ∈ ws, FileWrite u) (h : ∀ d', Before P ws d d' → SameFiles d d') :
    ∀ u ∈ ws.dropLast, u d = d := by
  induction ws with
  | nil => simp
  | cons u ws ih =>
    rcases ws with - | ⟨v, ws⟩
    · simp
    · rw [forall_mem_cons] at hws
      have hu : u d = d := hws.1.eq_self (h _ (.inr (.inl rfl)))
      have hrest : ∀ d', Before P (v :: ws) d d' → SameFiles d d' := fun d' hd' =>
        h d' (.inr (by rwa [hu]))
      rw [dropLast_cons_cons, forall_mem_cons]
      exact ⟨hu, ih hws.2 hrest⟩

theorem fileWrite_failManifest (old target : UInt32) : FileWrite (failManifest old target) := by
  intro d
  rw [failManifest]
  repeat' split
  all_goals exact ⟨rfl, rfl⟩

theorem fileWrite_pinManifest (id : UInt32) (pinned : Bool) :
    FileWrite (pinManifest id pinned) := by
  intro d
  rw [pinManifest]
  split <;> exact ⟨rfl, rfl⟩

/-- A manifest that a sweep has marked. -/
def prunedManifest (man : GenerationManifest) : GenerationManifest :=
  { man with status := .pruned }

theorem pruneManifest_manifests (hk : d.Keyed)
    (id i : UInt32) : (pruneManifest id d).manifests i =
      if i = id then (d.manifests i).map prunedManifest else d.manifests i := by
  rw [pruneManifest]
  split
  · next man hman =>
    obtain rfl : man.id = id := hk id man hman
    by_cases hi : i = man.id
    · rw [if_pos hi, hi, hman]
      exact update_self ..
    · rw [if_neg hi]
      exact update_of_ne hi ..
  · next hnone =>
    split
    · next hi => rw [hi, hnone]; rfl
    · rfl

theorem keyed_pruneManifest (hk : d.Keyed) (id : UInt32) : (pruneManifest id d).Keyed := by
  rw [pruneManifest]
  split
  · exact keyed_setManifest hk
  · exact hk

/-- A sweep changes the manifests of the generations it prunes, and no other file. -/
theorem sweep_files (hk : d.Keyed) (ids : List UInt32) :
    (sweep ids d).registry = d.registry ∧ (sweep ids d).bootState = d.bootState ∧
      (sweep ids d).limineConf = d.limineConf ∧ ∀ i, (sweep ids d).manifests i =
        if i ∈ ids then (d.manifests i).map prunedManifest else d.manifests i := by
  induction ids generalizing d with
  | nil => exact ⟨rfl, rfl, rfl, fun i => by simp [sweep]⟩
  | cons id ids ih =>
    have hwiped : (wipe id d).Keyed := hk
    obtain ⟨hreg, hboot, hconf, hman⟩ := ih (keyed_pruneManifest hwiped id)
    have hfiles : (pruneManifest id (wipe id d)).registry = d.registry ∧
        (pruneManifest id (wipe id d)).bootState = d.bootState ∧
        (pruneManifest id (wipe id d)).limineConf = d.limineConf := by
      rw [pruneManifest]
      split <;> exact ⟨rfl, rfl, rfl⟩
    refine ⟨hreg.trans hfiles.1, hboot.trans hfiles.2.1, hconf.trans hfiles.2.2, fun i => ?_⟩
    have hone : (pruneManifest id (wipe id d)).manifests i =
        if i = id then (d.manifests i).map prunedManifest else d.manifests i :=
      pruneManifest_manifests hwiped id i
    refine (hman i).trans ?_
    by_cases hmem : i ∈ ids
    · rw [if_pos hmem, if_pos (mem_cons_of_mem _ hmem), hone]
      split
      · rw [Option.map_map]
        rfl
      · rfl
    · rw [if_neg hmem, hone]
      by_cases hi : i = id
      · rw [if_pos hi, if_pos (hi ▸ mem_cons_self)]
      · rw [if_neg hi, if_neg (by simp [hi, hmem])]

theorem pruneManifest_eq_self (hk : d.Keyed) :
    pruneManifest id d = d ↔ (d.manifests id).map prunedManifest = d.manifests id := by
  constructor
  · intro h
    have hone := pruneManifest_manifests hk id id
    rw [if_pos rfl, h] at hone
    exact hone.symm
  · intro h
    rw [pruneManifest]
    split
    · next man hman =>
      have hsame : { man with status := .pruned } = man := by
        rw [hman] at h
        exact Option.some.inj h
      have hstored : d.manifests man.id = some man := by
        rw [hk id man hman]
        exact hman
      rw [hsame, Disk.setManifest, ← hstored, update_eq_self]
    · rfl

/-! ## All or nothing -/

/-- A call that creates nothing is the same program under any plan of faults. -/
theorem perform_faults (hop : op.creates = false) (f : Faults Syscall) :
    Call.perform m ⟨op, { env with faults := f }⟩ = Call.perform m ⟨op, env⟩ := by
  cases op with
  | create => cases hop
  | activate | attest | rollback | setPinned => rfl

/-- Whichever writes fail, a call that returns an error leaves the files as they were. -/
def AllOrNothing (m : Manager) (env : Env) (d : Disk) (op : Op) : Prop :=
  ∀ f, OnlyWrites f → ¬Succeeds m d ⟨op, { env with faults := f }⟩ →
    SameFiles d (step m d ⟨op, { env with faults := f }⟩)

theorem AllOrNothing.of_cuts (h : AllOrNothing m env d op) (hop : op.creates = false)
    (hcuts : Cuts (Call.perform m ⟨op, env⟩) d P) : ∀ d', P d' → SameFiles d d' := by
  intro d' hd'
  obtain ⟨N, e, w, hrun, rfl⟩ := hcuts d' hd'
  have hexec : exec (Call.perform m ⟨op, { env with faults := failedWrite N }⟩) d (failedWrite N) =
      (.error e, w.disk) := by
    rw [perform_faults hop, exec, hrun]
  have hsame := h (failedWrite N) fun _ => failAt_of_ne
  simp only [Succeeds, step, hexec] at hsame
  exact hsame Bool.false_ne_true

/-- If the files are the same after a whole sweep, its writes were idle, and so was the one before
it. -/
theorem idle_of_swept (hd : d.Ready reg)
    (hidle : ∀ u ∈ (attestWrites m reg b man target).dropLast, u d = d)
    (h : SameFiles d (sweep ids (applyAll (attestWrites m reg b man target) d))) :
    (∀ u ∈ attestWrites m reg b man target, u d = d) ∧
      ∀ u ∈ ids.map pruneManifest, u d = d := by
  have hfirst : applyAll (attestWrites m reg b man target) d = .setLimineConf
      (m.bootGenerator.generate (markHealthy reg target) none) d := by
    simp only [attestWrites, dropLast_cons_cons, forall_mem_cons] at hidle
    simp only [attestWrites, applyAll, foldl_cons, foldl_nil, hidle.1, hidle.2.1, hidle.2.2.1]
  rw [hfirst] at h
  obtain ⟨-, -, hconf, hman⟩ := sweep_files (d := .setLimineConf
    (m.bootGenerator.generate (markHealthy reg target) none) d) hd.keyed ids
  have hlast : .setLimineConf
      (m.bootGenerator.generate (markHealthy reg target) none) d = d :=
    FileWrite.eq_self (fun _ => ⟨rfl, rfl⟩) ⟨rfl, rfl, rfl, hconf.symm.trans h.limineConf⟩
  refine ⟨?_, ?_⟩
  · simp only [attestWrites, dropLast_cons_cons, forall_mem_cons] at hidle
    exact forall_mem_attestWrites.2 ⟨hidle.1, hidle.2.1, hidle.2.2.1, hlast⟩
  · rw [forall_mem_map]
    intro id hid
    have hid' := hman id
    rw [if_pos hid, h.manifests] at hid'
    exact (pruneManifest_eq_self hd.keyed).2 hid'.symm

/-- The checks of the plan, and then every write but the last is idle. -/
theorem AllOrNothing.idle (h : AllOrNothing m env d op) (hd : Opened d reg op)
    (hk : d.Keyed) (hws : Plans m env reg d op ws) :
    ∀ u ∈ ws.dropLast, u d = d := by
  cases op with
  | create => exact hws.elim
  | activate genId =>
    obtain ⟨man, hg, rfl⟩ := hws
    have hready : d.Ready reg := ⟨hd.1, hd.2.1, hd.2.2, hk⟩
    refine idle_of_before (forall_mem_activateWrites.2 ?_)
      (h.of_cuts rfl (cuts_activate hready hg).bind_left)
    exact ⟨fun _ => ⟨rfl, rfl⟩, fun _ => ⟨rfl, rfl⟩, fun _ => ⟨rfl, rfl⟩, fun _ => ⟨rfl, rfl⟩⟩
  | attest genId caller =>
    obtain ⟨b, man, target, hg, huid, hok, rfl⟩ := hws
    have hready : d.Ready reg := ⟨hd.1, hd.2.1, hd.2.2, hk⟩
    have hfiles := h.of_cuts rfl (cuts_attest hready hg huid hok).bind_left
    have hidle := idle_of_before (forall_mem_attestWrites.2 ⟨fun _ => ⟨rfl, rfl⟩,
      fun _ => ⟨rfl, rfl⟩, fun _ => ⟨rfl, rfl⟩, fun _ => ⟨rfl, rfl⟩⟩) hfiles
    rw [sweepWrites]
    split
    · rw [append_nil]
      exact hidle
    · next hne =>
      -- the sweep is cut short at its last write, with all manifests marked
      have hswept := hfiles _ (before_of ⟨hne, rfl⟩)
      rw [← append_assoc, dropLast_concat, forall_mem_append]
      exact idle_of_swept hready hidle hswept
  | rollback targetId =>
    obtain ⟨ht, rfl⟩ := hws
    have hready : d.Ready reg := ⟨hd.1, hd.2.1, hd.2.2, hk⟩
    have hfiles := h.of_cuts rfl (cuts_rollback hready ht).bind_left
    have hfirst := (fileWrite_failManifest reg.currentGenerationId
      (targetId.getD reg.fallbackGenerationId)).eq_self (hfiles _ (.inl rfl))
    rw [hfirst] at hfiles
    have hrest := idle_of_before (forall_mem_rollbackWrites.2 ⟨fun _ => ⟨rfl, rfl⟩,
      fun _ => ⟨rfl, rfl⟩, fun _ => ⟨rfl, rfl⟩⟩) hfiles
    exact forall_mem_cons.2 ⟨hfirst, hrest⟩
  | setPinned id pinned =>
    obtain ⟨hallowed, rfl⟩ := hws
    have hfirst := (fileWrite_pinManifest id pinned).eq_self
      (h.of_cuts rfl (cuts_setPinned hd.1 hallowed) _ rfl)
    exact forall_mem_cons.2 ⟨hfirst, by simp⟩

/-- If a sweep has only manifests to mark that are marked already, the files stay the same. -/
theorem SameFiles.of_swept {d' : Disk} (hk : d.Keyed)
    (hidle : ∀ id ∈ ids, pruneManifest id d = d) (h : Swept ids d d') : SameFiles d d' := by
  refine ⟨h.registry, ?_, h.bootState, h.limineConf⟩
  funext i
  rcases h.manifests i with hsame | ⟨hi, man, hman, hpruned⟩
  · exact hsame
  · have hmap := (pruneManifest_eq_self hk).1 (hidle i hi)
    rw [hman] at hmap
    rw [hpruned, hman]
    exact hmap

theorem spec_activate_idle (hd : d.Ready reg) {genId : UInt32}
    (hidle : ∀ man, ActivateGuard d reg genId man →
      ∀ u ∈ (activateWrites m reg man genId).dropLast, u d = d) :
    Spec f (m.activateCandidate genId) d (fun _ _ => True) (fun _ => SameFiles d) := by
  have hsame : SameFiles d d := .refl d
  refine spec_activate_checks hd genId (fun _ => hsame) fun man hg => ?_
  have hws := hidle man hg
  simp only [activateWrites, dropLast_cons_cons, forall_mem_cons] at hws
  obtain ⟨hboot, hconf, hman, -⟩ := hws
  refine .bind (spec_atomicWriteFile ?_ fun _ _ => hsame)
  rw [hboot]
  refine .bind (spec_writeLimineConf ?_ fun _ _ => hsame)
  rw [hconf]
  refine .bind (spec_atomicWriteFile ?_ fun _ _ => hsame)
  rw [hman]
  exact .bind (spec_atomicWriteFile (.pure trivial) fun _ _ => hsame)

theorem spec_rollback_idle (hd : d.Ready reg)
    (hidle : targetId.getD reg.fallbackGenerationId ∈ reg.ids →
      ∀ u ∈ (failManifest reg.currentGenerationId (targetId.getD reg.fallbackGenerationId) ::
        rollbackWrites m reg (targetId.getD reg.fallbackGenerationId)).dropLast, u d = d) :
    Spec f (m.rollback targetId) d (fun _ _ => True) (fun _ => SameFiles d) := by
  have hsame : SameFiles d d := .refl d
  refine spec_rollback_checks hd targetId (fun _ => hsame) fun s hmem => ?_
  have hws := hidle hmem
  simp only [rollbackWrites, dropLast_cons_cons, forall_mem_cons] at hws
  obtain ⟨hfail, hboot, hreg, -⟩ := hws
  refine .bind (.mono (spec_failOldManifest _ _) (fun _ d₁ hd₁ => ?_) fun _ _ h => h)
  obtain rfl : d₁ = d := by
    rcases hd₁ with rfl | ⟨-, rfl⟩
    · exact hfail
    · rfl
  refine .bind (spec_atomicWriteFile ?_ fun _ _ => hsame)
  rw [hboot]
  refine .bind (spec_atomicWriteFile ?_ fun _ _ => hsame)
  rw [hreg]
  exact .bind (spec_writeLimineConf (.pure trivial) fun _ _ => hsame)

theorem spec_executeRetentionPrune_nil (hr : d.registry = some reg) (hnil : reg.prunable = [])
    (hf : f .read = []) {E : ControlError → Disk → Prop} :
    Spec f m.executeRetentionPrune d (fun _ d' => d' = d) E := by
  refine .bind (.bind (spec_loadRegistry hr (.pure ?_) fun hrd _ => absurd hf hrd))
  exact .bind (.onlyIf (fun hne => absurd hnil hne) fun _ => .pure rfl)

theorem spec_attest_idle (hd : d.Ready reg) (hf : OnlyWrites f)
    (hidle : ∀ b man target, AttestGuard d genId b man target → caller.uid = 0 →
      (m.evaluate env).isPromotable = true → ∀ u ∈ (attestWrites m reg b man target ++
        sweepWrites (markHealthy reg target)).dropLast, u d = d) :
    Spec f (m.attestAndMarkHealthy env genId caller) d (fun _ _ => True)
      (fun _ => SameFiles d) := by
  have hsame : SameFiles d d := .refl d
  refine spec_attest_checks hd genId caller (fun _ => hsame) fun b man target hg huid hok => ?_
  have hws := hidle b man target hg huid hok
  simp only [attestWrites, cons_append, nil_append, dropLast_cons_cons, forall_mem_cons] at hws
  obtain ⟨hboot, hman, hreg, hrest⟩ := hws
  have hattested : d.registry = some (markHealthy reg target) := by
    rw [← hreg]
    rfl
  refine .bind (spec_atomicWriteFile ?_ fun _ _ => hsame)
  rw [hboot]
  refine .bind (spec_atomicWriteFile ?_ fun _ _ => hsame)
  rw [hman]
  refine .bind (spec_loadRegistry hd.registry ?_ fun _ _ => hsame)
  refine .bind (spec_atomicWriteFile ?_ fun _ _ => hsame)
  rw [hreg]
  refine .bind (spec_writeLimineConf ?_ fun _ _ => hsame)
  by_cases hnil : (markHealthy reg target).prunable = []
  · -- the configuration was the last write
    have hsaved : ∀ conf, (d.setLimineConf conf).registry =
        some (markHealthy reg target) := fun _ => hattested
    exact .bind (.mono (spec_executeRetentionPrune_nil (hsaved _) hnil
      (hf .read (by decide))) (fun _ _ _ => .pure trivial) fun _ _ h => h)
  · rw [sweepWrites, if_neg hnil, ← cons_append, dropLast_concat, forall_mem_cons] at hrest
    rw [hrest.1]
    exact .bind (.mono (spec_executeRetentionPrune hattested) (fun _ _ _ => .pure trivial)
      fun _ _ h => .of_swept hd.keyed (forall_mem_map.1 hrest.2) (h.2.swept hd.keyed))

/-- **A call whose writes are idle but for the last** leaves the files as they were when it
fails. -/
theorem spec_idle (hd : Opened d reg op) (hk : d.Keyed)
    (hop : op.creates = false) (hf : OnlyWrites f)
    (hidle : ∀ ws, Plans m env reg d op ws → ∀ u ∈ ws.dropLast, u d = d) :
    Spec f (Call.perform m ⟨op, env⟩) d (fun _ _ => True) (fun _ => SameFiles d) := by
  have hdone : ∀ {α : Type} {x : Store α}, Spec f x d (fun _ _ => True) (fun _ => SameFiles d) →
      Spec f (x >>= fun _ => pure ()) d (fun _ _ => True) (fun _ => SameFiles d) := fun hx =>
    .bind (.mono hx (fun _ _ _ => .pure trivial) fun _ _ h => h)
  cases op with
  | create => cases hop
  | activate genId =>
    exact hdone (spec_activate_idle ⟨hd.1, hd.2.1, hd.2.2, hk⟩ fun man hg =>
      hidle _ ⟨man, hg, rfl⟩)
  | attest genId caller =>
    exact hdone (spec_attest_idle ⟨hd.1, hd.2.1, hd.2.2, hk⟩ hf fun b man target hg huid hok =>
      hidle _ ⟨b, man, target, hg, huid, hok, rfl⟩)
  | rollback targetId =>
    exact hdone (spec_rollback_idle ⟨hd.1, hd.2.1, hd.2.2, hk⟩ fun hmem => hidle _ ⟨hmem, rfl⟩)
  | setPinned id pinned =>
    by_cases hallowed :
        pinned = true ∨ ¬(id = reg.currentGenerationId ∨ id = reg.fallbackGenerationId)
    · have hpin : pinManifest id pinned d = d :=
        hidle _ ⟨hallowed, rfl⟩ _ (by simp)
      refine .mono (spec_setPinned hd.1 id pinned) (fun _ _ _ => trivial) ?_
      rintro _ d' (rfl | ⟨-, rfl⟩)
      · exact .refl _
      · rw [hpin]
        exact .refl d
    · refine .bind (spec_loadRegistry hd.1 ?_ fun _ _ => .refl d)
      exact .bind (.ensure (fun h => absurd h hallowed) fun _ => .refl d)

/-! ### Calls on a disk that is not initialised -/

theorem spec_rejected (hd : d.Ready reg) (hop : op.creates = false)
    (hno : ∀ ws, ¬Plans m env reg d op ws) :
    Spec f (Call.perform m ⟨op, env⟩) d (fun _ _ => False) (fun _ _ => True) := by
  cases op with
  | create => cases hop
  | activate genId =>
    refine .bind (spec_activate_checks hd genId (fun _ => trivial) fun man hg => ?_)
    exact absurd ⟨man, hg, rfl⟩ (hno _)
  | attest genId caller =>
    refine .bind (spec_attest_checks hd genId caller (fun _ => trivial)
      fun b man target hg huid hok => ?_)
    exact absurd ⟨b, man, target, hg, huid, hok, rfl⟩ (hno _)
  | rollback targetId =>
    refine .bind (spec_rollback_checks hd targetId (fun _ => trivial) fun s hmem => ?_)
    exact absurd ⟨hmem, rfl⟩ (hno _)
  | setPinned id pinned =>
    refine .bind (spec_loadRegistry hd.registry ?_ fun _ _ => trivial)
    exact .bind (.ensure (fun hallowed => absurd ⟨hallowed, rfl⟩ (hno _)) fun _ => trivial)

theorem exists_failing (env : Env) (hd : d.Ready reg) (hop : op.creates = false) :
    ∃ n e w, Call.perform m ⟨op, env⟩ ⟨d, failedWrite n⟩ = .error e w := by
  by_cases hplan : ∃ ws, Plans m env reg d op ws
  · obtain ⟨ws, hws⟩ := hplan
    -- it passes its checks: at its first write that matters
    have hcut : ∃ d', ∃ N e w, Call.perform m ⟨op, env⟩ ⟨d, failedWrite N⟩ = .error e w ∧
        w.disk = d' := by
      cases op with
      | create => cases hop
      | activate genId =>
        obtain ⟨man, hg, -⟩ := hws
        exact ⟨_, (cuts_activate hd hg).bind_left _ (.inl rfl)⟩
      | attest genId caller =>
        obtain ⟨b, man, target, hg, huid, hok, -⟩ := hws
        exact ⟨_, (cuts_attest hd hg huid hok).bind_left _ (.inl rfl)⟩
      | rollback targetId => exact ⟨_, (cuts_rollback hd hws.1).bind_left _ (.inl rfl)⟩
      | setPinned id pinned => exact ⟨_, cuts_setPinned hd.registry hws.1 _ rfl⟩
    obtain ⟨-, N, e, w, hrun, -⟩ := hcut
    exact ⟨N, e, w, hrun⟩
  · have h := spec_rejected (m := m) hd hop (not_exists.1 hplan) (failedWrite 0) (.refl _)
    cases hrun : Call.perform m ⟨op, env⟩ ⟨d, failedWrite 0⟩ with
    | ok a w =>
      rw [hrun] at h
      exact h.1.elim
    | error e w => exact ⟨0, e, w, hrun⟩

/-- A call that begins with an initialisation leaves the new files behind when it fails. -/
theorem AllOrNothing.ready (h : AllOrNothing m env d op) (hop : op.creates = false)
    (hk : d.Keyed)
    (hinit : ∀ n, ∃ N, Call.perform m ⟨op, env⟩ ⟨d, failedWrite N⟩ =
      Call.perform m ⟨op, env⟩ ⟨initialized m.digestHex d, failedWrite n⟩) :
    ∃ reg, d.Ready reg := by
  have hd := ready_initialized hk m.digestHex
  obtain ⟨n, e, w, hrun⟩ := exists_failing (m := m) env hd hop
  obtain ⟨N, hN⟩ := hinit n
  have hsame : SameFiles d w.disk :=
    h.of_cuts hop (P := (· = w.disk)) (fun _ hw => ⟨N, e, w, hN.trans hrun, hw.symm⟩) _ rfl
  obtain ⟨reg, hready, -⟩ := ready_step_of_not_creates (m := m)
    (c := ⟨op, { env with faults := failedWrite n }⟩) hd hop
  have hstep : step m (initialized m.digestHex d) ⟨op, { env with faults := failedWrite n }⟩ =
      w.disk := by
    rw [step, perform_faults hop, exec, hrun]
  rw [hstep] at hready
  exact ⟨reg, hsame.registry.symm.trans hready.registry, hsame.manifests ▸ hready.baseline,
    hsame.bootState ▸ hready.bootState, hk⟩

theorem AllOrNothing.opened (h : AllOrNothing m env d op) (hop : op.creates = false)
    (hk : d.Keyed) : ∃ reg, Opened d reg op := by
  have hd := ready_initialized hk m.digestHex
  have hinit : ∀ n, ∃ N, initIfNeeded m.digestHex ⟨d, failedWrite N⟩ =
      initIfNeeded m.digestHex ⟨initialized m.digestHex d, failedWrite n⟩ := by
    intro n
    obtain ⟨N, hN⟩ := passes_setup m.digestHex d n
    exact ⟨N, hN.trans (run_initIfNeeded hd mkdir_failedWrite).symm⟩
  have hopened : (∃ reg, d.Ready reg) → ∃ reg, Opened d reg op := by
    rintro ⟨reg, hready⟩
    exact ⟨reg, .of_ready hready op⟩
  cases op with
  | create => cases hop
  | activate | attest | rollback =>
    refine hopened (h.ready hop hk fun n => ?_)
    obtain ⟨N, hN⟩ := hinit n
    exact ⟨N, bind_eq_bind (bind_eq_bind hN)⟩
  | setPinned id pinned =>
    -- pinning initialises the store only if there is no registry
    cases hr : d.registry with
    | some reg => exact ⟨reg, hr, trivial⟩
    | none =>
      refine hopened (h.ready hop hk fun n => ?_)
      obtain ⟨N, hN⟩ := passes_loadRegistry_none m.digestHex hr n
      have hbaseline : (initialized m.digestHex d).registry = some .baseline := by
        rw [initialized, hr]
        rfl
      exact ⟨N, bind_eq_bind (hN.trans (run_loadRegistry hbaseline read_failedWrite).symm)⟩

/-- **A failed call leaves no trace exactly when it has at most one write to make.**  Whichever
writes fail, a call that creates nothing and returns an error leaves every file as it was iff no
file is missing that the call would add first, and either the call is rejected by its checks or each
of its writes but the last would store what is there already. -/
theorem allOrNothing_iff {op : Op} (hk : ∀ i man, d.manifests i = some man → man.id = i)
    (hop : op.creates = false) :
    AllOrNothing m env d op ↔ ∃ reg, Opened d reg op ∧
      ∀ ws, Plans m env reg d op ws → ∀ u ∈ ws.dropLast, u d = d := by
  constructor
  · intro h
    obtain ⟨reg, hd⟩ := h.opened hop hk
    exact ⟨reg, hd, fun ws hws => h.idle hd hk hws⟩
  · rintro ⟨reg, hd, hidle⟩ f hf hfail
    have h := (spec_idle hd hk hop hf hidle).exec
    rw [← perform_faults hop f] at h
    unfold Succeeds at hfail
    unfold step
    split at h
    · next hexec =>
      rw [hexec] at hfail
      exact absurd rfl hfail
    · next hexec =>
      rw [hexec]
      exact h

end

/-- Pinning the baseline generation, whose manifest says that it is pinned. -/
theorem allOrNothing_iff_pinned :
    AllOrNothing sampleManager {} sampleStart (.setPinned 101 true) ↔
      ∃ reg, Opened sampleStart reg (.setPinned 101 true) ∧
        ∀ ws, Plans sampleManager {} reg sampleStart (.setPinned 101 true) ws →
          ∀ u ∈ ws.dropLast, u sampleStart = sampleStart :=
  allOrNothing_iff (stored_baselineDisk _).keyed rfl

/-- Generation 102 has been created.  Its activation saves the boot state of the trial and fails to
write the configuration: the boot state of the trial stays, and nothing else says that there is
one. -/
theorem activation_half_done :
    let d := step sampleManager sampleStart sampleCreate
    let c : Call := { op := .activate 102, env := { faults := failedWrite 1 } }
    ¬Succeeds sampleManager d c ∧ d.bootGeneration? = some 101 ∧
      (step sampleManager d c).bootGeneration? = some 102 ∧
      (step sampleManager d c).registry = d.registry ∧
      (step sampleManager d c).limineConf = d.limineConf ∧
      (step sampleManager d c).manifests 102 = d.manifests 102 := by
  decide +kernel

end Control
