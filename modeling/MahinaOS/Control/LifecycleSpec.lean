import MahinaOS.Control.Lifecycle

/-!
# What each lifecycle operation can do to the disk

One lemma per operation, saying once and for all which disks it can end in, with the guards it
passed on the way.  Every invariant of the control plane is derived from these; nothing else
unfolds the operations.

An operation that gets past its guards performs a fixed sequence of atomic writes.  If it returns
`Ok` all of them were made (`applyAll`); if it fails, the ones before the failure were
(`Within`).  It can fail after its guards only because of a fault, so under a fault plan that is
`Quiet` an operation that fails has changed nothing.

* `spec_createCandidate`, `spec_activateCandidate`, `spec_attestAndMarkHealthy`, `spec_rollback`
  and `spec_setPinned` are the specifications;
* `spec_activate_checks`, `spec_attest_checks` and `spec_rollback_checks` take an operation up to
  the point where it has passed its checks and has written nothing yet;
* `Swept` is what a retention sweep may have done to the files of the generations it prunes.
-/

namespace Control

open Faulty ListUpdate Function List

/-- Under this fault plan no system call fails. -/
def Quiet (f : Faults Syscall) : Prop := ∀ k, f k = []

instance (f : Faults Syscall) : Decidable (Quiet f) :=
  decidable_of_iff (f .write = [] ∧ f .read = [] ∧ f .mkdir = [] ∧ f .delete = [])
    ⟨fun ⟨h1, h2, h3, h4⟩ k => by cases k <;> assumption, fun h => ⟨h _, h _, h _, h _⟩⟩

def applyAll (ws : List (Disk → Disk)) (d : Disk) : Disk := ws.foldl (fun d u => u d) d

/-- The disk after the first few of a sequence of writes. -/
def Within (ws : List (Disk → Disk)) (d d' : Disk) : Prop := ∃ n, d' = applyAll (ws.take n) d

/-- A property that every write keeps holds after any number of them. -/
theorem Within.induction {P : Disk → Prop} {ws : List (Disk → Disk)} {d d' : Disk}
    (h : Within ws d d') (h0 : P d) (hws : ∀ u ∈ ws, ∀ d, P d → P (u d)) : P d' := by
  obtain ⟨n, rfl⟩ := h
  induction ws generalizing d n with
  | nil => simpa [applyAll] using h0
  | cons u ws ih =>
    rcases n with - | n
    · exact h0
    · exact ih (hws u mem_cons_self d h0) (fun v hv => hws v (mem_cons_of_mem _ hv)) n

/-- The disk of an operation that failed: unchanged if it failed at a guard, otherwise some disk
with `P`, which only a fault can cause. -/
def Interrupted (f₀ : Faults Syscall) (d : Disk) (P : Disk → Prop) (d' : Disk) : Prop :=
  d' = d ∨ ¬Quiet f₀ ∧ P d'

theorem not_quiet {f₀ : Faults Syscall} {k : Syscall} (h : f₀ k ≠ []) : ¬Quiet f₀ :=
  fun hq => h (hq k)

section

variable {m : Manager} {env : Env} {f₀ : Faults Syscall} {d : Disk} {reg : GenerationRegistry}
  {E : ControlError → Disk → Prop} {P : (Disk → Disk) → Prop} {man : GenerationManifest}
  {genId target id : UInt32} {ids : List UInt32} {Q : GenerationManifest → Disk → Prop}

theorem spec_writeLimineConf {conf : LimineConf} {Q : Unit → Disk → Prop}
    (hQ : Q () (d.setLimineConf conf)) (hE : f₀ .write ≠ [] → ∀ msg, E (.io msg) d) :
    Spec f₀ (Manager.writeLimineConf conf) d Q E := by
  refine .bind (.attempt (.syscall ?_ fun _ _ => ?_)) <;> exact spec_atomicWriteFile hQ hE

/-! ## Activation -/

/-- The writes of `activate_candidate`, in order. -/
def activateWrites (m : Manager) (reg : GenerationRegistry) (man : GenerationManifest)
    (genId : UInt32) : List (Disk → Disk) :=
  [Disk.setBootState (Manager.trialBootState reg genId),
   Disk.setLimineConf (m.bootGenerator.generate reg (some genId)),
   Disk.setManifest { man with status := .candidate },
   Disk.setRegistry (Manager.markCandidate reg genId)]

theorem forall_mem_activateWrites : (∀ u ∈ activateWrites m reg man genId, P u) ↔
      P (Disk.setBootState (Manager.trialBootState reg genId)) ∧
      P (Disk.setLimineConf (m.bootGenerator.generate reg (some genId))) ∧
      P (Disk.setManifest { man with status := .candidate }) ∧
      P (Disk.setRegistry (Manager.markCandidate reg genId)) := by
  simp [activateWrites]

/-- The guards `activate_candidate` passes before it writes anything. -/
structure ActivateGuard (d : Disk) (reg : GenerationRegistry) (genId : UInt32)
    (man : GenerationManifest) : Prop where
  manifest : d.manifests genId = some man
  status : man.status = .staged ∨ man.status = .candidate
  parent : man.parentId = some reg.currentGenerationId

/-- What an activation does once it has passed its checks. -/
def Manager.activateChecked (m : Manager) (reg : GenerationRegistry) (man : GenerationManifest)
    (genId : UInt32) : Store BootState := do
  saveBootState (trialBootState reg genId)
  writeLimineConf (m.bootGenerator.generate reg (some genId))
  saveManifest { man with status := .candidate }
  saveRegistry (markCandidate reg genId)
  pure (trialBootState reg genId)

theorem spec_activate_checks (hd : d.Ready reg) (genId : UInt32) {Q : BootState → Disk → Prop}
    (hreject : ∀ e, E e d) (hpass : ∀ man, ActivateGuard d reg genId man →
      Spec f₀ (m.activateChecked reg man genId) d Q E) :
    Spec f₀ (m.activateCandidate genId) d Q E := by
  refine .bind (spec_initIfNeeded hd ?_ fun _ _ => hreject _)
  refine .bind (spec_loadManifest (fun man hman => ?_) (fun _ => hreject _) fun _ _ => hreject _)
  refine .bind (.ensure (fun hstatus => ?_) fun _ => hreject _)
  refine .bind (spec_loadRegistry hd.registry ?_ fun _ _ => hreject _)
  exact .bind (.ensure (fun hparent => hpass man ⟨hman, hstatus, hparent⟩) fun _ => hreject _)

/-! ## Pinning -/

/-- The disk after `set_pinned` has updated the manifest of `id`, if there is one. -/
def pinManifest (id : UInt32) (pinned : Bool) (d : Disk) : Disk :=
  match d.manifests id with
  | some man => d.setManifest { man with isPinned := pinned }
  | none => d

theorem spec_setPinned (hr : d.registry = some reg) (id : UInt32) (pinned : Bool) :
    Spec f₀ (setPinned m.digestHex id pinned) d
      (fun _ d' => ∃ d₁, (d₁ = pinManifest id pinned d ∨ ¬Quiet f₀ ∧ d₁ = d) ∧
        d' = d₁.setRegistry (reg.pin id pinned))
      (fun _ => Interrupted f₀ d fun d' => d' = pinManifest id pinned d) := by
  refine .bind (spec_loadRegistry hr ?_ fun _ _ => .inl rfl)
  refine .bind (.ensure (fun _ => ?_) fun _ => .inl rfl)
  -- the registry is saved from whichever disk the manifest update leaves
  have hsave : ∀ d₁, (d₁ = pinManifest id pinned d ∨ ¬Quiet f₀ ∧ d₁ = d) →
      Spec f₀ (saveRegistry (reg.pin id pinned)) d₁
        (fun _ d' => ∃ d₁, (d₁ = pinManifest id pinned d ∨ ¬Quiet f₀ ∧ d₁ = d) ∧
          d' = d₁.setRegistry (reg.pin id pinned))
        (fun _ => Interrupted f₀ d fun d' => d' = pinManifest id pinned d) := by
    intro d₁ hd₁
    refine spec_atomicWriteFile ⟨d₁, hd₁, rfl⟩ fun hw _ => ?_
    rcases hd₁ with rfl | ⟨-, rfl⟩
    · exact .inr ⟨not_quiet hw, rfl⟩
    · exact .inl rfl
  refine .bind (.attempt (spec_loadManifest (fun man hman => ?_) (fun hnone => ?_) fun hrd _ => ?_))
  · have hpin : pinManifest id pinned d = d.setManifest { man with isPinned := pinned } := by
      rw [pinManifest, hman]
    exact .bind (.ifOk
      (fun _ h => by
        cases h
        exact spec_atomicWriteFile (hsave _ (.inl hpin.symm)) fun _ _ => .inl rfl)
      fun _ h => by cases h)
  · have hpin : pinManifest id pinned d = d := by rw [pinManifest, hnone]
    exact .bind (.ifOk (fun _ h => by cases h) fun _ _ => hsave _ (.inl hpin.symm))
  · exact .bind (.ifOk (fun _ h => by cases h) fun _ _ => hsave _ (.inr ⟨not_quiet hrd, rfl⟩))

/-! ## Rollback -/

/-- The disk after a rollback has failed the manifest of a candidate it leaves. -/
def failManifest (old target : UInt32) (d : Disk) : Disk :=
  match d.manifests old with
  | some man =>
    if old ≠ target ∧ man.status = .candidate then d.setManifest { man with status := .failed }
    else d
  | none => d

/-- The writes of `rollback`, in order. -/
def rollbackWrites (m : Manager) (reg : GenerationRegistry) (target : UInt32) :
    List (Disk → Disk) :=
  [Disk.setBootState (Manager.rollbackBootState target),
   Disk.setRegistry (Manager.rollbackTo reg target),
   Disk.setLimineConf (m.bootGenerator.generate (Manager.rollbackTo reg target) none)]

theorem forall_mem_rollbackWrites :
    (∀ u ∈ rollbackWrites m reg target, P u) ↔
      P (Disk.setBootState (Manager.rollbackBootState target)) ∧
      P (Disk.setRegistry (Manager.rollbackTo reg target)) ∧
      P (Disk.setLimineConf (m.bootGenerator.generate (Manager.rollbackTo reg target) none)) := by
  simp [rollbackWrites]

theorem spec_failOldManifest (old target : UInt32) :
    Spec f₀ (Manager.failOldManifest old target) d
      (fun _ d₁ => d₁ = failManifest old target d ∨ ¬Quiet f₀ ∧ d₁ = d) E := by
  refine .onlyIf (fun hne => ?_) fun heq => .inl ?_
  · refine .bind (.attempt (spec_loadManifest (fun man hman => ?_) (fun hnone => ?_)
      fun hrd _ => ?_))
    · refine .ifOk (fun _ h => ?_) fun _ h => by cases h
      cases h
      refine .onlyIf (fun hc => ?_) fun hc => .inl ?_
      · have hfm : failManifest old target d = d.setManifest { man with status := .failed } := by
          simp only [failManifest, hman]
          exact if_pos ⟨hne, hc⟩
        exact .bind (.attempt (spec_atomicWriteFile (.pure (.inl hfm.symm))
          fun hw _ => .pure (.inr ⟨not_quiet hw, rfl⟩)))
      · simp only [failManifest, hman]
        exact (if_neg fun h => hc h.2).symm
    · refine .ifOk (fun _ h => by cases h) fun _ _ => .inl ?_
      rw [failManifest, hnone]
    · exact .ifOk (fun _ h => by cases h) fun _ _ => .inr ⟨not_quiet hrd, rfl⟩
  · rw [failManifest]
    split
    · exact (if_neg fun h => heq h.1).symm
    · rfl

/-- What a rollback does once it has found its target. -/
def Manager.rollbackChecked (m : Manager) (reg : GenerationRegistry) (target : UInt32)
    (summary : GenerationSummary) : Store GenerationSummary := do
  failOldManifest reg.currentGenerationId target
  saveBootState (rollbackBootState target)
  saveRegistry (rollbackTo reg target)
  writeLimineConf (m.bootGenerator.generate (rollbackTo reg target) none)
  pure summary

theorem spec_rollback_checks (hd : d.Ready reg) (targetId : Option UInt32)
    {Q : GenerationSummary → Disk → Prop} (hreject : ∀ e, E e d)
    (hpass : ∀ s, targetId.getD reg.fallbackGenerationId ∈ reg.ids →
      Spec f₀ (m.rollbackChecked reg (targetId.getD reg.fallbackGenerationId) s) d Q E) :
    Spec f₀ (m.rollback targetId) d Q E := by
  refine .bind (spec_initIfNeeded hd ?_ fun _ _ => hreject _)
  refine .bind (spec_loadRegistry hd.registry ?_ fun _ _ => hreject _)
  refine .bind (.orThrow (fun s hs => ?_) fun _ => hreject _)
  exact hpass s (GenerationRegistry.getSummary_isSome.1 (by rw [hs]; rfl))

/-! ## Deleting snapshots and directories -/

/-- Only the snapshot and the directory of generation `id` may have changed. -/
structure Cleared (id : UInt32) (d d' : Disk) : Prop where
  registry : d'.registry = d.registry
  manifests : d'.manifests = d.manifests
  bootState : d'.bootState = d.bootState
  limineConf : d'.limineConf = d.limineConf
  genDirs : ∀ i, i ≠ id → d'.genDirs i = d.genDirs i
  rootfs : ∀ i, i ≠ id → d'.rootfs i = d.rootfs i

theorem Cleared.refl (id : UInt32) (d : Disk) : Cleared id d d :=
  ⟨rfl, rfl, rfl, rfl, fun _ _ => rfl, fun _ _ => rfl⟩

variable {d₁ d₂ d₃ d' : Disk}

theorem Cleared.trans (h : Cleared id d₁ d₂) (h' : Cleared id d₂ d₃) : Cleared id d₁ d₃ where
  registry := h'.registry.trans h.registry
  manifests := h'.manifests.trans h.manifests
  bootState := h'.bootState.trans h.bootState
  limineConf := h'.limineConf.trans h.limineConf
  genDirs i hi := (h'.genDirs i hi).trans (h.genDirs i hi)
  rootfs i hi := (h'.rootfs i hi).trans (h.rootfs i hi)

theorem Cleared.of_update (id : UInt32) (d : Disk) (a b : Bool) :
    Cleared id d { d with
      genDirs := update d.genDirs id a
      rootfs := update d.rootfs id b } :=
  ⟨rfl, rfl, rfl, rfl, fun _ hi => update_of_ne hi _ _,
    fun _ hi => update_of_ne hi _ _⟩

theorem spec_deleteSnapshot (id : UInt32) :
    Spec f₀ (Manager.deleteSnapshot id) d (fun _ => Cleared id d) (fun _ => Cleared id d) := by
  refine .bind (.disk (.onlyIf (fun _ => ?_) fun _ => .refl id d))
  refine .bind (.syscall (.update ?_) fun _ _ => .refl id d)
  simpa using Cleared.of_update id d (d.genDirs id) false

/-- The same, and the directory with its snapshot is gone unless a deletion can fail. -/
structure Wiped (f₀ : Faults Syscall) (id : UInt32) (d d' : Disk) : Prop extends
    Cleared id d d' where
  gone : f₀ .delete = [] → d'.genDirs id = false ∧ d'.rootfs id = false

theorem Wiped.of_cleared (h : Wiped f₀ id d₂ d₃) (h' : Cleared id d₁ d₂) : Wiped f₀ id d₁ d₃ :=
  { h'.trans h.toCleared with gone := h.gone }

theorem spec_removeGenDir (id : UInt32) :
    Spec f₀ (Manager.removeGenDir id) d (fun _ => Wiped f₀ id d) (fun _ => Wiped f₀ id d) := by
  refine .bind (.syscall (.update ?_) fun hdel _ => ?_)
  · exact { Cleared.of_update id d false false with
      gone := fun _ => ⟨update_self .., update_self ..⟩ }
  · exact { Cleared.refl id d with gone := fun h => absurd h hdel }

/-- Both deletions, whatever becomes of them, as the retention sweep and `cleanup` make them. -/
theorem spec_deleteAll {α : Type} (id : UInt32) {k : Store α} {Q : α → Disk → Prop}
    (hk : ∀ d₁, Wiped f₀ id d d₁ → Spec f₀ k d₁ Q E) :
    Spec f₀ (do
      let _ ← attempt (Manager.deleteSnapshot id)
      let _ ← attempt (Manager.removeGenDir id)
      k) d Q E := by
  have hsecond : ∀ d₁, Cleared id d d₁ →
      Spec f₀ (do let _ ← attempt (Manager.removeGenDir id); k) d₁ Q E := fun d₁ h₁ =>
    .bind (.attempt (.mono (spec_removeGenDir id)
      (fun _ d₂ h₂ => hk d₂ (h₂.of_cleared h₁)) fun _ d₂ h₂ => hk d₂ (h₂.of_cleared h₁)))
  exact .bind (.attempt (.mono (spec_deleteSnapshot id) (fun _ => hsecond) fun _ => hsecond))

theorem spec_cleanup (id : UInt32) : Spec f₀ (Manager.cleanup id) d (fun _ => Wiped f₀ id d) E :=
  spec_deleteAll id fun _ h => .pure h

/-! ## The retention sweep -/

/-- What a sweep may have done to the files of the generations `ids`: their snapshots and
directories are gone or not, and their manifests are marked pruned or not. -/
structure Swept (ids : List UInt32) (d d' : Disk) : Prop where
  registry : d'.registry = d.registry
  bootState : d'.bootState = d.bootState
  limineConf : d'.limineConf = d.limineConf
  manifests : ∀ i, d'.manifests i = d.manifests i ∨
    i ∈ ids ∧ ∃ man, d.manifests i = some man ∧ d'.manifests i = some { man with status := .pruned }

theorem Swept.cons (h : Swept [id] d₁ d₂) (h' : Swept ids d₂ d₃) : Swept (id :: ids) d₁ d₃ where
  registry := h'.registry.trans h.registry
  bootState := h'.bootState.trans h.bootState
  limineConf := h'.limineConf.trans h.limineConf
  manifests i := by
    rcases h.manifests i with h1 | ⟨hi, man, hm, h1⟩ <;>
      rcases h'.manifests i with h2 | ⟨hi', man', hm', h2⟩
    · exact .inl (h2.trans h1)
    · exact .inr ⟨mem_cons_of_mem _ hi', man', h1 ▸ hm', h2⟩
    · exact .inr ⟨by simpa using .inl (mem_singleton.1 hi), man, hm, h2.trans h1⟩
    · rw [h1, Option.some.injEq] at hm'
      subst hm'
      exact .inr ⟨mem_cons_of_mem _ hi', man, hm, h2⟩

theorem Swept.keyed {d : Disk} (h : Swept ids d d') (hk : d.Keyed) : d'.Keyed := by
  intro i man hman
  rcases h.manifests i with h1 | ⟨-, man', hm', h1⟩
  · exact hk i man (h1 ▸ hman)
  · rw [h1, Option.some.injEq] at hman
    rw [← hman]
    exact hk i man' hm'

theorem Cleared.swept {d : Disk} (h : Cleared id d d') : Swept [id] d d' :=
  ⟨h.registry, h.bootState, h.limineConf, fun i => .inl (congrFun h.manifests i)⟩

/-- The snapshots and directories of all other generations are as they were. -/
structure Spares (ids : List UInt32) (d d' : Disk) : Prop where
  genDirs : ∀ i, i ∉ ids → d'.genDirs i = d.genDirs i
  rootfs : ∀ i, i ∉ ids → d'.rootfs i = d.rootfs i

theorem Spares.refl (ids : List UInt32) (d : Disk) : Spares ids d d :=
  ⟨fun _ _ => rfl, fun _ _ => rfl⟩

theorem Spares.cons (h : Spares [id] d₁ d₂) (h' : Spares ids d₂ d₃) : Spares (id :: ids) d₁ d₃ where
  genDirs i hi := by
    rw [mem_cons, not_or] at hi
    exact (h'.genDirs i hi.2).trans (h.genDirs i (by simpa using hi.1))
  rootfs i hi := by
    rw [mem_cons, not_or] at hi
    exact (h'.rootfs i hi.2).trans (h.rootfs i (by simpa using hi.1))

theorem Cleared.spares {d : Disk} (h : Cleared id d d') : Spares [id] d d' where
  genDirs i hi := h.genDirs i (by simpa using hi)
  rootfs i hi := h.rootfs i (by simpa using hi)

/-- What a sweep over `ids` may do: the manifests are certain where they carry their own ids. -/
structure SweepEffect (ids : List UInt32) (d d' : Disk) : Prop extends Spares ids d d' where
  swept : d.Keyed → Swept ids d d'

theorem SweepEffect.refl (ids : List UInt32) (d : Disk) : SweepEffect ids d d :=
  ⟨.refl ids d, fun _ => ⟨rfl, rfl, rfl, fun _ => .inl rfl⟩⟩

theorem SweepEffect.cons (h : SweepEffect [id] d₁ d₂)
    (h' : SweepEffect ids d₂ d₃) : SweepEffect (id :: ids) d₁ d₃ :=
  ⟨h.toSpares.cons h'.toSpares, fun hk => (h.swept hk).cons (h'.swept ((h.swept hk).keyed hk))⟩

theorem spec_pruneOne (id : UInt32) :
    Spec f₀ (Manager.pruneOne reg id) d
      (fun r d' => r = Manager.markPruned reg id ∧ SweepEffect [id] d d') E := by
  refine spec_deleteAll id fun d₁ h₁ => ?_
  have hdone : Spec f₀ (pure (Manager.markPruned reg id)) d₁
      (fun r d' => r = Manager.markPruned reg id ∧ SweepEffect [id] d d') E :=
    .pure ⟨rfl, h₁.spares, fun _ => h₁.swept⟩
  refine .bind (.attempt (spec_loadManifest (fun man hman => ?_) (fun _ => ?_) fun _ _ => ?_))
  · refine .bind (.ifOk (fun _ h => ?_) fun _ h => by cases h)
    cases h
    refine .bind (.attempt (spec_atomicWriteFile ?_ fun _ _ => .pure hdone))
    refine .pure (.pure ⟨rfl, ⟨h₁.spares.genDirs, h₁.spares.rootfs⟩, fun hk => ?_⟩)
    have hman' : d.manifests id = some man := congrFun h₁.manifests id ▸ hman
    obtain rfl : man.id = id := hk id man hman'
    refine ⟨h₁.registry, h₁.bootState, h₁.limineConf, fun i => ?_⟩
    simp only [Disk.setManifest]
    rcases eq_or_ne i man.id with rfl | hne
    · rw [update_self]
      exact .inr ⟨mem_singleton_self _, man, hman', rfl⟩
    · rw [update_of_ne hne]
      exact .inl (congrFun h₁.manifests i)
  · exact .bind (.ifOk (fun _ h => by cases h) fun _ _ => hdone)
  · exact .bind (.ifOk (fun _ h => by cases h) fun _ _ => hdone)

theorem spec_foldlM_pruneOne (ids : List UInt32) :
    Spec f₀ (ids.foldlM Manager.pruneOne reg) d
      (fun r d' => r = ids.foldl Manager.markPruned reg ∧ SweepEffect ids d d') E := by
  induction ids generalizing d reg with
  | nil => exact .pure ⟨rfl, .refl [] d⟩
  | cons id ids ih =>
    refine .bind (.mono (spec_pruneOne id) (fun r d₁ h₁ => ?_) fun _ _ h => h)
    obtain ⟨rfl, h₁⟩ := h₁
    exact .mono ih (fun r d₂ h₂ => ⟨h₂.1, h₁.cons h₂.2⟩) fun _ _ h => h

def prunedRegistry (reg : GenerationRegistry) : GenerationRegistry :=
  reg.prunable.foldl Manager.markPruned reg

theorem spec_executeRetentionPrune (hr : d.registry = some reg) :
    Spec f₀ m.executeRetentionPrune d
      (fun ids d' => ids = reg.prunable ∧
        ∃ d₁, SweepEffect reg.prunable d d₁ ∧ d' = d₁.setRegistry (prunedRegistry reg))
      (fun _ d' => ¬Quiet f₀ ∧ SweepEffect reg.prunable d d') := by
  have hnone : ∀ {k : Syscall}, f₀ k ≠ [] → ¬Quiet f₀ ∧ SweepEffect reg.prunable d d := fun hf =>
    ⟨not_quiet hf, .refl _ d⟩
  refine .bind (.bind (spec_loadRegistry hr (.pure ?_) fun hf _ => hnone hf))
  refine .bind (.onlyIf (fun _ => ?_) fun hne => ?_)
  · refine .bind (spec_loadRegistry hr ?_ fun hf _ => hnone hf)
    refine .bind (.mono (spec_foldlM_pruneOne reg.prunable) (fun r d₁ h₁ => ?_) fun _ _ h => h)
    obtain ⟨rfl, hsw⟩ := h₁
    refine spec_atomicWriteFile (.pure ⟨rfl, d₁, hsw, rfl⟩) fun hw _ => ⟨not_quiet hw, hsw⟩
  · -- nothing to prune: the registry stays as it is
    refine .pure ⟨rfl, d, .refl _ d, ?_⟩
    rw [prunedRegistry, not_not.1 hne, foldl_nil, Disk.setRegistry, ← hr]

/-! ## Attestation -/

/-- The writes of `attest_and_mark_healthy` before the retention sweep, in order. -/
def attestWrites (m : Manager) (reg : GenerationRegistry) (b : BootState)
    (man : GenerationManifest) (target : UInt32) : List (Disk → Disk) :=
  [Disk.setBootState (Manager.attestedBootState b target),
   Disk.setManifest { man with status := .healthy },
   Disk.setRegistry (Manager.markHealthy reg target),
   Disk.setLimineConf (m.bootGenerator.generate (Manager.markHealthy reg target) none)]

theorem forall_mem_attestWrites {b : BootState} :
    (∀ u ∈ attestWrites m reg b man target, P u) ↔
      P (Disk.setBootState (Manager.attestedBootState b target)) ∧
      P (Disk.setManifest { man with status := .healthy }) ∧
      P (Disk.setRegistry (Manager.markHealthy reg target)) ∧
      P (Disk.setLimineConf (m.bootGenerator.generate (Manager.markHealthy reg target) none)) := by
  simp [attestWrites]

/-- The guards `attest_and_mark_healthy` passes before it writes anything. -/
structure AttestGuard (d : Disk) (genId : Option UInt32) (b : BootState)
    (man : GenerationManifest) (target : UInt32) : Prop where
  bootState : ∃ t, d.bootState = some t ∧ BootState.parse t = .ok b
  resolves : target = genId.getD b.generationId
  manifest : d.manifests target = some man

theorem keyed_setManifest (hk : d.Keyed) :
    ∀ i man', (d.setManifest man).manifests i = some man' → man'.id = i := by
  intro i man' h
  simp only [Disk.setManifest] at h
  rcases eq_or_ne i man.id with rfl | hne
  · rw [update_self, Option.some.injEq] at h
    rw [h]
  · rw [update_of_ne hne] at h
    exact hk i man' h

/-- What an attestation does once it has passed its checks. -/
def Manager.attestChecked (m : Manager) (b : BootState) (man : GenerationManifest)
    (target : UInt32) : Store GenerationManifest := do
  saveBootState (attestedBootState b target)
  saveManifest { man with status := .healthy }
  let reg ← loadRegistry m.digestHex
  saveRegistry (markHealthy reg target)
  writeLimineConf (m.bootGenerator.generate (markHealthy reg target) none)
  let _ ← m.executeRetentionPrune
  pure { man with status := .healthy }

theorem spec_attest_checks (hd : d.Ready reg) (genId : Option UInt32) (caller : PeerCredentials)
    (hreject : ∀ e, E e d)
    (hpass : ∀ b man target, AttestGuard d genId b man target → caller.uid = 0 →
      (m.evaluate env).isPromotable = true → Spec f₀ (m.attestChecked b man target) d Q E) :
    Spec f₀ (m.attestAndMarkHealthy env genId caller) d Q E := by
  obtain ⟨t, ht⟩ := Option.ne_none_iff_exists'.1 hd.bootState
  refine .bind (spec_initIfNeeded hd ?_ fun _ _ => hreject _)
  refine .bind (.ensure (fun huid => ?_) fun _ => hreject _)
  refine .bind (spec_loadBootState ht (fun b hb => ?_) (fun _ _ => hreject _) fun _ _ => hreject _)
  refine .bind (spec_loadManifest (fun man hman => ?_) (fun _ => hreject _) fun _ _ => hreject _)
  refine .bind (.ensure (fun hok => ?_) fun _ => hreject _)
  exact hpass b man (genId.getD b.generationId) ⟨⟨t, ht, hb⟩, rfl, hman⟩ huid hok

/-- An attestation is specified by its sweep: it fails before it has written anything, or after
some of its writes, or it ends with a sweep of the disk on which all of them were made. -/
theorem spec_attest_of_sweep (hd : d.Ready reg) (genId : Option UInt32) (caller : PeerCredentials)
    (hguard : ∀ e, E e d)
    (hwrite : ∀ {k : Syscall} b man target n, AttestGuard d genId b man target → f₀ k ≠ [] →
      ∀ e, E e (applyAll ((attestWrites m reg b man target).take n) d))
    (hsweep : ∀ b man target, AttestGuard d genId b man target →
      Spec f₀ m.executeRetentionPrune (applyAll (attestWrites m reg b man target) d)
        (fun _ => Q { man with status := .healthy }) E) :
    Spec f₀ (m.attestAndMarkHealthy env genId caller) d Q E := by
  refine spec_attest_checks hd genId caller hguard fun b man target hg _ _ => ?_
  refine .bind (spec_atomicWriteFile ?_ fun hf _ => hwrite b man target 0 hg hf _)
  refine .bind (spec_atomicWriteFile ?_ fun hf _ => hwrite b man target 1 hg hf _)
  have hreg : (applyAll ((attestWrites m reg b man target).take 2) d).registry = some reg :=
    hd.registry
  refine .bind (spec_loadRegistry hreg ?_ fun hf _ => hwrite b man target 2 hg hf _)
  refine .bind (spec_atomicWriteFile ?_ fun hf _ => hwrite b man target 2 hg hf _)
  refine .bind (spec_writeLimineConf ?_ fun hf _ => hwrite b man target 3 hg hf _)
  exact .bind (.mono (hsweep b man target hg) (fun _ _ h => .pure h) fun _ _ h => h)

/-! ## Creation -/

/-- The manifest `create_candidate` makes on a disk with registry `reg`. -/
def newManifest (m : Manager) (env : Env) (reg : GenerationRegistry)
    (description kernelVersion packageManifest kernelSha256 initramfsSha256 : String) :
    GenerationManifest :=
  m.candidateManifest env reg.nextGenerationId reg.currentGenerationId description kernelVersion
    packageManifest kernelSha256 initramfsSha256

/-- The changes a successful `create_candidate` makes, in order. -/
def createWrites (reg : GenerationRegistry) (man : GenerationManifest) : List (Disk → Disk) :=
  [Disk.setRegistry reg.bumpNextId,
   fun d => { d with genDirs := update d.genDirs reg.nextGenerationId true },
   fun d => { d with rootfs := update d.rootfs reg.nextGenerationId true },
   Disk.setManifest man,
   Disk.setRegistry (Manager.addCandidate reg.bumpNextId man)]

/-- The disk of a creation that failed: at most the id counter has moved, and a manifest can have
stayed behind only after a failed write. -/
structure CreateFailed (f₀ : Faults Syscall) (reg : GenerationRegistry) (d d' : Disk) : Prop where
  registry : d'.registry = some reg ∨ d'.registry = some reg.bumpNextId
  bootState : d'.bootState = d.bootState
  limineConf : d'.limineConf = d.limineConf
  others : ∀ i, i ≠ reg.nextGenerationId → d'.manifests i = d.manifests i
  manifests : f₀ .write = [] → d'.manifests = d.manifests

theorem spec_createSnapshot (id : UInt32) {Q : Unit → Disk → Prop}
    (hQ : Q () { d with rootfs := update d.rootfs id true }) (hE : ∀ e, E e d) :
    Spec f₀ (m.createSnapshot env id) d Q E := by
  rw [Manager.createSnapshot]
  split
  · exact .bind (.syscall (.update hQ) fun _ _ => hE _)
  · split
    · exact .update hQ
    · exact .throw (hE _)
    · exact .throw (hE _)
    · exact .throw (hE _)

/-- The part of `transactional_create_candidate` after the id has been allocated. -/
def Manager.buildCandidate (m : Manager) (env : Env) (genId : UInt32)
    (description kernelVersion packageManifest kernelSha256 initramfsSha256 : String) :
    Store GenerationManifest := do
  Manager.createGenDir genId
  onError (m.createSnapshot env genId) (Manager.removeGenDir genId)
  let reg ← onError (loadRegistry m.digestHex) (Manager.cleanup genId)
  let manifest := m.candidateManifest env genId reg.currentGenerationId description kernelVersion
    packageManifest kernelSha256 initramfsSha256
  onError (saveManifest manifest) (Manager.cleanup genId)
  onError (saveRegistry (Manager.addCandidate reg manifest)) do
    Manager.cleanup genId
    Manager.removeManifest genId
  pure manifest

/-- The changes it makes when nothing fails, in order. -/
def buildWrites (reg : GenerationRegistry) (genId : UInt32) (man : GenerationManifest) :
    List (Disk → Disk) :=
  [fun d => { d with genDirs := update d.genDirs genId true },
   fun d => { d with rootfs := update d.rootfs genId true },
   Disk.setManifest man,
   Disk.setRegistry (Manager.addCandidate reg man)]

/-- The disk when it has failed.  Only what belongs to the new id may differ: its manifest, and that
only after a failed write, and its directory and snapshot.  Unless a deletion can fail, either
nothing has been done yet or the directory and snapshot are gone, and the manifest is as before or
gone too. -/
structure Abandoned (f₀ : Faults Syscall) (genId : UInt32) (man : GenerationManifest)
    (d d' : Disk) : Prop where
  registry : d'.registry = d.registry
  bootState : d'.bootState = d.bootState
  limineConf : d'.limineConf = d.limineConf
  others : ∀ i, i ≠ genId → d'.manifests i = d.manifests i ∧ d'.genDirs i = d.genDirs i ∧
    d'.rootfs i = d.rootfs i
  manifest : d'.manifests genId = d.manifests genId ∨
    f₀ .write ≠ [] ∧ (d'.manifests genId = some man ∨ d'.manifests genId = none)
  cleaned : f₀ .delete = [] → d' = d ∨ d'.genDirs genId = false ∧ d'.rootfs genId = false ∧
    (d'.manifests genId = d.manifests genId ∨ d'.manifests genId = none)

theorem Abandoned.refl (genId : UInt32) (man : GenerationManifest) (d : Disk) :
    Abandoned f₀ genId man d d :=
  ⟨rfl, rfl, rfl, fun _ _ => ⟨rfl, rfl, rfl⟩, .inl rfl, fun _ => .inl rfl⟩

theorem Abandoned.of_wiped {d : Disk} (h : Wiped f₀ genId d d') : Abandoned f₀ genId man d d' where
  registry := h.registry
  bootState := h.bootState
  limineConf := h.limineConf
  others i hi := ⟨congrFun h.manifests i, h.genDirs i hi, h.rootfs i hi⟩
  manifest := .inl (congrFun h.manifests genId)
  cleaned hdel := .inr ⟨(h.gone hdel).1, (h.gone hdel).2, .inl (congrFun h.manifests genId)⟩

variable {desc version packages kernel initramfs : String}

theorem spec_buildCandidate (hr : d.registry = some reg)
    (hman : m.candidateManifest env genId reg.currentGenerationId desc version packages kernel
      initramfs = man) :
    Spec f₀ (m.buildCandidate env genId desc version packages kernel initramfs) d
      (fun r d' => r = man ∧ d' = applyAll (buildWrites reg genId man) d)
      (fun _ => Abandoned f₀ genId man d) := by
  have hid : man.id = genId := by rw [← hman]; rfl
  -- until the manifest is saved only the directory and the snapshot have changed
  have hcleared : ∀ n, n < 3 →
      Cleared genId d (applyAll ((buildWrites reg genId man).take n) d) := by
    intro n hn
    obtain rfl | rfl | rfl : n = 0 ∨ n = 1 ∨ n = 2 := by omega
    · exact .refl genId d
    · have hdir := Cleared.of_update genId d true (d.rootfs genId)
      rwa [update_eq_self] at hdir
    · exact .of_update genId d true true
  have hclean {d₁ : Disk} (h₁ : Cleared genId d d₁) : Spec f₀ (Manager.cleanup genId) d₁
      (fun _ => Abandoned f₀ genId man d) fun _ => Abandoned f₀ genId man d :=
    .mono (spec_cleanup _) (fun _ _ h => .of_wiped (h.of_cleared h₁)) fun _ _ h => h
  refine .bind (.bind (.syscall (.update ?_) fun _ _ => .refl genId man d))
  refine .bind (.onError (F := fun _ d' => d' = _) (spec_createSnapshot _ ?_ fun _ => rfl) ?_)
  rotate_left
  · rintro _ _ rfl
    exact .mono (spec_removeGenDir _)
      (fun _ _ h => .of_wiped (h.of_cleared (hcleared 1 (by decide))))
      fun _ _ h => .of_wiped (h.of_cleared (hcleared 1 (by decide)))
  have hreg : (applyAll ((buildWrites reg genId man).take 2) d).registry = some reg := hr
  refine .bind (.onError (F := fun _ d' => d' = _) (spec_loadRegistry hreg ?_ fun _ _ => rfl) ?_)
  rotate_left
  · rintro _ _ rfl
    exact hclean (hcleared 2 (by decide))
  rw [hman]
  refine .bind (.onError (F := fun _ d' => d' = _) (spec_atomicWriteFile ?_ fun _ _ => rfl) ?_)
  rotate_left
  · rintro _ _ rfl
    exact hclean (hcleared 2 (by decide))
  refine .bind (.onError (F := fun _ d' => f₀ .write ≠ [] ∧ d' = _)
    (spec_atomicWriteFile (.pure ⟨rfl, rfl⟩) fun hw _ => ⟨hw, rfl⟩) ?_)
  -- the manifest is on disk and the registry is not: clean up, then remove the manifest
  rintro _ _ ⟨hw, rfl⟩
  refine .bind (.mono (spec_cleanup _) (fun _ d₁ h₁ => ?_) fun _ _ h => h)
  have hothers : ∀ i, i ≠ genId → d₁.manifests i = d.manifests i ∧ d₁.genDirs i = d.genDirs i ∧
      d₁.rootfs i = d.rootfs i := by
    intro i hi
    have hc := hcleared 2 (by decide)
    refine ⟨(congrFun h₁.manifests i).trans ?_, (h₁.genDirs i hi).trans (hc.genDirs i hi),
      (h₁.rootfs i hi).trans (hc.rootfs i hi)⟩
    exact update_of_ne (hid ▸ hi) _ _
  have hkept : d₁.manifests genId = some man := by
    rw [h₁.manifests, ← hid]
    exact update_self ..
  refine .bind (.syscall (.update ?_) fun hdel _ => ?_)
  · refine ⟨h₁.registry, h₁.bootState, h₁.limineConf, fun i hi => ?_,
      .inr ⟨hw, .inr (update_self ..)⟩,
      fun hdel => .inr ⟨(h₁.gone hdel).1, (h₁.gone hdel).2, .inr (update_self ..)⟩⟩
    exact ⟨(update_of_ne hi _ _).trans (hothers i hi).1, (hothers i hi).2⟩
  · exact ⟨h₁.registry, h₁.bootState, h₁.limineConf, hothers, .inr ⟨hw, .inl hkept⟩,
      fun h => absurd h hdel⟩

theorem spec_transactionalCreateCandidate (hr : d.registry = some reg)
    (hman : newManifest m env reg desc version packages kernel initramfs = man) :
    Spec f₀ (m.transactionalCreateCandidate env desc version packages kernel initramfs) d
      (fun r d' => r = man ∧ d' = applyAll (createWrites reg man) d)
      (fun _ d' => d' = d ∨
        Abandoned f₀ reg.nextGenerationId man (d.setRegistry reg.bumpNextId) d') := by
  refine .bind (.ensure (fun _ => ?_) fun _ => .inl rfl)
  refine .bind (.bind (spec_loadRegistry hr ?_ fun _ _ => .inl rfl))
  refine .bind (spec_atomicWriteFile (.pure ?_) fun _ _ => .inl rfl)
  have hbumped : (d.setRegistry reg.bumpNextId).registry = some reg.bumpNextId := rfl
  exact .mono (spec_buildCandidate hbumped hman) (fun _ _ h => h) fun _ _ h => .inr h

/-- What is left of a creation that failed, as the counter and the manifests show it. -/
theorem Abandoned.createFailed
    (h : Abandoned f₀ reg.nextGenerationId man (d.setRegistry reg.bumpNextId) d') :
    CreateFailed f₀ reg d d' where
  registry := .inr h.registry
  bootState := h.bootState
  limineConf := h.limineConf
  others i hi := (h.others i hi).1
  manifests hw := by
    funext i
    rcases eq_or_ne i reg.nextGenerationId with rfl | hi
    · exact h.manifest.resolve_right fun hf => hf.1 hw
    · exact (h.others i hi).1

section

variable (hd : d.Ready reg)

include hd

theorem spec_createCandidate
    (hman : newManifest m env reg desc version packages kernel initramfs = man) :
    Spec f₀ (m.createCandidate env desc version packages kernel initramfs) d
      (fun r d' => r = man ∧ d' = applyAll (createWrites reg man) d)
      (fun _ => CreateFailed f₀ reg d) := by
  have hnone : CreateFailed f₀ reg d d :=
    ⟨.inl hd.registry, rfl, rfl, fun _ _ => rfl, fun _ => rfl⟩
  refine .bind (spec_initIfNeeded hd ?_ fun _ _ => hnone)
  refine .mono (spec_transactionalCreateCandidate hd.registry hman) (fun _ _ h => h)
    fun _ d' h => ?_
  rcases h with rfl | h
  · exact hnone
  · exact h.createFailed

/-! ## One call -/

/-- The disks a call that returns `Ok` can leave. -/
def OkEffect (m : Manager) (reg : GenerationRegistry) (d : Disk) (c : Call) (d' : Disk) : Prop :=
  match c.op with
  | .create description kernelVersion packageManifest kernelSha256 initramfsSha256 =>
    d' = applyAll (createWrites reg (newManifest m c.env reg description kernelVersion
      packageManifest kernelSha256 initramfsSha256)) d
  | .activate genId => ∃ man, ActivateGuard d reg genId man ∧
    d' = applyAll (activateWrites m reg man genId) d
  | .attest genId _ => ∃ b man target d₁, AttestGuard d genId b man target ∧
    Swept (Manager.markHealthy reg target).prunable
      (applyAll (attestWrites m reg b man target) d) d₁ ∧
    d' = d₁.setRegistry (prunedRegistry (Manager.markHealthy reg target))
  | .rollback targetId => targetId.getD reg.fallbackGenerationId ∈ reg.ids ∧
    ∃ d₁, (d₁ = failManifest reg.currentGenerationId (targetId.getD reg.fallbackGenerationId) d ∨
        ¬Quiet c.env.faults ∧ d₁ = d) ∧
      d' = applyAll (rollbackWrites m reg (targetId.getD reg.fallbackGenerationId)) d₁
  | .setPinned id pinned => ∃ d₁, (d₁ = pinManifest id pinned d ∨ ¬Quiet c.env.faults ∧ d₁ = d) ∧
    d' = d₁.setRegistry (reg.pin id pinned)

/-- The disks a call that fails can leave. -/
def ErrEffect (m : Manager) (reg : GenerationRegistry) (d : Disk) (c : Call) (d' : Disk) : Prop :=
  match c.op with
  | .create .. => CreateFailed c.env.faults reg d d'
  | .activate genId => Interrupted c.env.faults d (fun d' => ∃ man, ActivateGuard d reg genId man ∧
    Within (activateWrites m reg man genId) d d') d'
  | .attest genId _ => Interrupted c.env.faults d (fun d' => ∃ b man target,
    AttestGuard d genId b man target ∧
      (Within (attestWrites m reg b man target) d d' ∨
        Swept (Manager.markHealthy reg target).prunable
          (applyAll (attestWrites m reg b man target) d) d')) d'
  | .rollback targetId => Interrupted c.env.faults d (fun d' =>
    targetId.getD reg.fallbackGenerationId ∈ reg.ids ∧
    ∃ d₁, (d₁ = failManifest reg.currentGenerationId (targetId.getD reg.fallbackGenerationId) d ∨
        d₁ = d) ∧
      Within (rollbackWrites m reg (targetId.getD reg.fallbackGenerationId)) d₁ d') d'
  | .setPinned id pinned => Interrupted c.env.faults d (fun d' => d' = pinManifest id pinned d) d'

theorem spec_activateCandidate (genId : UInt32) :
    Spec env.faults (m.activateCandidate genId) d (fun _ => OkEffect m reg d ⟨.activate genId, env⟩)
      (fun _ => ErrEffect m reg d ⟨.activate genId, env⟩) := by
  refine spec_activate_checks hd genId (fun _ => .inl rfl) fun man hg => ?_
  have hfail : ∀ n, env.faults .write ≠ [] → String → ErrEffect m reg d ⟨.activate genId, env⟩
      (applyAll ((activateWrites m reg man genId).take n) d) :=
    fun n hw _ => .inr ⟨not_quiet hw, man, hg, n, rfl⟩
  refine .bind (spec_atomicWriteFile ?_ (hfail 0))
  refine .bind (spec_writeLimineConf ?_ (hfail 1))
  refine .bind (spec_atomicWriteFile ?_ (hfail 2))
  refine .bind (spec_atomicWriteFile ?_ (hfail 3))
  exact .pure ⟨man, hg, rfl⟩

theorem spec_rollback (targetId : Option UInt32) :
    Spec env.faults (m.rollback targetId) d (fun _ => OkEffect m reg d ⟨.rollback targetId, env⟩)
      (fun _ => ErrEffect m reg d ⟨.rollback targetId, env⟩) := by
  refine spec_rollback_checks hd targetId (fun _ => .inl rfl) fun s hmem => ?_
  refine Spec.bind (Spec.mono (spec_failOldManifest _ _) (fun _ d₁ hd₁ => ?_) fun _ _ h => h)
  have hfail : ∀ n, env.faults .write ≠ [] → String → ErrEffect m reg d ⟨.rollback targetId, env⟩
      (applyAll ((rollbackWrites m reg (targetId.getD reg.fallbackGenerationId)).take n) d₁) :=
    fun n hw _ => .inr ⟨not_quiet hw, hmem, d₁, hd₁.imp_right And.right, n, rfl⟩
  refine Spec.bind (spec_atomicWriteFile ?_ (hfail 0))
  refine Spec.bind (spec_atomicWriteFile ?_ (hfail 1))
  refine Spec.bind (spec_writeLimineConf ?_ (hfail 2))
  exact Spec.pure ⟨hmem, d₁, hd₁, rfl⟩

theorem spec_attestAndMarkHealthy (genId : Option UInt32) (caller : PeerCredentials) :
    Spec env.faults (m.attestAndMarkHealthy env genId caller) d
      (fun _ => OkEffect m reg d ⟨.attest genId caller, env⟩)
      (fun _ => ErrEffect m reg d ⟨.attest genId caller, env⟩) := by
  refine spec_attest_of_sweep hd genId caller (fun _ => .inl rfl) ?_ ?_
  · intro k b man target n hg hf _
    exact .inr ⟨not_quiet hf, b, man, target, hg, .inl ⟨n, rfl⟩⟩
  · intro b man target hg
    refine .mono (spec_executeRetentionPrune rfl) ?_ ?_
    · rintro _ d' ⟨-, d₁, hsw, rfl⟩
      exact ⟨b, man, target, d₁, hg, hsw.swept (keyed_setManifest hd.keyed), rfl⟩
    · rintro _ d' ⟨hq, hsw⟩
      exact .inr ⟨hq, b, man, target, hg, .inr (hsw.swept (keyed_setManifest hd.keyed))⟩

theorem spec_perform (c : Call) : Spec c.env.faults (c.perform m) d (fun _ => OkEffect m reg d c)
      (fun _ => ErrEffect m reg d c) := by
  obtain ⟨op, -⟩ := c
  cases op with
  | create =>
    exact .bind (.mono (spec_createCandidate hd rfl) (fun _ _ h => .pure h.2) fun _ _ h => h)
  | activate genId =>
    exact .bind (.mono (spec_activateCandidate hd genId) (fun _ _ h => .pure h) fun _ _ h => h)
  | attest genId caller =>
    exact .bind (.mono (spec_attestAndMarkHealthy hd genId caller)
      (fun _ _ h => .pure h) fun _ _ h => h)
  | rollback targetId =>
    exact .bind (.mono (spec_rollback hd targetId) (fun _ _ h => .pure h) fun _ _ h => h)
  | setPinned id pinned => exact spec_setPinned hd.registry id pinned

/-- **What a call can do.**  On an initialised disk a call either succeeds with one of the effects
of its operation or fails with one of its partial effects. -/
theorem step_cases (c : Call) : Succeeds m d c ∧ OkEffect m reg d c (step m d c) ∨
      ¬Succeeds m d c ∧ ErrEffect m reg d c (step m d c) := by
  have h := (spec_perform (m := m) hd c).exec
  unfold Succeeds step
  split at h
  · rename_i a d' heq
    rw [heq]
    exact .inl ⟨rfl, h⟩
  · rename_i e d' heq
    rw [heq]
    exact .inr ⟨Bool.false_ne_true, h⟩

theorem Succeeds.okEffect {c : Call} (hs : Succeeds m d c) : OkEffect m reg d c (step m d c) :=
  ((step_cases hd c).resolve_right fun h => h.1 hs).2

end

end

end Control
