import MahinaOS.Control.Interruption

/-!
# Creating generations when anything may fail

`create_candidate` allocates an id by saving the registry with a larger counter, makes the directory
and the snapshot of the new generation, saves its manifest and saves the registry again with the
new entry.  Each of these steps may fail, and each failure has its own way out.

* **`allocated_once`**: whatever fails, no id is allocated twice below the maximum of the counter.
* **`creationUndone_iff`**: a failed creation leaves everything as it was *iff* there is nothing
  under the id it allocates.  For an id that is in use the clean-up deletes the files of the
  generation that has it, and the counter saturates (`destroyed_at_saturation`).

The invariant is `Numbered`.  `create_cases` follows a creation through its two halves: up to the
allocation (`Manager.allocation`) and from there on (`Manager.buildCandidate`).
-/

namespace Control

open Faulty ListUpdate Run List Function

/-! ## Allocation -/

/-- The first half of `create_candidate`: up to the point where it has an id. -/
def Manager.allocation (m : Manager) (env : Env) : Store UInt32 := do
  initIfNeeded m.digestHex
  m.verifyFreeSpace env
  allocateNextId m.digestHex

variable {desc version packages kernel initramfs : String}

theorem Manager.createCandidate_eq (m : Manager) (env : Env) :
    m.createCandidate env desc version packages kernel initramfs =
      m.allocation env >>= fun genId => m.buildCandidate env genId desc version
        packages kernel initramfs := by
  simp only [Manager.allocation, bind_assoc]
  rfl

/-- The id that a call allocates, whether it succeeds in the end or not. -/
def allocated (m : Manager) (d : Disk) (c : Call) : Option UInt32 :=
  match c.op with
  | .create .. => (exec (m.allocation c.env) d c.env.faults).1.toOption
  | .activate _ | .attest .. | .rollback _ | .setPinned .. => none

def allocations (m : Manager) : Disk → List Call → List UInt32
  | _, [] => []
  | d, c :: cs => (allocated m d c).toList ++ allocations m (step m d c) cs

/-- The counter of the registry. -/
def Disk.nextId? (d : Disk) : Option UInt32 := d.registry.map (·.nextGenerationId)

/-- The counter is below its maximum. -/
def BelowMax (d : Disk) (_ : Call) : Prop := ∀ n ∈ d.nextId?, n < 0xFFFFFFFF

instance (d : Disk) (c : Call) : Decidable (BelowMax d c) :=
  Option.decidableForallMem d.nextId?

section

variable {m : Manager} {reg : GenerationRegistry} {d : Disk} {f₀ : Faults Syscall}

theorem spec_allocation (env : Env) (hd : d.Ready reg) :
    Spec f₀ (m.allocation env) d
      (fun id d' => id = reg.nextGenerationId ∧ d' = d.setRegistry reg.bumpNextId)
      (fun _ d' => d' = d) := by
  refine .bind (spec_initIfNeeded hd ?_ fun _ _ => rfl)
  refine .bind (.ensure (fun _ => ?_) fun _ => rfl)
  refine .bind (spec_loadRegistry hd.registry ?_ fun _ _ => rfl)
  exact .bind (spec_atomicWriteFile (.pure ⟨rfl, rfl⟩) fun _ _ => rfl)

/-- **A creation, by its two halves.**  It allocates no id and changes nothing, or it allocates the
next id and then either makes the generation or abandons it. -/
theorem create_cases (hd : d.Ready reg) {c : Call} (hc : c.op.creates = true) :
    allocated m d c = none ∧ step m d c = d ∨
      allocated m d c = some reg.nextGenerationId ∧ ∃ man : GenerationManifest,
        man.id = reg.nextGenerationId ∧ man.parentId = some reg.currentGenerationId ∧
        man.status = .staged ∧ (step m d c = applyAll (createWrites reg man) d ∨
          Abandoned c.env.faults reg.nextGenerationId man (d.setRegistry reg.bumpNextId)
            (step m d c)) := by
  obtain ⟨op, env⟩ := c
  cases op with
  | create desc version packages kernel initramfs =>
    have hperform : Call.perform m ⟨.create desc version packages kernel
        initramfs, env⟩ = m.allocation env >>= fun genId =>
          m.buildCandidate env genId desc version packages kernel
            initramfs >>= fun _ => pure () := by
      simp [Call.perform, Manager.createCandidate_eq]
    obtain ⟨man, hman⟩ : ∃ man, newManifest m env reg desc version packages kernel initramfs =
      man := ⟨_, rfl⟩
    have hbuild : ∀ id d', id = reg.nextGenerationId ∧ d' = d.setRegistry reg.bumpNextId →
        Spec env.faults (m.buildCandidate env id desc version packages
          kernel initramfs >>= fun _ => pure ()) d'
        (fun _ d' => d' = applyAll (createWrites reg man) d)
        (fun _ =>
          Abandoned env.faults reg.nextGenerationId man (d.setRegistry reg.bumpNextId)) := by
      rintro _ _ ⟨rfl, rfl⟩
      have hbumped : (d.setRegistry reg.bumpNextId).registry = some reg.bumpNextId := rfl
      exact .bind (.mono (spec_buildCandidate hbumped hman) (fun _ _ h => .pure h.2)
        fun _ _ h => h)
    have h := Spec.exec_bind (spec_allocation (m := m) env hd) hbuild
    rw [← hperform] at h
    simp only [allocated, step]
    split at h
    · next id d₁ halloc =>
      obtain ⟨⟨rfl, -⟩, hend⟩ := h
      rw [halloc]
      refine .inr ⟨rfl, man, hman ▸ rfl, hman ▸ rfl, hman ▸ rfl, ?_⟩
      split at hend
      · next hexec =>
        rw [hexec]
        exact .inl hend
      · next hexec =>
        rw [hexec]
        exact .inr hend
    · next e d₁ halloc =>
      rw [halloc, h.2]
      exact .inl ⟨rfl, h.1⟩
  | activate | attest | rollback | setPinned => cases hc

theorem Disk.Ready.abandoned (hd : d.Ready reg)
    (hne : defaultBaselineGenId ≠ reg.nextGenerationId) {man : GenerationManifest}
    (hman : man.id = reg.nextGenerationId) {d' : Disk}
    (ha : Abandoned f₀ reg.nextGenerationId man (d.setRegistry reg.bumpNextId) d') :
    d'.Ready reg.bumpNextId where
  registry := ha.registry
  baseline := by
    rw [(ha.others _ hne).1]
    exact hd.baseline
  bootState := ha.bootState ▸ hd.bootState
  keyed i man' hi := by
    rcases eq_or_ne i reg.nextGenerationId with rfl | hi'
    · rcases ha.manifest with hold | ⟨-, hnew | hnone⟩
      · exact hd.keyed _ man' (hold.symm.trans hi)
      · rw [hnew, Option.some.injEq] at hi
        exact hi ▸ hman
      · rw [hnone] at hi
        cases hi
    · exact hd.keyed i man' ((ha.others i hi').1.symm.trans hi)

theorem Disk.Ready.created (hd : d.Ready reg) (man : GenerationManifest) :
    (applyAll (createWrites reg man) d).Ready (Manager.addCandidate reg.bumpNextId man) :=
  { (hd.setManifest man).setRegistry (Manager.addCandidate reg.bumpNextId man) with }

/-! ### The invariant -/

theorem lt_saturatingSucc {n : UInt32} (h : n < 0xFFFFFFFF) : n < saturatingSucc n := by
  have hne : n ≠ 0xFFFFFFFF := fun heq => UInt32.lt_irrefl _ (heq ▸ h)
  rw [saturatingSucc, if_neg hne, UInt32.lt_iff_toNat_lt, UInt32.toNat_add]
  rw [UInt32.lt_iff_toNat_lt] at h
  simp only [UInt32.reduceToNat] at h ⊢
  omega

/-- The ids in the registry are distinct and below the counter, and so are the ids that have been
allocated. -/
structure Numbered (reg : GenerationRegistry) (d : Disk) (used : List UInt32) : Prop where
  ready : d.Ready reg
  nodup : reg.ids.Nodup
  lt : ∀ i ∈ reg.ids, i < reg.nextGenerationId
  baseline : defaultBaselineGenId < reg.nextGenerationId
  used_nodup : used.Nodup
  used_lt : ∀ i ∈ used, i < reg.nextGenerationId

namespace Numbered

variable {used : List UInt32} {reg' : GenerationRegistry}

section

variable (h : Numbered reg d used)

include h

theorem congr {d' : Disk} (hd : d'.Ready reg')
    (hsame : SameIds reg reg') : Numbered reg' d' used where
  ready := hd
  nodup := hsame.ids ▸ h.nodup
  lt := by rw [hsame.ids, hsame.next]; exact h.lt
  baseline := hsame.next ▸ h.baseline
  used_nodup := h.used_nodup
  used_lt := hsame.next ▸ h.used_lt

/-- The id that is allocated is new to the registry and to the history. -/
theorem next_notMem : reg.nextGenerationId ∉ reg.ids ∧ reg.nextGenerationId ∉ used :=
  ⟨fun hm => UInt32.lt_irrefl _ (h.lt _ hm), fun hm => UInt32.lt_irrefl _ (h.used_lt _ hm)⟩

/-- A registry with a larger counter, and at most the allocated id added. -/
theorem allocate (hmax : reg.nextGenerationId < 0xFFFFFFFF) {d' : Disk}
    (hd : d'.Ready reg') (hnext : reg'.nextGenerationId = saturatingSucc reg.nextGenerationId)
    (hids : reg'.ids = reg.ids ∨ reg'.ids = reg.ids ++ [reg.nextGenerationId]) :
    Numbered reg' d' (used ++ [reg.nextGenerationId]) := by
  have hlt := lt_saturatingSucc hmax
  have hold : ∀ l : List UInt32, (∀ i ∈ l, i < reg.nextGenerationId) →
      ∀ i ∈ l ++ [reg.nextGenerationId], i < saturatingSucc reg.nextGenerationId := by
    intro l hl i hi
    rcases mem_append.1 hi with hi | hi
    · exact UInt32.lt_trans (hl i hi) hlt
    · rwa [mem_singleton.1 hi]
  refine ⟨hd, ?_, ?_, hnext ▸ UInt32.lt_trans h.baseline hlt,
    nodup_append.2 ⟨h.used_nodup, nodup_singleton _, ?_⟩, hnext ▸ hold used h.used_lt⟩
  · rcases hids with hids | hids
    · exact hids ▸ h.nodup
    · rw [hids]
      refine nodup_append.2 ⟨h.nodup, nodup_singleton _, fun a ha b hb => ?_⟩
      rw [mem_singleton.1 hb]
      exact ne_of_mem_of_not_mem ha h.next_notMem.1
  · rw [hnext]
    rcases hids with hids | hids
    · rw [hids]
      exact fun i hi => hold _ h.lt i (mem_append_left _ hi)
    · exact hids ▸ hold _ h.lt
  · intro a ha b hb
    rw [mem_singleton.1 hb]
    exact ne_of_mem_of_not_mem ha h.next_notMem.2

/-- **One call**, with the id it allocates. -/
theorem step {c : Call} (hmax : BelowMax d c) :
    ∃ reg', Numbered reg' (step m d c) (used ++ (allocated m d c).toList) := by
  have hlt : reg.nextGenerationId < 0xFFFFFFFF :=
    hmax _ (by rw [Disk.nextId?, h.ready.registry]; rfl)
  rcases hc : c.op.creates with - | -
  · obtain ⟨reg', hd', hsame⟩ := ready_step_of_not_creates (m := m) h.ready hc
    have hnone : allocated m d c = none := by
      obtain ⟨op, env⟩ := c
      cases op with
      | create => cases hc
      | activate | attest | rollback | setPinned => rfl
    rw [hnone, Option.toList_none, append_nil]
    exact ⟨reg', h.congr hd' hsame⟩
  · rcases create_cases (m := m) h.ready hc with ⟨hnone, hstep⟩ | ⟨hsome, man, hman, -, -, hok | ha⟩
    · rw [hnone, hstep, Option.toList_none, append_nil]
      exact ⟨reg, h⟩
    · rw [hsome, hok]
      exact ⟨_, h.allocate hlt (h.ready.created man) rfl (.inr (hman ▸ ids_addCandidate _ man))⟩
    · rw [hsome]
      have hne : defaultBaselineGenId ≠ reg.nextGenerationId := fun heq =>
        UInt32.lt_irrefl _ (heq ▸ h.baseline)
      exact ⟨_, h.allocate hlt (h.ready.abandoned hne hman ha) rfl (.inl rfl)⟩

theorem run {calls : List Call} (hmax : Along (Control.step m) BelowMax d calls) :
    ∃ reg', Numbered reg' (run (Control.step m) d calls) (used ++ allocations m d calls) := by
  induction calls generalizing reg d used with
  | nil => exact ⟨reg, by rwa [allocations, append_nil]⟩
  | cons c calls ih =>
    obtain ⟨reg₁, h₁⟩ := h.step (m := m) hmax.1
    obtain ⟨reg', h'⟩ := ih h₁ hmax.2
    rw [append_assoc] at h'
    exact ⟨reg', h'⟩

end

end Numbered

theorem numbered_baseline (digestHex : String → String) :
    Numbered .baseline (baselineDisk digestHex) [] where
  ready := (stored_baselineDisk digestHex).toReady
  nodup := by decide
  lt i hi := by
    rw [mem_singleton.1 (show i ∈ [defaultBaselineGenId] from hi)]
    decide
  baseline := by decide
  used_nodup := nodup_nil
  used_lt := by simp

end

/-- **No id is allocated twice.**  In every history of lifecycle calls from the baseline, with any
failures in any of them, as long as the counter is below its maximum: the ids in the registry are
distinct and smaller than the counter, and the ids that were allocated, by creations that succeeded
or failed, are distinct. -/
theorem allocated_once (m : Manager) (calls : List Call)
    (hmax : Along (step m) BelowMax (baselineDisk m.digestHex) calls) :
    (∃ reg, (run (step m) (baselineDisk m.digestHex) calls).registry = some reg ∧
      reg.ids.Nodup ∧ ∀ i ∈ reg.ids, i < reg.nextGenerationId) ∧
    (allocations m (baselineDisk m.digestHex) calls).Nodup := by
  obtain ⟨reg, h⟩ := (numbered_baseline m.digestHex).run hmax
  exact ⟨⟨reg, h.ready.registry, h.nodup, h.lt⟩, h.used_nodup⟩

def sampleFailing (k : Syscall) (plan : List (Option String)) : Call :=
  { sampleCreate with env := { faults := fun k' => if k' = k then plan else [] } }

/-- A creation fails after it has allocated 102 and another one before it has allocated anything;
the next two get 103 and 104, and the registry save of the last fails. -/
theorem allocated_once_sample :
    let calls := [sampleFailing .mkdir [none, none, some "ENOSPC"],
      sampleFailing .write [some "EIO"], sampleCreate, sampleActivate 103,
      sampleFailing .write [none, none, some "EIO"]]
    allocations sampleManager sampleStart calls = [102, 103, 104] ∧
      (allocations sampleManager sampleStart calls).Nodup :=
  ⟨by decide +kernel, (allocated_once sampleManager _ (by decide +kernel)).2⟩

/-! ## Failed creations -/

/-- The generations, the manifests, the directories and the snapshots are the same; only the counter
may have moved. -/
structure Undone (d d' : Disk) : Prop where
  registry : d'.registry = d.registry ∨
    ∃ reg, d.registry = some reg ∧ d'.registry = some reg.bumpNextId
  manifests : d'.manifests = d.manifests
  genDirs : d'.genDirs = d.genDirs
  rootfs : d'.rootfs = d.rootfs

/-- Whatever makes a creation fail, it is undone, provided that deletions work. -/
def CreationUndone (m : Manager) (d : Disk) : Prop :=
  ∀ (env : Env) (description kernelVersion packageManifest kernelSha256 initramfsSha256 : String)
    (e : ControlError) (d' : Disk), env.faults .delete = [] →
    exec (m.transactionalCreateCandidate env description kernelVersion packageManifest kernelSha256
      initramfsSha256) d env.faults = (.error e, d') → Undone d d'

/-- There is no manifest, no directory and no snapshot under the id. -/
structure Unused (d : Disk) (id : UInt32) : Prop where
  manifest : d.manifests id = none
  genDir : d.genDirs id = false
  rootfs : d.rootfs id = false

section

variable {m : Manager} {env : Env} {reg : GenerationRegistry} {d d' : Disk}

theorem Undone.refl (d : Disk) : Undone d d := ⟨.inl rfl, rfl, rfl, rfl⟩

/-- What an abandoned creation leaves under an unused id is what was there: nothing. -/
theorem Abandoned.undone {f₀ : Faults Syscall} {man : GenerationManifest}
    (h : Abandoned f₀ reg.nextGenerationId man (d.setRegistry reg.bumpNextId) d')
    (hr : d.registry = some reg) (hdel : f₀ .delete = []) (hfree : Unused d reg.nextGenerationId) :
    Undone d d' := by
  rcases h.cleaned hdel with rfl | ⟨hdir, hroot, hman⟩
  · exact ⟨.inr ⟨reg, hr, rfl⟩, rfl, rfl, rfl⟩
  · have hnone : d'.manifests reg.nextGenerationId = none :=
      hman.elim (fun hsame => hsame.trans hfree.manifest) id
    refine ⟨.inr ⟨reg, hr, h.registry⟩, ?_, ?_, ?_⟩
    · funext i
      rcases eq_or_ne i reg.nextGenerationId with rfl | hi
      exacts [hnone.trans hfree.manifest.symm, (h.others i hi).1]
    · funext i
      rcases eq_or_ne i reg.nextGenerationId with rfl | hi
      exacts [hdir.trans hfree.genDir.symm, (h.others i hi).2.1]
    · funext i
      rcases eq_or_ne i reg.nextGenerationId with rfl | hi
      exacts [hroot.trans hfree.rootfs.symm, (h.others i hi).2.2]

/-! ### A creation whose last write fails -/

variable {f : Faults Syscall}

theorem run_createSnapshot (hf : f .mkdir = []) (hs : env.snapshot = .created) (id : UInt32) :
    m.createSnapshot env id ⟨d, f⟩ =
      .ok () ⟨{ d with rootfs := update d.rootfs id true }, f⟩ := by
  rw [Manager.createSnapshot]
  split
  · exact bind_ok (run_syscall hf)
  · rw [hs]
    rfl

/-- The clean-up after a failed registry save deletes everything under the id. -/
theorem run_buildCandidate (hr : d.registry = some reg) (hs : env.snapshot = .created)
    (genId : UInt32) :
    ∃ e w, m.buildCandidate env genId desc version packages kernel
      initramfs ⟨d, failedWrite 1⟩ = .error e w ∧ Unused w.disk genId := by
  obtain ⟨man, hman⟩ : ∃ man, man = m.candidateManifest env genId reg.currentGenerationId
    desc version packages kernel initramfs := ⟨_, rfl⟩
  obtain ⟨d₁, hd₁⟩ : ∃ d₁ : Disk, d₁ = { d with genDirs := update d.genDirs genId true } := ⟨_, rfl⟩
  obtain ⟨d₂, hd₂⟩ : ∃ d₂ : Disk, d₂ = { d₁ with rootfs := update d₁.rootfs genId true } := ⟨_, rfl⟩
  have hdir : Manager.createGenDir genId ⟨d, failedWrite 1⟩ = .ok () ⟨d₁, failedWrite 1⟩ :=
    hd₁ ▸ bind_ok (run_syscall mkdir_failedWrite)
  have hsnap : m.createSnapshot env genId ⟨d₁, failedWrite 1⟩ = .ok () ⟨d₂, failedWrite 1⟩ :=
    hd₂ ▸ run_createSnapshot mkdir_failedWrite hs genId
  have hreg : d₂.registry = some reg := by
    rw [hd₂, hd₁]
    exact hr
  obtain ⟨e, he⟩ := run_write_zero (d := d₂.setManifest man)
    (u := .setRegistry (Manager.addCandidate reg man))
  have hclean : (do Manager.cleanup genId; Manager.removeManifest genId : Store Unit)
      ⟨d₂.setManifest man, fun _ => []⟩ = .ok () ⟨{ wipe genId (d₂.setManifest man) with
        manifests := update (d₂.setManifest man).manifests genId none }, fun _ => []⟩ :=
    (bind_ok (run_deleteAll (k := pure ()) rfl genId _)).trans (bind_ok (run_syscall rfl))
  refine ⟨e, ⟨{ wipe genId (d₂.setManifest man) with
      manifests := update (d₂.setManifest man).manifests genId none }, fun _ => []⟩, ?_,
    ⟨update_self .., update_self .., update_self ..⟩⟩
  refine (bind_ok hdir).trans ((bind_ok (onError_ok hsnap)).trans ?_)
  refine (bind_ok (onError_ok (run_loadRegistry hreg read_failedWrite))).trans ?_
  rw [← hman]
  refine (bind_ok (onError_ok run_write_succ)).trans ?_
  exact bind_error (onError_error he hclean)

/-- With enough space, a creation can fail in a way that leaves nothing under its id. -/
theorem run_transactionalCreateCandidate (env : Env) (hr : d.registry = some reg)
    (hs : env.snapshot = .created) (hspace : ¬m.queryFreeSpace env < m.minFreeSpaceBytes) :
    ∃ e w, m.transactionalCreateCandidate env desc version packages kernel
      initramfs ⟨d, failedWrite 2⟩ = .error e w ∧ Unused w.disk reg.nextGenerationId := by
  have hbumped : (d.setRegistry reg.bumpNextId).registry = some reg.bumpNextId := rfl
  obtain ⟨e, w, hrun, hw⟩ := run_buildCandidate (m := m) hbumped hs reg.nextGenerationId
  refine ⟨e, w, ?_, hw⟩
  have halloc : allocateNextId m.digestHex ⟨d, failedWrite 2⟩ =
      .ok reg.nextGenerationId ⟨d.setRegistry reg.bumpNextId, failedWrite 1⟩ :=
    (bind_ok (run_loadRegistry hr read_failedWrite)).trans (bind_ok run_write_succ)
  exact (bind_ok (ensure_ok hspace)).trans ((bind_ok halloc).trans hrun)

/-- Where there is no registry yet, a failure to save the id counter leaves a new one. -/
theorem run_transactionalCreateCandidate_none (hr : d.registry = none)
    (hspace : ¬m.queryFreeSpace env < m.minFreeSpaceBytes) :
    ∃ N e w, m.transactionalCreateCandidate env desc version packages
      kernel initramfs ⟨d, failedWrite N⟩ = .error e w ∧ w.disk.registry ≠ none := by
  obtain ⟨N, hN⟩ := passes_loadRegistry_none m.digestHex hr 0
  obtain ⟨e, he⟩ := run_write_zero (d := initialized m.digestHex d)
    (u := .setRegistry GenerationRegistry.baseline.bumpNextId)
  refine ⟨N, e, ⟨initialized m.digestHex d, fun _ => []⟩, ?_, Option.some_ne_none _⟩
  refine (bind_ok (ensure_ok hspace)).trans (bind_error ?_)
  exact (bind_ok hN).trans (bind_error he)

theorem CreationUndone.of_run (h : CreationUndone m d) {n : Nat} {e : ControlError}
    {w : World Syscall Disk}
    (hrun : m.transactionalCreateCandidate env desc version packages
      kernel initramfs ⟨d, failedWrite n⟩ = .error e w) : Undone d w.disk := by
  refine h { env with faults := failedWrite n } desc version packages
    kernel initramfs e w.disk (delete_failedWrite (n := n)) ?_
  show exec (m.transactionalCreateCandidate env desc version packages
    kernel initramfs) d (failedWrite n) = _
  rw [exec, hrun]

/-- With enough space, a creation can be made to fail on an empty store, and leave a registry. -/
theorem CreationUndone.registry_ne_none (h : CreationUndone m d)
    (hspace : ¬m.queryFreeSpace env < m.minFreeSpaceBytes) : d.registry ≠ none := by
  intro hr
  obtain ⟨N, e, w, hrun, hw⟩ := @run_transactionalCreateCandidate_none "" "" "" "" "" m _ d hr
    hspace
  rcases (h.of_run hrun).registry with hsame | ⟨reg, hreg, -⟩
  · exact hw (hsame.trans hr)
  · rw [hr] at hreg
    cases hreg

/-- And on any other store, to leave nothing under its id. -/
theorem CreationUndone.unused (h : CreationUndone m d)
    (hspace : ¬m.queryFreeSpace env < m.minFreeSpaceBytes) (hr : d.registry = some reg) :
    Unused d reg.nextGenerationId := by
  obtain ⟨e, w, hrun, hw⟩ := @run_transactionalCreateCandidate "" "" "" "" "" m reg d
    { env with snapshot := .created } hr rfl hspace
  have hundone := h.of_run hrun
  exact ⟨hundone.manifests ▸ hw.manifest, hundone.genDirs ▸ hw.genDir, hundone.rootfs ▸ hw.rootfs⟩

/-- A creation is undone if what it leaves when it fails is. -/
theorem creationUndone_of_spec
    (h : ∀ (env : Env) (desc version packages kernel initramfs :
      String), env.faults .delete = [] → Spec env.faults (m.transactionalCreateCandidate env
        desc version packages kernel initramfs) d
        (fun _ _ => True) (fun _ => Undone d)) : CreationUndone m d := by
  intro env desc version packages kernel initramfs e d' hdel hexec
  have hspec := (h env desc version packages kernel initramfs hdel).exec
  rw [hexec] at hspec
  exact hspec

/-- **A failed creation is undone exactly when its id is unused.**  In every state: whatever makes
`transactional_create_candidate` fail, the generations, the manifests, the directories and the
snapshots are as before iff there is never enough space to begin with, or the store is initialised
and there is nothing under the next id. -/
theorem creationUndone_iff (m : Manager) (d : Disk) :
    CreationUndone m d ↔ (∀ env, m.queryFreeSpace env < m.minFreeSpaceBytes) ∨
      ∃ reg, d.registry = some reg ∧ Unused d reg.nextGenerationId := by
  constructor
  · intro h
    by_contra hcon
    rw [not_or, not_forall] at hcon
    obtain ⟨⟨env, hspace⟩, hused⟩ := hcon
    obtain ⟨reg, hr⟩ := Option.ne_none_iff_exists'.1 (h.registry_ne_none hspace)
    exact hused ⟨reg, hr, h.unused hspace hr⟩
  · rintro (hspace | ⟨reg, hr, hfree⟩)
    · refine creationUndone_of_spec fun env _ _ _ _ _ _ => ?_
      exact .bind (.ensure (fun h => absurd (hspace env) h) fun _ => .refl d)
    · refine creationUndone_of_spec fun env _ _ _ _ _ hdel => ?_
      refine .mono (spec_transactionalCreateCandidate hr rfl) (fun _ _ _ => trivial) ?_
      rintro _ d' (rfl | h)
      · exact .refl _
      · exact h.undone hr hdel hfree

end

/-! ### The counter at its maximum -/

theorem toNat_saturatingSucc (n : UInt32) :
    (saturatingSucc n).toNat = min (n.toNat + 1) 4294967295 := by
  have hlt := n.toNat_lt
  rw [saturatingSucc]
  split
  · next h =>
    rw [h]
    rfl
  · next h =>
    have hne : n.toNat ≠ 4294967295 := fun heq => h (UInt32.toNat_inj.1 heq)
    rw [UInt32.toNat_add]
    simp only [UInt32.reduceToNat]
    omega

theorem iterate_saturatingSucc (n : UInt32) : ∃ k, saturatingSucc^[k] n = 0xFFFFFFFF := by
  have hsum : ∀ k, (saturatingSucc^[k] n).toNat = min (n.toNat + k) 4294967295 := by
    intro k
    induction k with
    | zero =>
      have hlt := n.toNat_lt
      simp only [iterate_zero, id]
      omega
    | succ k ih =>
      rw [iterate_succ_apply', toNat_saturatingSucc, ih]
      omega
  refine ⟨4294967295, UInt32.toNat_inj.1 ((hsum _).trans ?_)⟩
  exact Nat.min_eq_right (Nat.le_add_left ..)

variable {reg : GenerationRegistry}

/-- A creation that fails to make its directory uses up an id. -/
theorem step_failing_mkdir {d : Disk} (hd : d.Ready reg) :
    step sampleManager d (sampleFailing .mkdir [none, none, some "ENOSPC"]) =
      d.setRegistry reg.bumpNextId := by
  have hinit : initIfNeeded sampleManager.digestHex ⟨d, failAt .mkdir "ENOSPC" 2⟩ =
      .ok () ⟨d, failAt .mkdir "ENOSPC" 0⟩ := by
    refine (bind_ok syscall_failAt_succ).trans ((bind_ok syscall_failAt_succ).trans ?_)
    refine (bind_ok run_disk).trans ((bind_ok (onlyIf_neg (by simp [hd.registry]))).trans ?_)
    refine (bind_ok run_disk).trans ((bind_ok (onlyIf_neg hd.baseline)).trans ?_)
    exact (bind_ok run_disk).trans (onlyIf_neg hd.bootState)
  have halloc : allocateNextId sampleManager.digestHex ⟨d, failAt .mkdir "ENOSPC" 0⟩ =
      .ok reg.nextGenerationId ⟨d.setRegistry reg.bumpNextId, failAt .mkdir "ENOSPC" 0⟩ :=
    (bind_ok (run_loadRegistry hd.registry (failAt_of_ne (by decide)))).trans
      (bind_ok (bind_ok (run_syscall (failAt_of_ne (by decide)))))
  have hdir : Manager.createGenDir reg.nextGenerationId
      ⟨d.setRegistry reg.bumpNextId, failAt .mkdir "ENOSPC" 0⟩ =
        .error (.io "ENOSPC") ⟨d.setRegistry reg.bumpNextId, fun _ => []⟩ :=
    bind_error syscall_failAt_zero
  have hrun : Call.perform sampleManager (sampleFailing .mkdir [none, none, some "ENOSPC"])
      ⟨d, failAt .mkdir "ENOSPC" 2⟩ =
        .error (.io "ENOSPC") ⟨d.setRegistry reg.bumpNextId, fun _ => []⟩ := by
    refine bind_error ((bind_ok hinit).trans ((bind_ok (ensure_ok (by decide))).trans ?_))
    exact (bind_ok halloc).trans (bind_error hdir)
  have hexec : exec (Call.perform sampleManager (sampleFailing .mkdir [none, none, some "ENOSPC"]))
      d (failAt .mkdir "ENOSPC" 2) = (.error (.io "ENOSPC"), d.setRegistry reg.bumpNextId) := by
    rw [exec, hrun]
  exact congrArg Prod.snd hexec

theorem run_failing_mkdir {d : Disk} (hd : d.Ready reg) (k : Nat) :
    run (step sampleManager) d
        (replicate k (sampleFailing .mkdir [none, none, some "ENOSPC"])) =
      d.setRegistry { reg with nextGenerationId := saturatingSucc^[k] reg.nextGenerationId } := by
  induction k generalizing reg d with
  | zero =>
    rw [Disk.setRegistry, iterate_zero, id, ← hd.registry]
    rfl
  | succ k ih =>
    rw [replicate_succ, run, step_failing_mkdir hd, ih (hd.setRegistry _)]
    rfl

/-- Creations use up the ids; the last one, the largest id, is used for a generation.  The next
creation gets the same id again, and when it fails to save the registry it deletes the snapshot and
the manifest of that generation, which stays registered. -/
theorem destroyed_at_saturation :
    ∃ calls : List Call,
      let d := run (step sampleManager) sampleStart calls
      let c := sampleFailing .write [none, none, some "EIO"]
      d.registry.map (·.ids) = some [101, 0xFFFFFFFF] ∧ d.manifests 0xFFFFFFFF ≠ none ∧
        d.rootfs 0xFFFFFFFF = true ∧ ¬Succeeds sampleManager d c ∧
        (step sampleManager d c).registry = d.registry ∧
        (step sampleManager d c).manifests 0xFFFFFFFF = none ∧
        (step sampleManager d c).rootfs 0xFFFFFFFF = false := by
  obtain ⟨k, hk⟩ := iterate_saturatingSucc GenerationRegistry.baseline.nextGenerationId
  refine ⟨replicate k (sampleFailing .mkdir [none, none, some "ENOSPC"]) ++ [sampleCreate], ?_⟩
  rw [run_append, sampleStart, run_failing_mkdir (stored_baselineDisk _).toReady, hk]
  decide +kernel

end Control
