import MahinaOS.Control.Candidates

/-!
# Two copies of a generation, and its digest

The status, the pin and the parent of a generation are stored twice: in its manifest and in its
registry entry.  The manifest also carries a digest of its fields, made when the generation was
created.

* **`copiesAgree_along_iff`**: when the two copies agree after every call of a history.  An
  attestation makes the old current generation superseded in the registry only, so the first
  ordinary upgrade parts the copies (`upgrade_parts_copies`).
* **`digestValid_iff`**: the digest is valid *iff* the manifest has the status and the pin it was
  created with.  An activation invalidates it (`activation_invalidates_digest`).

The first follows each registry entry with its manifest through the updates of both (`Agree`).  The
second rests on `changes_step`: no call changes anything in a manifest but its status and its pin.
-/

namespace Control

open Faulty ListUpdate Run List Function Manager Option

/-! ## Attestation without failures -/

section

variable {m : Manager} {env : Env} {f₀ : Faults Syscall} {d : Disk} {reg : GenerationRegistry}

theorem run_write (u : Disk → Disk) (d : Disk) :
    atomicWriteFile u ⟨d, fun _ => []⟩ = .ok () ⟨u d, fun _ => []⟩ :=
  bind_ok (run_syscall rfl)

theorem run_pruneOne_quiet (reg : GenerationRegistry) (id : UInt32) (d : Disk) :
    pruneOne reg id ⟨d, fun _ => []⟩ =
      .ok (markPruned reg id) ⟨pruneManifest id (wipe id d), fun _ => []⟩ := by
  rcases hman : d.manifests id with - | man
  · exact run_pruneOne_none reg rfl hman
  · exact run_pruneOne_some reg rfl rfl hman run_write

theorem run_foldlM_pruneOne_quiet (ids : List UInt32) (reg : GenerationRegistry) (d : Disk) :
    ids.foldlM pruneOne reg ⟨d, fun _ => []⟩ =
      .ok (ids.foldl markPruned reg) ⟨sweep ids d, fun _ => []⟩ := by
  induction ids generalizing d reg with
  | nil => rfl
  | cons id ids ih =>
    exact (bind_ok (run_pruneOne_quiet reg id d)).trans (ih _ _)

theorem run_executeRetentionPrune (hr : d.registry = some reg) :
    m.executeRetentionPrune ⟨d, fun _ => []⟩ =
      .ok reg.prunable ⟨(sweep reg.prunable d).setRegistry (prunedRegistry reg), fun _ => []⟩ := by
  refine (bind_ok (run_prunableGenerations hr rfl)).trans ?_
  by_cases hne : reg.prunable = []
  · refine (bind_ok (onlyIf_neg (not_not.2 hne))).trans ?_
    rw [prunedRegistry, hne, sweep, foldl_nil, Disk.setRegistry, ← hr]
    rfl
  · have hsweep : (do
        let r ← loadRegistry m.digestHex
        let r ← reg.prunable.foldlM pruneOne r
        saveRegistry r : Store Unit) ⟨d, fun _ => []⟩ =
          .ok () ⟨(sweep reg.prunable d).setRegistry (prunedRegistry reg), fun _ => []⟩ :=
      (bind_ok (run_loadRegistry hr rfl)).trans
        ((bind_ok (run_foldlM_pruneOne_quiet reg.prunable reg d)).trans (run_write _ _))
    exact bind_ok ((onlyIf_pos hne).trans hsweep)

/-- The disk after an attestation in which nothing fails. -/
def attestedDisk (m : Manager) (reg : GenerationRegistry) (b : BootState)
    (man : GenerationManifest) (target : UInt32) (d : Disk) : Disk :=
  (sweep (markHealthy reg target).prunable
    (applyAll (attestWrites m reg b man target) d)).setRegistry
      (prunedRegistry (markHealthy reg target))

theorem spec_attest_quiet (hd : d.Ready reg) (hq : Quiet f₀) (genId : Option UInt32)
    (caller : PeerCredentials) :
    Spec f₀ (m.attestAndMarkHealthy env genId caller) d
      (fun _ d' => ∃ b man target, AttestGuard d genId b man target ∧
        d' = attestedDisk m reg b man target d) (fun _ _ => True) := by
  refine spec_attest_of_sweep hd genId caller (fun _ => trivial) (fun _ _ _ _ _ _ _ => trivial) ?_
  intro b man target hg
  exact .of_run hq ⟨b, man, target, hg, rfl⟩ (run_executeRetentionPrune rfl)

theorem attest_quiet (hd : d.Ready reg) {genId : Option UInt32} {caller : PeerCredentials}
    (hq : Quiet env.faults) (hs : Succeeds m d ⟨.attest genId caller, env⟩) :
    ∃ b man target, AttestGuard d genId b man target ∧
      step m d ⟨.attest genId caller, env⟩ = attestedDisk m reg b man target d := by
  have hspec : Spec env.faults (Call.perform m ⟨.attest genId caller, env⟩) d
      (fun _ d' => ∃ b man target, AttestGuard d genId b man target ∧
        d' = attestedDisk m reg b man target d) (fun _ _ => True) :=
    Spec.bind (Spec.mono (spec_attest_quiet hd hq genId caller) (fun _ _ h => Spec.pure h)
      fun _ _ h => h)
  have h := hspec.exec
  unfold Succeeds at hs
  unfold step
  split at h
  · next hexec =>
    rw [hexec]
    exact h
  · next hexec =>
    rw [hexec] at hs
    exact absurd hs Bool.false_ne_true

end

/-! ## Manifests and registry entries -/

/-- A manifest and a registry entry agree. -/
def Matches (man : GenerationManifest) (g : GenerationSummary) : Prop :=
  man.status = g.status ∧ man.isPinned = g.isPinned ∧ man.parentId = g.parentId

instance (man : GenerationManifest) (g : GenerationSummary) : Decidable (Matches man g) :=
  inferInstanceAs (Decidable (_ ∧ _))

/-- The manifest of every registered generation agrees with its entry. -/
def Agree (reg : GenerationRegistry) (d : Disk) : Prop :=
  ∀ g ∈ reg.generations, ∃ man ∈ d.manifests g.id, Matches man g

instance (reg : GenerationRegistry) (d : Disk) : Decidable (Agree reg d) := by
  unfold Agree
  infer_instance

def CopiesAgree (d : Disk) : Prop := ∃ reg ∈ d.registry, Agree reg d

instance (d : Disk) : Decidable (CopiesAgree d) :=
  inferInstanceAs (Decidable (∃ reg ∈ d.registry, _))

section

variable {m : Manager} {reg reg' : GenerationRegistry} {d d' : Disk}

theorem setManifest_self (man : GenerationManifest) (d : Disk) :
    (d.setManifest man).manifests man.id = some man := update_self ..

variable {man : GenerationManifest} {b : BootState} {target : UInt32}

theorem setManifest_of_ne {i : UInt32} (h : i ≠ man.id) (d : Disk) :
    (d.setManifest man).manifests i = d.manifests i := update_of_ne h ..

/-- An update of the entries, with the manifests that go with it. -/
theorem Agree.remap {f : GenerationSummary → GenerationSummary} (h : Agree reg d)
    (hr : Remap f reg reg')
    (hf : ∀ g ∈ reg.generations, ∀ man, d.manifests g.id = some man → Matches man g →
      ∃ man' ∈ d'.manifests g.id, Matches man' (f g)) : Agree reg' d' := by
  refine hr.forall_mem fun g hg => ?_
  obtain ⟨man, hman, hmatch⟩ := h g hg
  rw [hr.id]
  exact hf g hg man hman hmatch

theorem Agree.created (h : Agree reg d) (hnew : man.id ∉ reg.ids) (hstatus : man.status = .staged)
    (hpin : man.isPinned = false) :
    Agree (addCandidate reg.bumpNextId man) (applyAll (createWrites reg man) d) := by
  intro g hg
  rcases mem_append.1 hg with hg | hg
  · have hne : g.id ≠ man.id := fun heq => hnew (heq ▸ mem_map_of_mem hg)
    obtain ⟨man', hman', hmatch⟩ := h g hg
    exact ⟨man', (setManifest_of_ne hne _).trans hman', hmatch⟩
  · obtain rfl := mem_singleton.1 hg
    exact ⟨man, setManifest_self man _, hstatus, hpin, rfl⟩

theorem Agree.activated (h : Agree reg d) (hn : reg.ids.Nodup) {genId : UInt32}
    (hman : d.manifests genId = some man) (hid : man.id = genId) :
    Agree (markCandidate reg genId) (applyAll (activateWrites m reg man genId) d) := by
  refine h.remap (.markCandidate hn genId) fun g hg man' hman' hmatch => ?_
  by_cases hg' : g.id = genId
  · obtain rfl : man = man' := some.inj (hman.symm.trans (hg' ▸ hman'))
    rw [if_pos hg']
    refine ⟨{ man with status := .candidate }, ?_, rfl, hmatch.2⟩
    rw [hg', ← hid]
    exact setManifest_self { man with status := .candidate } _
  · rw [if_neg hg']
    exact ⟨man', (setManifest_of_ne (hid ▸ hg') _).trans hman', hmatch⟩

theorem Agree.pinned (h : Agree reg d) (hn : reg.ids.Nodup)
    (hk : d.Keyed) (id : UInt32) (pinned : Bool) :
    Agree (reg.pin id pinned) ((pinManifest id pinned d).setRegistry (reg.pin id pinned)) := by
  refine h.remap (.pin hn id pinned) fun g hg man hman hmatch => ?_
  show ∃ man' ∈ (pinManifest id pinned d).manifests g.id, _
  by_cases hg' : g.id = id
  · rw [if_pos hg', pinManifest, ← hg', hman]
    refine ⟨{ man with isPinned := pinned }, ?_, hmatch.1, rfl, hmatch.2.2⟩
    rw [← hk _ man hman]
    exact setManifest_self { man with isPinned := pinned } d
  · rw [if_neg hg', pinManifest]
    refine ⟨man, ?_, hmatch⟩
    split
    · next man' hman' => exact (setManifest_of_ne (hk id man' hman' ▸ hg') d).trans hman
    · exact hman

/-- A rollback fails the manifest and the entry of a candidate it leaves. -/
theorem Agree.rolledBack (h : Agree reg d)
    (hk : d.Keyed) (target : UInt32) :
    Agree (rollbackTo reg target) (applyAll (rollbackWrites m reg target)
      (failManifest reg.currentGenerationId target d)) := by
  refine h.remap (.rollbackTo target) fun g hg man hman hmatch => ?_
  show ∃ man' ∈ (failManifest reg.currentGenerationId target d).manifests g.id, _
  by_cases hold : g.id = reg.currentGenerationId
  · have hfail : failManifest reg.currentGenerationId target d =
        if g.id ≠ target ∧ man.status = .candidate then d.setManifest { man with status := .failed }
        else d := by
      rw [failManifest, ← hold, hman]
    rw [hfail, rollbackEntry]
    by_cases ht : g.id = target
    · rw [if_neg fun h => h.1 ht, if_pos ht]
      exact ⟨man, hman, hmatch⟩
    · rw [if_neg ht, if_pos hold, ← hmatch.1]
      by_cases hc : man.status = .candidate
      · rw [if_pos ⟨ht, hc⟩, if_pos hc, ← hk _ man hman]
        exact ⟨_, setManifest_self { man with status := .failed } d, rfl, hmatch.2⟩
      · rw [if_neg fun h => hc h.2, if_neg hc]
        exact ⟨man, hman, rfl, hmatch.2⟩
  · rw [failManifest_of_ne hk target hold]
    refine ⟨man, hman, ?_⟩
    rw [rollbackEntry]
    split <;> exact hmatch

/-- The disk after the writes of an attestation, before the sweep. -/
theorem attested_manifests (hid : man.id = target) (i : UInt32) :
    (applyAll (attestWrites m reg b man target) d).manifests i =
      if i = target then some { man with status := .healthy } else d.manifests i := by
  split
  · next hi =>
    rw [hi, ← hid]
    exact setManifest_self { man with status := .healthy } _
  · next hi => exact setManifest_of_ne (hid ▸ hi) _

/-- An attestation keeps the copies together if it supersedes nothing. -/
theorem Agree.promoted (h : Agree reg d) (hn : reg.ids.Nodup)
    (hman : d.manifests target = some man) (hid : man.id = target)
    (hkeep : target = reg.currentGenerationId ∨ ∀ g ∈ reg.generations,
      g.id = reg.currentGenerationId → g.status ≠ .healthy) :
    Agree (markHealthy reg target) (applyAll (attestWrites m reg b man target) d) := by
  -- the entry of the target is healthy afterwards, and so is its manifest
  have htarget : ∀ (g : GenerationSummary) man', g.id = target → d.manifests g.id = some man' →
      Matches man' g → Matches { man with status := .healthy } { g with status := .healthy } := by
    rintro g man' hg hman' ⟨-, hrest⟩
    obtain rfl : man' = man := some.inj (hman'.symm.trans (hg ▸ hman))
    exact ⟨rfl, hrest⟩
  by_cases hne : reg.currentGenerationId = target
  · subst hne
    refine h.remap (.reattest hn) fun g hg man' hman' hmatch => ?_
    rw [attested_manifests hid]
    by_cases hg' : g.id = reg.currentGenerationId
    · rw [if_pos hg', if_pos hg']
      exact ⟨_, rfl, htarget g man' hg' hman' hmatch⟩
    · rw [if_neg hg', if_neg hg']
      exact ⟨man', hman', hmatch⟩
  · refine h.remap (.promote hne) fun g hg man' hman' hmatch => ?_
    rw [attested_manifests hid, promoteEntry]
    by_cases hold : g.id = reg.currentGenerationId
    · have hnot : g.status ≠ .healthy := hkeep.resolve_left (Ne.symm hne) g hg hold
      rw [if_neg (hold ▸ hne), if_pos hold, if_neg hnot]
      exact ⟨man', hman', hmatch⟩
    · rw [if_neg hold]
      by_cases hg' : g.id = target
      · rw [if_pos hg', if_pos hg']
        exact ⟨_, rfl, htarget g man' hg' hman' hmatch⟩
      · rw [if_neg hg', if_neg hg']
        exact ⟨man', hman', hmatch⟩

/-- A sweep marks the manifests and the entries of the same generations. -/
theorem Agree.swept (h : Agree reg d) (hn : reg.ids.Nodup)
    (hk : d.Keyed) :
    Agree (prunedRegistry reg)
      ((sweep reg.prunable d).setRegistry (prunedRegistry reg)) := by
  obtain ⟨-, -, -, hman⟩ := sweep_files hk reg.prunable
  refine h.remap (.markPruned hn reg.prunable) fun g hg man hg' hmatch => ?_
  show ∃ man' ∈ (sweep reg.prunable d).manifests g.id, _
  rw [hman, hg']
  split
  · exact ⟨prunedManifest man, rfl, rfl, hmatch.2⟩
  · exact ⟨man, rfl, hmatch⟩

/-- An attestation that supersedes a healthy generation parts its copies. -/
theorem not_agree_superseded (h : Agree reg d) (hn : reg.ids.Nodup)
    (hk : d.Keyed) (hid : man.id = target)
    (hne : reg.currentGenerationId ≠ target) {g : GenerationSummary} (hg : g ∈ reg.generations)
    (hold : g.id = reg.currentGenerationId) (hhealthy : g.status = .healthy) :
    ¬Agree (prunedRegistry (markHealthy reg target))
      (attestedDisk m reg b man target d) := by
  intro hagree
  have hn' : (markHealthy reg target).ids.Nodup := (ids_markHealthy reg target).symm ▸ hn
  have hentry : promoteEntry reg.currentGenerationId target g =
      { g with isCurrent := false, isFallback := true, status := .superseded } := by
    rw [promoteEntry, if_pos hold, if_pos hhealthy]
  have hmem : { g with isCurrent := false, isFallback := true, status := .superseded } ∈
      (markHealthy reg target).generations := by
    rw [(Remap.promote hne).generations, ← hentry]
    exact mem_map_of_mem hg
  -- it is the fallback now, so the sweep leaves it
  have hkept : g.id ∉ (markHealthy reg target).prunable := by
    intro hprun
    obtain ⟨g', -, hid', hp⟩ := of_mem_prunable hprun
    simp [GenerationRegistry.isPrunable, fallback_promoted hne, hid', hold] at hp
  have hmem' : { g with isCurrent := false, isFallback := true, status := .superseded } ∈
      (prunedRegistry (markHealthy reg target)).generations := by
    rw [prunedRegistry, (Remap.markPruned hn' _).generations]
    exact mem_map.2 ⟨_, hmem, if_neg hkept⟩
  obtain ⟨man₁, hman₁, hmatch₁⟩ := h g hg
  obtain ⟨man₂, hman₂, hmatch₂⟩ := hagree _ hmem'
  have hkeyed : ∀ i man', (applyAll (attestWrites m reg b man target) d).manifests i = some man' →
      man'.id = i := keyed_setManifest (d := d.setBootState _) hk
  obtain ⟨-, -, -, hsweep⟩ := sweep_files hkeyed (markHealthy reg target).prunable
  have hsame : (attestedDisk m reg b man target d).manifests g.id = d.manifests g.id := by
    refine (hsweep g.id).trans ?_
    rw [if_neg hkept, attested_manifests hid, if_neg (hold ▸ hne)]
  obtain rfl : man₁ = man₂ := some.inj (hman₁.symm.trans (hsame.symm.trans hman₂))
  have hstatus : GenerationStatus.healthy = .superseded :=
    hhealthy.symm.trans (hmatch₁.1.symm.trans hmatch₂.1)
  cases hstatus

end

/-- Nothing fails that the call would ignore.  A creation or an activation ignores nothing. -/
def IgnoresNothing (c : Call) : Prop :=
  match c.op with
  | .create .. | .activate _ => True
  | .attest .. | .rollback _ | .setPinned .. => Quiet c.env.faults

/-- The call succeeds, ignoring nothing, and a creation allocates a fresh id. -/
def SucceedsThroughout (m : Manager) (d : Disk) (c : Call) : Prop :=
  SucceedsFresh m d c ∧ IgnoresNothing c

/-- An attestation promotes no other generation while the current one is healthy. -/
def SupersedesNothing (d : Disk) (c : Call) : Prop :=
  match c.op with
  | .attest genId _ => ∀ reg ∈ d.registry, ∀ b ∈ d.bootRecord?,
    genId.getD b.generationId = reg.currentGenerationId ∨
      ∀ g ∈ reg.generations, g.id = reg.currentGenerationId → g.status ≠ .healthy
  | .create .. | .activate _ | .rollback _ | .setPinned .. => True

instance (c : Call) : Decidable (IgnoresNothing c) := by
  unfold IgnoresNothing
  rcases c.op <;> infer_instance

instance (m : Manager) (d : Disk) (c : Call) : Decidable (SucceedsThroughout m d c) :=
  inferInstanceAs (Decidable (_ ∧ _))

section

variable {m : Manager} {reg : GenerationRegistry} {d : Disk} {c : Call}

/-- **One successful call** keeps the copies together iff it supersedes nothing. -/
theorem agree_step (hd : Stored reg d) (hn : reg.ids.Nodup) (h : Agree reg d)
    (hs : SucceedsThroughout m d c) :
    ∃ reg', Stored reg' (step m d c) ∧ reg'.ids.Nodup ∧
      (Agree reg' (step m d c) ↔ SupersedesNothing d c) := by
  obtain ⟨⟨hsucc, hfresh⟩, hq⟩ := hs
  have he := hsucc.okEffect hd.toReady
  obtain ⟨reg', hst, -⟩ := hd.okEffect he
  refine ⟨reg', hst, ?_⟩
  obtain ⟨op, env⟩ := c
  cases op with
  | create desc version packages kernel initramfs =>
    rw [he] at hst ⊢
    obtain rfl := hst.eq_of_registry rfl
    have hn' : reg.bumpNextId.ids.Nodup := hn
    have hnew := hfresh reg hd.registry
    exact ⟨nodup_addCandidate hn' hnew, iff_of_true (h.created hnew rfl rfl) trivial⟩
  | activate genId =>
    obtain ⟨man, hg, he⟩ := he
    rw [he] at hst ⊢
    obtain rfl := hst.eq_of_registry rfl
    exact ⟨(Remap.markCandidate hn genId).ids.symm ▸ hn,
      iff_of_true (h.activated hn hg.manifest (hd.keyed _ _ hg.manifest)) trivial⟩
  | attest genId caller =>
    obtain ⟨b, man, target, hg, hstep⟩ := attest_quiet hd.toReady hq hsucc
    rw [hstep] at hst ⊢
    obtain rfl := hst.eq_of_registry rfl
    have hid : man.id = target := hd.keyed _ _ hg.manifest
    have hn' : (markHealthy reg target).ids.Nodup :=
      (ids_markHealthy reg target).symm ▸ hn
    refine ⟨(prunedRegistry_roles _).1.symm ▸ hn', ?_⟩
    obtain ⟨t, ht, hb⟩ := hg.bootState
    obtain ⟨hrec, hline⟩ := hd.parsed ht hb
    simp only [SupersedesNothing, hd.registry, bootRecord?_eq hrec hline, mem_def,
      some.injEq, forall_eq', ← hg.resolves]
    constructor
    · intro hagree
      by_cases hne : target = reg.currentGenerationId
      · exact .inl hne
      · refine .inr fun g hgm hold hhealthy => ?_
        exact not_agree_superseded h hn hd.keyed hid (.symm hne) hgm hold hhealthy hagree
    · intro hkeep
      exact (h.promoted hn hg.manifest hid hkeep).swept hn' (keyed_setManifest hd.keyed)
  | rollback targetId =>
    obtain ⟨-, d₁, hd₁, he⟩ := he
    obtain rfl := hd₁.resolve_right fun h => h.1 hq
    rw [he] at hst ⊢
    obtain rfl := hst.eq_of_registry rfl
    exact ⟨(Remap.rollbackTo _).ids.symm ▸ hn, iff_of_true (h.rolledBack hd.keyed _) trivial⟩
  | setPinned id pinned =>
    obtain ⟨d₁, hd₁, he⟩ := he
    obtain rfl := hd₁.resolve_right fun h => h.1 hq
    rw [he] at hst ⊢
    obtain rfl := hst.eq_of_registry rfl
    exact ⟨ids_pin reg id pinned ▸ hn, iff_of_true (h.pinned hn hd.keyed id pinned) trivial⟩

end

theorem agree_baseline (digestHex : String → String) :
    Agree .baseline (baselineDisk digestHex) := by
  intro g hg
  obtain rfl := mem_singleton.1 hg
  exact ⟨_, rfl, rfl, rfl, rfl⟩

/-- **The two copies agree exactly in the histories that supersede nothing.**  In every history of
successful calls that ignore no failure and allocate no id twice: after each call the manifest and
the registry entry of every registered generation agree on its status, its pin and its parent, iff
no attestation promotes another generation while the current one is healthy. -/
theorem copiesAgree_along_iff (m : Manager) (calls : List Call)
    (h : Along (step m) (SucceedsThroughout m) (baselineDisk m.digestHex) calls) :
    Along (step m) (fun d c => CopiesAgree (step m d c)) (baselineDisk m.digestHex) calls ↔
      Along (step m) SupersedesNothing (baselineDisk m.digestHex) calls := by
  refine along_iff (I := fun d => ∃ reg, Stored reg d ∧ reg.ids.Nodup ∧ Agree reg d) ?_ ?_
    ⟨_, stored_baselineDisk _, by decide, agree_baseline _⟩ h
  · rintro d c ⟨reg, hd, hn, hagree⟩ hs hkeep
    obtain ⟨reg', hst, hn', hiff⟩ := agree_step hd hn hagree hs
    exact ⟨reg', hst, hn', hiff.2 hkeep⟩
  · rintro d c ⟨reg, hd, hn, hagree⟩ hs
    obtain ⟨reg', hst, -, hiff⟩ := agree_step hd hn hagree hs
    rw [← hiff]
    constructor
    · rintro ⟨reg'', hreg'', hagree'⟩
      obtain rfl := hst.eq_of_registry hreg''
      exact hagree'
    · exact fun hagree' => ⟨reg', hst.registry, hagree'⟩

/-- Activating, rolling back and pinning supersede nothing. -/
theorem copiesAgree_along_iff_sample :
    Along (step sampleManager) (fun d c => CopiesAgree (step sampleManager d c)) sampleStart
        [sampleCreate, sampleActivate 102, sampleRollback none, { op := .setPinned 102 true }] ↔
      Along (step sampleManager) SupersedesNothing sampleStart
        [sampleCreate, sampleActivate 102, sampleRollback none, { op := .setPinned 102 true }] :=
  copiesAgree_along_iff sampleManager
    [sampleCreate, sampleActivate 102, sampleRollback none, { op := .setPinned 102 true }]
    (by decide +kernel)

/-- An ordinary upgrade: generation 102 is created, activated and attested.  In the registry 101 is
superseded, and its manifest says that it is healthy. -/
theorem upgrade_parts_copies :
    let calls := [sampleCreate, sampleActivate 102, sampleAttest none]
    let d := run (step sampleManager) sampleStart calls
    Along (step sampleManager) (SucceedsThroughout sampleManager) sampleStart calls ∧
      (d.registry.bind (·.getSummary 101)).map (·.status) = some .superseded ∧
      (d.manifests 101).map (·.status) = some .healthy ∧ ¬CopiesAgree d := by
  decide +kernel

/-! ## Commit digests -/

/-- The manifests differ at most in the status and the pin. -/
def SameCommit (man man' : GenerationManifest) : Prop :=
  man' = { man with status := man'.status, isPinned := man'.isPinned }

theorem SameCommit.restamp {man man' : GenerationManifest} (h : SameCommit man man')
    (status : GenerationStatus) (isPinned : Bool) :
    SameCommit man { man' with status := status, isPinned := isPinned } := by
  rw [SameCommit] at h ⊢
  rw [h]

/-- A digest made for a staged and unpinned manifest is valid as long as that is what it is. -/
theorem SameCommit.verifyDigest {digestHex : String → String}
    (hinj : Injective digestHex) {man man' : GenerationManifest}
    (h : SameCommit man man') {packages kernel initramfs : String}
    (hman : man.commitDigestSha256 = computeDigest digestHex man.id man.parentId man.description
      man.createdAtEpochSecs man.kernelVersion .staged man.btrfsTreeRootId false packages
      kernel initramfs) :
    man'.verifyDigest digestHex packages kernel initramfs = true ↔
      man'.status = .staged ∧ man'.isPinned = false := by
  rw [SameCommit] at h
  rw [h, GenerationManifest.verifyDigest, decide_eq_true_iff, hman, computeDigest_inj hinj]
  exact and_congr eq_comm eq_comm

/-- Generation `id` is registered, with the manifest `man` up to its status and its pin. -/
structure Kept (id : UInt32) (man : GenerationManifest) (reg : GenerationRegistry) (d : Disk) :
    Prop where
  ready : d.Ready reg
  baseline : defaultBaselineGenId ∈ reg.ids
  registered : id ∈ reg.ids
  manifest : ∃ man' ∈ d.manifests id, SameCommit man man'

namespace Kept

variable {m : Manager} {id : UInt32} {man : GenerationManifest} {reg : GenerationRegistry}
variable {d : Disk} {c : Call}

/-- No call that creates nothing changes more of a manifest than its status and its pin. -/
theorem changes (h : Kept id man reg d) {d' : Disk}
    (hchanges : Relation.ReflTransGen (Change reg d) d d') :
    ∃ man' ∈ d'.manifests id, SameCommit man man' := by
  induction hchanges with
  | refl => exact h.manifest
  | tail _ hchange ih =>
    cases hchange with
    | bootState | limineConf | registry => exact ih
    | @manifest i man₀ hman status isPinned =>
      obtain rfl : man₀.id = i := h.ready.keyed i man₀ hman
      by_cases hid : man₀.id = id
      · obtain ⟨man', hman', hsame⟩ := h.manifest
        obtain rfl : man₀ = man' := some.inj (hman.symm.trans (hid ▸ hman'))
        refine ⟨_, ?_, hsame.restamp status isPinned⟩
        rw [← hid]
        exact setManifest_self { man₀ with status := status, isPinned := isPinned } _
      · obtain ⟨man', hman', hsame⟩ := ih
        have hne : id ≠ { man₀ with status := status, isPinned := isPinned }.id := Ne.symm hid
        exact ⟨man', (setManifest_of_ne hne _).trans hman', hsame⟩
    | swept hs =>
      obtain ⟨man', hman', hsame⟩ := ih
      rcases hs.manifests id with heq | ⟨-, man₁, hman₁, hpruned⟩
      · exact ⟨man', heq.trans hman', hsame⟩
      · obtain rfl : man' = man₁ := some.inj (hman'.symm.trans hman₁)
        exact ⟨_, hpruned, hsame.restamp .pruned man'.isPinned⟩

/-- **One call**, whatever fails in it. -/
theorem step (h : Kept id man reg d) (hfresh : FreshId d c) :
    ∃ reg', Kept id man reg' (step m d c) := by
  rcases hc : c.op.creates with - | -
  · obtain ⟨reg', hready, hsame⟩ := ready_step_of_not_creates (m := m) h.ready hc
    exact ⟨reg', hready, hsame.ids ▸ h.baseline, hsame.ids ▸ h.registered,
      h.changes (changes_step h.ready hc)⟩
  · have hnew : reg.nextGenerationId ∉ reg.ids := by
      obtain ⟨op, env⟩ := c
      cases op with
      | create => exact hfresh reg h.ready.registry
      | activate | attest | rollback | setPinned => cases hc
    have hne : id ≠ reg.nextGenerationId := ne_of_mem_of_not_mem h.registered hnew
    obtain ⟨man', hman', hsame⟩ := h.manifest
    rcases create_cases (m := m) h.ready hc with ⟨-, hstep⟩ | ⟨-, new, hid, -, -, hstep | ha⟩
    · exact ⟨reg, hstep.symm ▸ h⟩
    · rw [hstep]
      have hids := ids_addCandidate reg.bumpNextId new
      refine ⟨_, h.ready.created new, hids ▸ mem_append_left _ h.baseline,
        hids ▸ mem_append_left _ h.registered, man', ?_, hsame⟩
      exact (setManifest_of_ne (hid ▸ hne) _).trans hman'
    · have hbase := ne_of_mem_of_not_mem h.baseline hnew
      exact ⟨_, h.ready.abandoned hbase hid ha, h.baseline, h.registered, man',
        (ha.others id hne).1.trans hman', hsame⟩

theorem run (h : Kept id man reg d) {calls : List Call}
    (hfresh : Along (Control.step m) FreshId d calls) :
    ∃ reg', Kept id man reg' (run (Control.step m) d calls) :=
  inv_run (I := fun d => ∃ reg, Kept id man reg d) (fun _ _ ⟨_, h⟩ hc => h.step hc) ⟨reg, h⟩ hfresh

end Kept

theorem kept_baseline (digestHex : String → String) :
    Kept defaultBaselineGenId (baselineManifest digestHex) .baseline (baselineDisk digestHex) where
  ready := (stored_baselineDisk digestHex).toReady
  baseline := by decide
  registered := by decide
  manifest := ⟨_, rfl, rfl⟩

/-- A successful creation registers its generation with the manifest it made. -/
theorem kept_created {m : Manager} {reg : GenerationRegistry} {d : Disk} {env : Env}
    {desc version packages kernel initramfs : String}
    (hd : d.Ready reg) (hbase : defaultBaselineGenId ∈ reg.ids)
    (hs : Succeeds m d ⟨.create desc version packages kernel initramfs, env⟩) :
    ∃ reg', Kept reg.nextGenerationId (newManifest m env reg desc version
      packages kernel initramfs) reg' (step m d ⟨.create desc
        version packages kernel initramfs, env⟩) := by
  have he := hs.okEffect hd
  obtain ⟨man, hman⟩ : ∃ man, man = newManifest m env reg desc version packages
    kernel initramfs := ⟨_, rfl⟩
  have hid : man.id = reg.nextGenerationId := by
    rw [hman]
    rfl
  rw [he, ← hman, ← hid]
  have hids := ids_addCandidate reg.bumpNextId man
  refine ⟨_, hd.created man, hids ▸ mem_append_left _ hbase, ?_, man, setManifest_self man _, rfl⟩
  rw [hids]
  exact mem_append_right _ (mem_singleton_self _)

/-- **A digest is valid exactly as long as nothing has happened to its generation.**  Let a
generation be created anywhere in a history of lifecycle calls, whatever fails in the others, with
no id allocated twice.  At the end of the history its manifest is stored, and with a collision-free
digest it passes `verify_digest` with the arguments of its creation iff it is still staged and not
pinned. -/
theorem digestValid_iff (m : Manager) (hinj : Injective m.digestHex)
    (before after : List Call) (env : Env)
    (desc version packages kernel initramfs : String)
    (hfresh : Along (step m) FreshId (baselineDisk m.digestHex)
      (before ++ ⟨.create desc version packages kernel initramfs,
        env⟩ :: after))
    (hs : Succeeds m (run (step m) (baselineDisk m.digestHex) before) ⟨.create desc
      version packages kernel initramfs, env⟩) :
    ∃ id ∈ (run (step m) (baselineDisk m.digestHex) before).nextId?,
      ∃ man ∈ (run (step m) (baselineDisk m.digestHex) (before ++ ⟨.create desc version
        packages kernel initramfs, env⟩ :: after)).manifests id,
        (man.verifyDigest m.digestHex packages kernel initramfs = true ↔
          man.status = .staged ∧ man.isPinned = false) := by
  rw [along_append] at hfresh
  obtain ⟨hbefore, -, hafter⟩ := hfresh
  obtain ⟨reg, hbase⟩ := (kept_baseline m.digestHex).run hbefore
  obtain ⟨reg₁, hcreated⟩ := kept_created hbase.ready hbase.baseline hs
  obtain ⟨reg₂, hend⟩ := hcreated.run hafter
  obtain ⟨man, hman, hsame⟩ := hend.manifest
  refine ⟨reg.nextGenerationId, ?_, man, ?_, hsame.verifyDigest hinj rfl⟩
  · rw [Disk.nextId?, hbase.ready.registry]
    rfl
  · rw [run_append]
    exact hman

/-- A manager whose digest is the text itself. -/
def sampleDigestManager : Manager := { digestHex := id }

/-- Generation 102 after it was created and pinned. -/
theorem digestValid_iff_sample :
    ∃ id ∈ (run (step sampleDigestManager) (baselineDisk sampleDigestManager.digestHex) []).nextId?,
      ∃ man ∈ (run (step sampleDigestManager) (baselineDisk sampleDigestManager.digestHex)
        ([] ++ ⟨.create "Upgrade" "Linux 6.6.30" "[]" "k_hash" "initrd_hash", {}⟩ ::
          [{ op := .setPinned 102 true }])).manifests id,
        (man.verifyDigest sampleDigestManager.digestHex "[]" "k_hash" "initrd_hash" = true ↔
          man.status = .staged ∧ man.isPinned = false) :=
  digestValid_iff sampleDigestManager injective_id [] [{ op := .setPinned 102 true }] {}
    "Upgrade" "Linux 6.6.30" "[]" "k_hash" "initrd_hash" (by decide +kernel) (by decide +kernel)

/-- The digest of generation 102 is valid after its creation, and not after its activation. -/
theorem activation_invalidates_digest :
    let d := run (step sampleDigestManager) (baselineDisk sampleDigestManager.digestHex)
      [sampleCreate]
    let d' := step sampleDigestManager d (sampleActivate 102)
    Succeeds sampleDigestManager d (sampleActivate 102) ∧
      (d.manifests 102).map
        (·.verifyDigest sampleDigestManager.digestHex "[]" "k_hash" "initrd_hash") = some true ∧
      (d'.manifests 102).map
        (·.verifyDigest sampleDigestManager.digestHex "[]" "k_hash" "initrd_hash") =
          some false := by
  decide +kernel

end Control
