import MahinaOS.Control.LifecycleSpec

/-!
# Disks a history of calls can reach

What every disk looks like that the lifecycle operations leave behind (`Stored`), and how one call
can change the registry on it (`RegStep`).

* `Remap f reg reg'` says that a registry update changes the entries one by one and keeps their
  ids; each update of the lifecycle is one (`Remap.promote`, `Remap.rollbackTo`, …).
* **`Stored.step`**: a call in which no write fails leaves a well-formed disk, whether it succeeds
  or not, and changes the registry in one of the ways of its operation.
* `Stored.okEffect` is the same for a call that succeeds, whatever failed on the way.
* `changes_step`: whatever fails in it, a call that creates nothing is a sequence of changes from a
  short list (`Change`).  So it leaves an initialised disk with the same ids and the same id counter
  (`ready_step_of_not_creates`).
-/

namespace Control

open Faulty ListUpdate List Function Manager

/-! ## Initialised disks -/

namespace Disk.Ready

variable {reg : GenerationRegistry} {d : Disk}

section

variable (h : d.Ready reg)

include h

theorem setBootState (b : BootState) : (d.setBootState b).Ready reg :=
  { h with bootState := by simp [Disk.setBootState] }

theorem setLimineConf (conf : LimineConf) : (d.setLimineConf conf).Ready reg :=
  { h with }

theorem setRegistry (reg' : GenerationRegistry) : (d.setRegistry reg').Ready reg' :=
  { h with registry := rfl }

theorem setManifest (man : GenerationManifest) : (d.setManifest man).Ready reg where
  registry := h.registry
  baseline := by
    simp only [Disk.setManifest]
    rcases eq_or_ne defaultBaselineGenId man.id with heq | hne
    · rw [heq, update_self]
      exact Option.some_ne_none _
    · rw [update_of_ne hne]
      exact h.baseline
  bootState := h.bootState
  keyed := keyed_setManifest h.keyed

theorem pinManifest (id : UInt32) (pinned : Bool) : (pinManifest id pinned d).Ready reg := by
  rw [Control.pinManifest]
  split
  · exact h.setManifest _
  · exact h

theorem swept {ids : List UInt32} {d' : Disk} (hs : Swept ids d d') : d'.Ready reg where
  registry := hs.registry.trans h.registry
  baseline := by
    rcases hs.manifests defaultBaselineGenId with h1 | ⟨-, man, -, h1⟩
    · rw [h1]
      exact h.baseline
    · rw [h1]
      exact Option.some_ne_none _
  bootState := hs.bootState ▸ h.bootState
  keyed := hs.keyed h.keyed

end

end Disk.Ready

/-! ## What every disk of a history looks like -/

/-- The generation recorded in the boot-state file. -/
def Disk.bootGeneration? (d : Disk) : Option UInt32 :=
  d.bootState.bind fun t => (BootState.parse t).toOption.map (·.generationId)

/-- A disk as the lifecycle operations leave it: initialised, every manifest registered, and the
boot-state file holding a record that can be read back. -/
structure Stored (reg : GenerationRegistry) (d : Disk) : Prop extends d.Ready reg where
  registered : ∀ i, d.manifests i ≠ none → i ∈ reg.ids
  record : ∃ b : BootState, d.bootState = some b.toRecord ∧ BootState.LineValue b.bootId.toList

namespace Stored

variable {reg reg' : GenerationRegistry} {d : Disk} {b : BootState} {man : GenerationManifest}

section

variable (h : Stored reg d)

include h

theorem setBootState (hb : BootState.LineValue b.bootId.toList) : Stored reg (d.setBootState b) :=
  { h.toReady.setBootState b with registered := h.registered, record := ⟨b, rfl, hb⟩ }

theorem setLimineConf (conf : LimineConf) : Stored reg (d.setLimineConf conf) :=
  { h with }

theorem setRegistry (hids : ∀ i ∈ reg.ids, i ∈ reg'.ids) : Stored reg' (d.setRegistry reg') :=
  { h.toReady.setRegistry reg' with
    registered := fun i hi => hids i (h.registered i hi), record := h.record }

theorem setManifest (hman : man.id ∈ reg.ids) : Stored reg (d.setManifest man) where
  toReady := h.toReady.setManifest man
  registered i hi := by
    simp only [Disk.setManifest] at hi
    rcases eq_or_ne i man.id with rfl | hne
    · exact hman
    · rw [update_of_ne hne] at hi
      exact h.registered i hi
  record := h.record

/-- Changing the status or another field of a stored manifest. -/
theorem mem_ids {i : UInt32} (hman : d.manifests i = some man) : i ∈ reg.ids :=
  h.registered i (by rw [hman]; exact Option.some_ne_none _)

theorem swept {ids : List UInt32} {d' : Disk} (hs : Swept ids d d') : Stored reg d' where
  toReady := h.toReady.swept hs
  registered i hi := by
    rcases hs.manifests i with h1 | ⟨-, man, hman, -⟩
    · exact h.registered i (h1 ▸ hi)
    · exact h.mem_ids hman
  record := hs.bootState ▸ h.record

/-- Attestation reads back the boot state that was stored. -/
theorem parsed {t : List Char} (ht : d.bootState = some t) (hb : BootState.parse t = .ok b) :
    d.bootState = some b.toRecord ∧ BootState.LineValue b.bootId.toList := by
  obtain ⟨b', hb', hline⟩ := h.record
  rw [ht, Option.some.injEq] at hb'
  rw [hb', BootState.parse_toRecord hline, Except.ok.injEq] at hb
  subst hb
  exact ⟨ht.trans (congrArg some hb'), hline⟩

end

theorem bootGeneration? (hb : d.bootState = some b.toRecord)
    (hline : BootState.LineValue b.bootId.toList) : d.bootGeneration? = some b.generationId := by
  rw [Disk.bootGeneration?, hb, Option.bind_some, BootState.parse_toRecord hline]
  rfl

end Stored

/-! ## Registry updates that keep the ids -/

theorem ids_modify (reg : GenerationRegistry) (id : UInt32)
    {f : GenerationSummary → GenerationSummary} (hf : ∀ g, (f g).id = g.id) :
    (reg.modify id f).ids = reg.ids :=
  map_modifyFirst hf reg.generations

theorem ids_pin (reg : GenerationRegistry) (id : UInt32) (pinned : Bool) :
    (reg.pin id pinned).ids = reg.ids := by
  rw [GenerationRegistry.pin]
  rw [ids_modify]
  · rfl
  · exact fun _ => rfl

theorem ids_addCandidate (reg : GenerationRegistry) (man : GenerationManifest) :
    (addCandidate reg man).ids = reg.ids ++ [man.id] := by
  simp [GenerationRegistry.ids, addCandidate, candidateSummary]

variable {reg : GenerationRegistry}

theorem nodup_addCandidate {man : GenerationManifest} (hn : reg.ids.Nodup)
    (hnew : man.id ∉ reg.ids) : (addCandidate reg man).ids.Nodup := by
  rw [ids_addCandidate]
  refine nodup_append.2 ⟨hn, nodup_singleton _, fun i hi j hj => ?_⟩
  rw [mem_singleton.1 hj]
  exact ne_of_mem_of_not_mem hi hnew

/-- `reg'` has the generations of `reg`, each changed by `f` except for its id. -/
structure Remap (f : GenerationSummary → GenerationSummary) (reg reg' : GenerationRegistry) :
    Prop where
  generations : reg'.generations = reg.generations.map f
  id : ∀ g, (f g).id = g.id

namespace Remap

variable {f : GenerationSummary → GenerationSummary} {reg reg' : GenerationRegistry}

theorem ids (h : Remap f reg reg') : reg'.ids = reg.ids := by
  rw [GenerationRegistry.ids, h.generations, map_map]
  exact map_congr_left fun g _ => h.id g

theorem forall_mem (h : Remap f reg reg') {P : GenerationSummary → Prop}
    (hP : ∀ g ∈ reg.generations, P (f g)) : ∀ g ∈ reg'.generations, P g := by
  rw [h.generations]
  exact forall_mem_map.2 hP

theorem modify (hn : reg.ids.Nodup) (id : UInt32) (hid : ∀ g, (f g).id = g.id) :
    Remap (fun g => if g.id = id then f g else g) reg (reg.modify id f) where
  generations := modifyFirst_eq_map hn id f
  id g := by
    split
    · exact hid g
    · rfl

theorem markCandidate (hn : reg.ids.Nodup) (id : UInt32) :
    Remap (fun g => if g.id = id then { g with status := .candidate } else g) reg
      (markCandidate reg id) :=
  .modify hn id fun _ => rfl

theorem pin (hn : reg.ids.Nodup) (id : UInt32) (pinned : Bool) :
    Remap (fun g => if g.id = id then { g with isPinned := pinned } else g) reg
      (reg.pin id pinned) where
  generations := modifyFirst_eq_map hn id _
  id g := by split <;> rfl

theorem rollbackTo (target : UInt32) :
    Remap (rollbackEntry reg.currentGenerationId target) reg
      (rollbackTo reg target) where
  generations := rfl
  id g := by
    rw [rollbackEntry]
    split
    · rfl
    · split <;> rfl

theorem promote {target : UInt32} (hne : reg.currentGenerationId ≠ target) :
    Remap (promoteEntry reg.currentGenerationId target) reg
      (markHealthy reg target) where
  generations := by rw [markHealthy, if_pos hne]
  id g := by
    rw [promoteEntry]
    split
    · rfl
    · split <;> rfl

theorem reattest (hn : reg.ids.Nodup) :
    Remap (fun g => if g.id = reg.currentGenerationId then
        { g with status := .healthy, isCurrent := true } else g) reg
      (markHealthy reg reg.currentGenerationId) := by
  rw [markHealthy, if_neg (not_not.2 rfl)]
  exact .modify hn _ fun _ => rfl

/-- A retention sweep marks the entries it prunes, and changes nothing else. -/
theorem markPruned (hn : reg.ids.Nodup) (ids : List UInt32) :
    Remap (fun g => if g.id ∈ ids then { g with status := .pruned } else g) reg
      (ids.foldl markPruned reg) := by
  induction ids generalizing reg with
  | nil => exact ⟨by simp, fun _ => by simp⟩
  | cons id ids ih =>
    have h1 : Remap _ reg (markPruned reg id) :=
      .modify (f := fun g => { g with status := .pruned }) hn id fun _ => rfl
    have hn' : (markPruned reg id).ids.Nodup := h1.ids.symm ▸ hn
    have h2 := ih hn'
    refine ⟨?_, fun g => by split <;> rfl⟩
    rw [foldl_cons, h2.generations, h1.generations, map_map]
    refine map_congr_left fun g _ => ?_
    by_cases hg : g.id = id <;> by_cases hg' : g.id ∈ ids <;> simp [hg, hg']

end Remap

theorem ids_markHealthy (reg : GenerationRegistry) (target : UInt32) :
    (markHealthy reg target).ids = reg.ids := by
  by_cases h : reg.currentGenerationId = target
  · rw [markHealthy, if_neg (not_not.2 h)]
    exact ids_modify reg target fun _ => rfl
  · exact (Remap.promote h).ids

/-- A retention sweep changes neither the ids nor the roles of the generations. -/
theorem prunedRegistry_roles (reg : GenerationRegistry) :
    (prunedRegistry reg).ids = reg.ids ∧
      (prunedRegistry reg).currentGenerationId = reg.currentGenerationId ∧
      (prunedRegistry reg).fallbackGenerationId = reg.fallbackGenerationId := by
  suffices h : ∀ (ids : List UInt32) (r : GenerationRegistry),
      (ids.foldl markPruned r).ids = r.ids ∧
        (ids.foldl markPruned r).currentGenerationId = r.currentGenerationId ∧
        (ids.foldl markPruned r).fallbackGenerationId = r.fallbackGenerationId from
    h reg.prunable reg
  intro ids
  induction ids with
  | nil => exact fun r => ⟨rfl, rfl, rfl⟩
  | cons id ids ih =>
    intro r
    obtain ⟨h1, h2⟩ := ih (markPruned r id)
    exact ⟨h1.trans (ids_modify r id fun _ => rfl), h2⟩

/-! ## How a call changes the registry -/

/-- A write that leaves a `Stored` disk, given the registered ids and the registries that may be
stored. -/
inductive SafeWrite (ids : List UInt32) (R : GenerationRegistry → Prop) : (Disk → Disk) → Prop where
  | bootState {b : BootState} (hb : BootState.LineValue b.bootId.toList) :
    SafeWrite ids R (Disk.setBootState b)
  | limineConf (conf : LimineConf) : SafeWrite ids R (Disk.setLimineConf conf)
  | manifest {man : GenerationManifest} (hman : man.id ∈ ids) :
    SafeWrite ids R (Disk.setManifest man)
  | registry {r : GenerationRegistry} (hr : R r) : SafeWrite ids R (Disk.setRegistry r)

theorem SafeWrite.within {R : GenerationRegistry → Prop} {d d' : Disk} {ws : List (Disk → Disk)}
    (hw : Within ws d d') (hws : ∀ u ∈ ws, SafeWrite reg.ids R u)
    (hR : ∀ r, R r → r.ids = reg.ids) (h0 : R reg) (h : Stored reg d) : ∃ r, R r ∧ Stored r d' := by
  refine hw.induction (P := fun d => ∃ r, R r ∧ Stored r d) ⟨reg, h0, h⟩ ?_
  rintro u hu d ⟨r, hr, hd⟩
  cases hws u hu with
  | bootState hb => exact ⟨r, hr, hd.setBootState hb⟩
  | limineConf conf => exact ⟨r, hr, hd.setLimineConf conf⟩
  | manifest hman => exact ⟨r, hr, hd.setManifest (by rwa [hR r hr])⟩
  | registry hr' =>
    exact ⟨_, hr', hd.setRegistry fun i hi => by rwa [hR _ hr', ← hR r hr]⟩

theorem within_applyAll (ws : List (Disk → Disk)) (d : Disk) : Within ws d (applyAll ws d) :=
  ⟨ws.length, by rw [take_length]⟩

/-- The registries a call can leave on disk. -/
def RegStep (op : Op) (reg reg' : GenerationRegistry) : Prop :=
  reg' = reg ∨
    match op with
    | .create .. => reg' = reg.bumpNextId ∨
      ∃ man : GenerationManifest, man.id = reg.nextGenerationId ∧
        reg' = addCandidate reg.bumpNextId man
    | .activate genId => reg' = markCandidate reg genId
    | .attest .. => ∃ target ∈ reg.ids, reg' = markHealthy reg target ∨
      reg' = prunedRegistry (markHealthy reg target)
    | .rollback _ => ∃ target ∈ reg.ids, reg' = rollbackTo reg target
    | .setPinned id pinned => reg' = reg.pin id pinned

section

variable {m : Manager} {reg : GenerationRegistry} {d d' : Disk} {c : Call}
  {man : GenerationManifest} {target : UInt32}

section

variable (h : Stored reg d)

include h

theorem Stored.withinActivate {genId : UInt32} (hg : ActivateGuard d reg genId man)
    (hin : Within (activateWrites m reg man genId) d d') :
    ∃ r, (r = reg ∨ r = markCandidate reg genId) ∧ Stored r d' := by
  have hid : man.id ∈ reg.ids := h.keyed genId man hg.manifest ▸ h.mem_ids hg.manifest
  refine SafeWrite.within hin (forall_mem_activateWrites.2 ?_) ?_ (.inl rfl) h
  · exact ⟨.bootState (BootState.lineValue_append_toString (by decide) genId), .limineConf _,
      .manifest hid, .registry (.inr rfl)⟩
  · rintro r (rfl | rfl)
    exacts [rfl, ids_modify _ _ fun _ => rfl]

theorem Stored.withinAttest {b : BootState} {genId : Option UInt32}
    (hg : AttestGuard d genId b man target) (hin : Within (attestWrites m reg b man target) d d') :
    ∃ r, (r = reg ∨ r = markHealthy reg target) ∧ Stored r d' := by
  have hid : man.id ∈ reg.ids := h.keyed target man hg.manifest ▸ h.mem_ids hg.manifest
  obtain ⟨t, ht, hb⟩ := hg.bootState
  refine SafeWrite.within hin (forall_mem_attestWrites.2 ?_) ?_ (.inl rfl) h
  · exact ⟨.bootState (h.parsed ht hb).2, .manifest hid, .registry (.inr rfl), .limineConf _⟩
  · rintro r (rfl | rfl)
    exacts [rfl, ids_markHealthy _ _]

theorem Stored.withinRollback (hin : Within (rollbackWrites m reg target) d d') :
    ∃ r, (r = reg ∨ r = rollbackTo reg target) ∧ Stored r d' := by
  refine SafeWrite.within hin (forall_mem_rollbackWrites.2 ?_) ?_ (.inl rfl) h
  · exact ⟨.bootState (BootState.lineValue_append_toString (by decide) target),
      .registry (.inr rfl), .limineConf _⟩
  · rintro r (rfl | rfl)
    exacts [rfl, (Remap.rollbackTo target).ids]

theorem Stored.pinManifest (id : UInt32) (pinned : Bool) :
    Stored reg (pinManifest id pinned d) := by
  rw [Control.pinManifest]
  split
  · rename_i man hman
    exact h.setManifest (by rw [h.keyed id man hman]; exact h.mem_ids hman)
  · exact h

theorem Stored.failManifest (old target : UInt32) : Stored reg (failManifest old target d) := by
  rw [Control.failManifest]
  split
  · rename_i man hman
    split
    · exact h.setManifest (by rw [h.keyed old man hman]; exact h.mem_ids hman)
    · exact h
  · exact h

theorem Stored.created :
    Stored (addCandidate reg.bumpNextId man) (applyAll (createWrites reg man) d) := by
  have hids := ids_addCandidate reg.bumpNextId man
  have hbig : Stored (addCandidate reg.bumpNextId man)
      (d.setRegistry (addCandidate reg.bumpNextId man)) :=
    h.setRegistry fun i hi => hids ▸ mem_append_left _ hi
  have hmem : man.id ∈ (addCandidate reg.bumpNextId man).ids := by
    rw [hids]
    simp
  exact { hbig.setManifest hmem with }

/-- An attestation that fails after its checks has written the new registry, or not. -/
theorem Stored.unfinishedAttest {genId : Option UInt32} {b : BootState}
    (hg : AttestGuard d genId b man target)
    (hin : Within (attestWrites m reg b man target) d d' ∨
      Swept (markHealthy reg target).prunable (applyAll (attestWrites m reg b man target) d) d') :
    ∃ r, (r = reg ∨ r = markHealthy reg target) ∧ Stored r d' := by
  rcases hin with hin | hsw
  · exact h.withinAttest hg hin
  · obtain ⟨r, hr, hs⟩ := h.withinAttest hg (within_applyAll _ d)
    exact ⟨r, hr, hs.swept hsw⟩

/-- A call that succeeds leaves a well-formed disk and changes the registry as its operation may. -/
theorem Stored.okEffect (he : OkEffect m reg d c d') :
    ∃ reg', Stored reg' d' ∧ RegStep c.op reg reg' := by
  obtain ⟨op, env⟩ := c
  cases op with
  | create =>
    obtain rfl := he
    exact ⟨_, h.created, .inr (.inr ⟨_, rfl, rfl⟩)⟩
  | activate genId =>
    obtain ⟨man, hg, rfl⟩ := he
    obtain ⟨r, hr, hs⟩ := h.withinActivate hg (within_applyAll _ d)
    exact ⟨r, hs, hr⟩
  | attest genId caller =>
    obtain ⟨b, man, target, d₁, hg, hsw, rfl⟩ := he
    obtain ⟨r, hr, hs⟩ := h.withinAttest hg (within_applyAll _ d)
    have hids : (prunedRegistry (markHealthy reg target)).ids = r.ids := by
      rw [(prunedRegistry_roles _).1, ids_markHealthy]
      rcases hr with rfl | rfl
      exacts [rfl, (ids_markHealthy _ _).symm]
    exact ⟨_, (hs.swept hsw).setRegistry fun i hi => hids ▸ hi,
      .inr ⟨target, h.mem_ids hg.manifest, .inr rfl⟩⟩
  | rollback targetId =>
    obtain ⟨hmem, d₁, hd₁, rfl⟩ := he
    have h₁ : Stored reg d₁ := by
      rcases hd₁ with rfl | ⟨-, rfl⟩
      exacts [h.failManifest _ _, h]
    obtain ⟨r, hr, hs⟩ := h₁.withinRollback (within_applyAll _ d₁)
    exact ⟨r, hs, hr.imp_right fun hr => ⟨_, hmem, hr⟩⟩
  | setPinned id pinned =>
    obtain ⟨d₁, hd₁, rfl⟩ := he
    have h₁ : Stored reg d₁ := by
      rcases hd₁ with rfl | ⟨-, rfl⟩
      exacts [h.pinManifest _ _, h]
    exact ⟨_, h₁.setRegistry fun i hi => ids_pin reg id pinned ▸ hi, .inr rfl⟩

/-- So does a call that fails, as long as no write failed. -/
theorem Stored.errEffect (hw : c.env.faults .write = [])
    (he : ErrEffect m reg d c d') : ∃ reg', Stored reg' d' ∧ RegStep c.op reg reg' := by
  obtain ⟨op, env⟩ := c
  cases op with
  | create =>
    have hman := he.manifests hw
    have hstored : ∀ r : GenerationRegistry, r.ids = reg.ids → d'.registry = some r →
        Stored r d' := fun r hr hreg =>
      { registry := hreg
        baseline := hman ▸ h.baseline
        bootState := he.bootState ▸ h.bootState
        keyed := hman ▸ h.keyed
        registered := by rw [hman, hr]; exact h.registered
        record := he.bootState ▸ h.record }
    rcases he.registry with hreg | hreg
    · exact ⟨reg, hstored reg rfl hreg, .inl rfl⟩
    · exact ⟨reg.bumpNextId, hstored reg.bumpNextId rfl hreg, .inr (.inl rfl)⟩
  | activate genId =>
    rcases he with rfl | ⟨-, man, hg, hin⟩
    · exact ⟨reg, h, .inl rfl⟩
    · obtain ⟨r, hr, hs⟩ := h.withinActivate hg hin
      exact ⟨r, hs, hr⟩
  | attest genId caller =>
    rcases he with rfl | ⟨-, b, man, target, hg, hin⟩
    · exact ⟨reg, h, .inl rfl⟩
    · obtain ⟨r, hr, hs⟩ := h.unfinishedAttest hg hin
      exact ⟨r, hs, hr.imp_right fun hr => ⟨target, h.mem_ids hg.manifest, .inl hr⟩⟩
  | rollback targetId =>
    rcases he with rfl | ⟨-, hmem, d₁, hd₁, hin⟩
    · exact ⟨reg, h, .inl rfl⟩
    · have h₁ : Stored reg d₁ := by
        rcases hd₁ with rfl | rfl
        exacts [h.failManifest _ _, h]
      obtain ⟨r, hr, hs⟩ := h₁.withinRollback hin
      exact ⟨r, hs, hr.imp_right fun hr => ⟨_, hmem, hr⟩⟩
  | setPinned id pinned =>
    rcases he with rfl | ⟨-, rfl⟩
    · exact ⟨reg, h, .inl rfl⟩
    · exact ⟨reg, h.pinManifest _ _, .inl rfl⟩

/-- A call in which no write fails leaves a well-formed disk. -/
theorem Stored.step (hw : c.env.faults .write = []) :
    ∃ reg', Stored reg' (step m d c) ∧ RegStep c.op reg reg' := by
  rcases step_cases (m := m) h.toReady c with ⟨-, he⟩ | ⟨-, he⟩
  · exact h.okEffect he
  · exact h.errEffect hw he

end

end

theorem stored_baselineDisk (digestHex : String → String) :
    Stored .baseline (baselineDisk digestHex) where
  registry := rfl
  baseline := by simp [baselineDisk]
  bootState := by simp [baselineDisk]
  keyed i man h := by
    simp only [baselineDisk, update_apply] at h
    split at h
    · rename_i hi
      cases h
      exact hi.symm
    · cases h
  registered i hi := by
    simp only [baselineDisk, update_apply] at hi
    split at hi
    · rename_i hi'
      rw [hi']
      decide
    · exact absurd rfl hi
  record := ⟨_, rfl, by decide⟩

/-! ## Calls that create nothing -/

def Op.creates : Op → Bool
  | .create .. => true
  | .activate _ | .attest .. | .rollback _ | .setPinned .. => false

structure SameIds (reg reg' : GenerationRegistry) : Prop where
  ids : reg'.ids = reg.ids
  next : reg'.nextGenerationId = reg.nextGenerationId

theorem SameIds.refl (reg : GenerationRegistry) : SameIds reg reg := ⟨rfl, rfl⟩

theorem sameIds_markHealthy (reg : GenerationRegistry) (target : UInt32) :
    SameIds reg (markHealthy reg target) := by
  refine ⟨ids_markHealthy reg target, ?_⟩
  rw [markHealthy]
  split <;> rfl

theorem sameIds_prunedRegistry (reg : GenerationRegistry) : SameIds reg (prunedRegistry reg) := by
  refine ⟨(prunedRegistry_roles reg).1, ?_⟩
  suffices h : ∀ (ids : List UInt32) (r : GenerationRegistry),
      (ids.foldl markPruned r).nextGenerationId = r.nextGenerationId from h _ reg
  intro ids
  induction ids with
  | nil => exact fun _ => rfl
  | cons id ids ih => exact fun r => ih (markPruned r id)

/-- The changes that a call which creates nothing is made of, on a disk that was `d` before: it
saves the boot state or the configuration, the manifest of a stored generation with another status
or pin, a registry with the same ids, or it sweeps. -/
inductive Change (reg : GenerationRegistry) (d : Disk) : Disk → Disk → Prop where
  | bootState (b : BootState) (d' : Disk) : Change reg d d' (d'.setBootState b)
  | limineConf (conf : LimineConf) (d' : Disk) : Change reg d d' (d'.setLimineConf conf)
  | manifest {i : UInt32} {man : GenerationManifest} (hman : d.manifests i = some man)
    (status : GenerationStatus) (isPinned : Bool) (d' : Disk) :
    Change reg d d' (d'.setManifest { man with status := status, isPinned := isPinned })
  | registry {r : GenerationRegistry} (hr : SameIds reg r) (d' : Disk) :
    Change reg d d' (d'.setRegistry r)
  | swept {ids : List UInt32} {d' d'' : Disk} (hs : Swept ids d' d'') : Change reg d d' d''

section

variable {m : Manager} {reg : GenerationRegistry} {d d₁ d' : Disk} {c : Call}

theorem changes_within {ws : List (Disk → Disk)} (hws : ∀ u ∈ ws, ∀ d', Change reg d d' (u d'))
    (hin : Within ws d₁ d') : Relation.ReflTransGen (Change reg d) d₁ d' :=
  hin.induction (P := Relation.ReflTransGen (Change reg d) d₁) .refl
    fun u hu d' hd' => hd'.tail (hws u hu d')

variable {man : GenerationManifest}

theorem change_activateWrites {genId : UInt32} (hman : d.manifests genId = some man) :
    ∀ u ∈ activateWrites m reg man genId, ∀ d', Change reg d d' (u d') :=
  forall_mem_activateWrites.2 ⟨.bootState _, .limineConf _,
    .manifest hman .candidate man.isPinned, .registry ⟨ids_modify _ _ fun _ => rfl, rfl⟩⟩

theorem change_attestWrites (b : BootState) {target : UInt32}
    (hman : d.manifests target = some man) :
    ∀ u ∈ attestWrites m reg b man target, ∀ d', Change reg d d' (u d') :=
  forall_mem_attestWrites.2 ⟨.bootState _, .manifest hman .healthy man.isPinned,
    .registry (sameIds_markHealthy reg target), .limineConf _⟩

theorem change_rollbackWrites (target : UInt32) :
    ∀ u ∈ rollbackWrites m reg target, ∀ d', Change reg d d' (u d') :=
  forall_mem_rollbackWrites.2 ⟨.bootState _, .registry ⟨(Remap.rollbackTo target).ids, rfl⟩,
    .limineConf _⟩

theorem changes_failManifest (old target : UInt32) :
    Relation.ReflTransGen (Change reg d) d (failManifest old target d) := by
  rw [failManifest]
  split
  · next man hman =>
    split
    · exact .single (.manifest hman .failed man.isPinned d)
    · exact .refl
  · exact .refl

theorem changes_pinManifest (id : UInt32) (pinned : Bool) :
    Relation.ReflTransGen (Change reg d) d (pinManifest id pinned d) := by
  rw [pinManifest]
  split
  · next man hman => exact .single (.manifest hman man.status pinned d)
  · exact .refl

/-- **What a call that creates nothing does**, whatever fails in it, is a sequence of changes. -/
theorem changes_step (hd : d.Ready reg) (hc : c.op.creates = false) :
    Relation.ReflTransGen (Change reg d) d (step m d c) := by
  have hcases := step_cases (m := m) hd c
  generalize step m d c = d' at hcases ⊢
  obtain ⟨op, env⟩ := c
  cases op with
  | create => cases hc
  | activate genId =>
    rcases hcases with ⟨-, man, hg, rfl⟩ | ⟨-, rfl | ⟨-, man, hg, hin⟩⟩
    · exact changes_within (change_activateWrites hg.manifest) (within_applyAll _ d)
    · exact .refl
    · exact changes_within (change_activateWrites hg.manifest) hin
  | attest genId caller =>
    rcases hcases with ⟨-, b, man, target, d₁, hg, hsw, rfl⟩ |
      ⟨-, rfl | ⟨-, b, man, target, hg, hin | hsw⟩⟩
    · have hall : Relation.ReflTransGen (Change reg d) d
          (applyAll (attestWrites m reg b man target) d) :=
        changes_within (change_attestWrites b hg.manifest) (within_applyAll _ d)
      have hsame := sameIds_markHealthy reg target
      have hpruned := sameIds_prunedRegistry (markHealthy reg target)
      exact (hall.tail (.swept hsw)).tail
        (.registry ⟨hpruned.ids.trans hsame.ids, hpruned.next.trans hsame.next⟩ d₁)
    · exact .refl
    · exact changes_within (change_attestWrites b hg.manifest) hin
    · exact (changes_within (change_attestWrites (m := m) b hg.manifest)
        (within_applyAll _ d)).tail (.swept hsw)
  | rollback targetId =>
    rcases hcases with ⟨-, -, d₁, hd₁, rfl⟩ | ⟨-, rfl | ⟨-, -, d₁, hd₁, hin⟩⟩
    · have h₁ : Relation.ReflTransGen (Change reg d) d d₁ := by
        rcases hd₁ with rfl | ⟨-, rfl⟩
        exacts [changes_failManifest _ _, .refl]
      exact h₁.trans (changes_within (change_rollbackWrites _) (within_applyAll _ d₁))
    · exact .refl
    · have h₁ : Relation.ReflTransGen (Change reg d) d d₁ := by
        rcases hd₁ with rfl | rfl
        exacts [changes_failManifest _ _, .refl]
      exact h₁.trans (changes_within (change_rollbackWrites _) hin)
  | setPinned id pinned =>
    rcases hcases with ⟨-, d₁, hd₁, rfl⟩ | ⟨-, rfl | ⟨-, rfl⟩⟩
    · have h₁ : Relation.ReflTransGen (Change reg d) d d₁ := by
        rcases hd₁ with rfl | ⟨-, rfl⟩
        exacts [changes_pinManifest _ _, .refl]
      exact h₁.tail (.registry ⟨ids_pin reg id pinned, rfl⟩ d₁)
    · exact .refl
    · exact changes_pinManifest _ _

/-- It leaves an initialised disk with the same ids and the same counter. -/
theorem ready_step_of_not_creates (hd : d.Ready reg) (hc : c.op.creates = false) :
    ∃ reg', (step m d c).Ready reg' ∧ SameIds reg reg' := by
  have hchanges := changes_step (m := m) hd hc
  generalize step m d c = d' at hchanges ⊢
  induction hchanges with
  | refl => exact ⟨reg, hd, .refl reg⟩
  | tail _ hchange ih =>
    obtain ⟨r, hr, hsame⟩ := ih
    cases hchange with
    | bootState b => exact ⟨r, hr.setBootState b, hsame⟩
    | limineConf conf => exact ⟨r, hr.setLimineConf conf, hsame⟩
    | manifest => exact ⟨r, hr.setManifest _, hsame⟩
    | registry hr' => exact ⟨_, hr.setRegistry _, hr'⟩
    | swept hs => exact ⟨r, hr.swept hs, hsame⟩

end

end Control
