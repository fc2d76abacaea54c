import MahinaOS.Control.Creation
import MahinaOS.Control.Trial

/-!
# The generation on trial

Activation starts a trial: the boot state names the candidate in stage `candidateTrial`, and the
candidate's manifest and registry entry get the status `candidate`.  The registry's current
generation stays the one the candidate was created from until attestation.

* **`trialFails_along_iff`**: a rollback is meant to fail the candidate it leaves, but what it marks
  is the current generation, so the candidate can be activated again (`trial_survives`).
* **`candidateOnTrial_along_iff`**: when there is at most one generation with the status
  `candidate`, and it is on trial.  Two activations in a row leave two (`two_candidates`).

The first is about the invariant `Apart`, which every call keeps; the second about the ids of the
candidates, with one lemma for each registry update.
-/

namespace Control

open Faulty ListUpdate Run List Manager Option

/-! ## Trials in the boot state -/

/-- The boot state records a trial of generation `id`. -/
def Disk.Trials (d : Disk) (id : UInt32) : Prop :=
  ∃ b ∈ d.bootRecord?, b.stage = .candidateTrial ∧ b.generationId = id

instance (d : Disk) (id : UInt32) : Decidable (d.Trials id) :=
  inferInstanceAs (Decidable (∃ b ∈ d.bootRecord?, _))

section

variable {m : Manager} {reg : GenerationRegistry} {d d' : Disk} {c : Call} {i j : UInt32}

theorem Disk.Trials.unique (h : d.Trials i) (h' : d.Trials j) : i = j := by
  obtain ⟨b, hb, -, rfl⟩ := h
  obtain ⟨b', hb', -, rfl⟩ := h'
  rw [mem_def] at hb hb'
  rw [hb, some.injEq] at hb'
  rw [hb']

theorem trials_congr (h : d'.bootState = d.bootState) : d'.Trials i ↔ d.Trials i := by
  rw [Disk.Trials, Disk.Trials, Disk.bootRecord?, Disk.bootRecord?, h]

variable {b : BootState} {genId target : UInt32} {u : Disk → Disk} {ws : List (Disk → Disk)}
  {man : GenerationManifest}

theorem not_trials (hb : d.bootState = some b.toRecord)
    (hline : BootState.LineValue b.bootId.toList) (hstage : b.stage ≠ .candidateTrial) :
    ¬d.Trials i := by
  rintro ⟨b', hb', hs, -⟩
  rw [bootRecord?_eq hb hline, mem_def, some.injEq] at hb'
  exact hstage (hb' ▸ hs)

/-- The boot state of an activation records a trial of the generation it activates. -/
theorem trials_activated (hb : d.bootState = some (trialBootState reg genId).toRecord) :
    d.Trials i ↔ i = genId := by
  have hrec := bootRecord?_eq hb (BootState.lineValue_append_toString (by decide) genId)
  constructor
  · rintro ⟨b, hb', -, rfl⟩
    rw [hrec, mem_def, some.injEq] at hb'
    rw [← hb']
    rfl
  · rintro rfl
    exact ⟨_, hrec, rfl, rfl⟩

/-! ## Rolling back from a trial -/

theorem Within.cons (h : Within (u :: ws) d d') : d' = d ∨ Within ws (u d) d' := by
  obtain ⟨n, rfl⟩ := h
  rcases n with - | n
  · exact .inl rfl
  · exact .inr ⟨n, rfl⟩

/-- The generation on trial is not the current one, and its manifest is not marked failed. -/
def TrialApart (d : Disk) : Prop :=
  ∀ i, d.Trials i → d.current? ≠ some i ∧ ∀ man ∈ d.manifests i, man.status ≠ .failed

theorem trialApart_of_not_trials (h : ∀ i, ¬d.Trials i) : TrialApart d := fun i hi =>
  absurd hi (h i)

/-- Leaving the boot state and the current generation, and marking nothing else failed. -/
theorem TrialApart.frame (h : TrialApart d) (hb : d'.bootState = d.bootState)
    (hc : d'.current? = d.current?)
    (hm : ∀ i, d.Trials i → ∀ man' ∈ d'.manifests i, man'.status = .failed →
      ∃ man ∈ d.manifests i, man.status = .failed) : TrialApart d' := by
  intro i hi
  rw [trials_congr hb] at hi
  obtain ⟨hcur, hman⟩ := h i hi
  refine ⟨hc ▸ hcur, fun man' hman' hf => ?_⟩
  obtain ⟨man, hmem, hs⟩ := hm i hi man' hman' hf
  exact hman man hmem hs

theorem manifests_setManifest {man' : GenerationManifest}
    (h : (d.setManifest man).manifests i = some man') :
    i = man.id ∧ man' = man ∨ d.manifests i = some man' := by
  rcases eq_or_ne i man.id with rfl | hne
  · refine .inl ⟨rfl, ?_⟩
    simp only [Disk.setManifest, Function.update_self, some.injEq] at h
    exact h.symm
  · simp only [Disk.setManifest, Function.update_of_ne hne] at h
    exact .inr h

/-- Once an activation has recorded the trial, the boot state, the current generation and the
manifest of the one on trial stay as they are meant to be. -/
theorem within_activated (hd : d.Ready reg) (hg : ActivateGuard d reg genId man)
    (hin : Within (activateWrites m reg man genId).tail
      (d.setBootState (trialBootState reg genId)) d') :
    d'.bootState = some (trialBootState reg genId).toRecord ∧
      d'.current? = some reg.currentGenerationId ∧
      ∀ man' ∈ d'.manifests genId, man'.status ≠ .failed := by
  refine hin.induction (P := fun d' =>
    d'.bootState = some (trialBootState reg genId).toRecord ∧
      d'.current? = some reg.currentGenerationId ∧
      ∀ man' ∈ d'.manifests genId, man'.status ≠ .failed) ⟨rfl, hd.current?, ?_⟩ ?_
  · intro man' hman' hf
    obtain rfl : man = man' := some.inj (hg.manifest.symm.trans hman')
    have hstatus := hg.status
    rw [hf] at hstatus
    exact hstatus.elim nofun nofun
  · simp only [activateWrites, tail_cons, forall_mem_cons, not_mem_nil,
      false_imp_iff, implies_true, and_true]
    refine ⟨fun _ hp => hp, fun d' hp => ⟨hp.1, hp.2.1, fun man' hman' hf => ?_⟩,
      fun _ hp => ⟨hp.1, rfl, hp.2.2⟩⟩
    rcases manifests_setManifest hman' with ⟨-, rfl⟩ | hold
    · cases hf
    · exact hp.2.2 man' hold hf

/-- Wherever an activation stops, it has put the generation on trial that it was asked to, or
none. -/
theorem TrialApart.activated (hd : d.Ready reg) (h : TrialApart d)
    (hg : ActivateGuard d reg genId man) (hparent : man.parentId ≠ some genId)
    (hin : Within (activateWrites m reg man genId) d d') : TrialApart d' := by
  have hne : reg.currentGenerationId ≠ genId := fun heq => hparent (heq ▸ hg.parent)
  -- until the trial is recorded nothing has changed; from then on only that generation matters
  rcases hin.cons with rfl | hin
  · exact h
  obtain ⟨hboot, hcur, hman⟩ := within_activated hd hg hin
  intro i hi
  obtain rfl := (trials_activated hboot).1 hi
  refine ⟨fun heq => hne ?_, hman⟩
  rw [hcur, some.injEq] at heq
  exact heq

/-- An attestation has ended the trial once it has saved the boot state. -/
theorem not_trials_attested {genId : Option UInt32} (hg : AttestGuard d genId b man target)
    (hb : d'.bootState = some (attestedBootState b target).toRecord) : ¬d'.Trials i := by
  obtain ⟨t, -, hparse⟩ := hg.bootState
  have hline : BootState.LineValue b.bootId.toList := BootState.lineValue_of_parse hparse
  exact not_trials (b := attestedBootState b target) hb hline
    (show BootStage.normalBoot ≠ .candidateTrial by decide)

/-- So has a rollback. -/
theorem not_trials_rolledBack
    (hb : d'.bootState = some (rollbackBootState target).toRecord) : ¬d'.Trials i :=
  not_trials hb (BootState.lineValue_append_toString (by decide) target)
    (show BootStage.failedRollback ≠ .candidateTrial by decide)

/-- The writes after the first one leave the boot state alone. -/
theorem bootState_within (hws : ∀ v ∈ ws, ∀ d, (v d).bootState = d.bootState)
    (hin : Within (u :: ws) d d') : d' = d ∨ d'.bootState = (u d).bootState := by
  refine hin.cons.imp_right fun hin => ?_
  exact hin.induction (P := fun d' => d'.bootState = (u d).bootState) rfl
    fun v hv d hd => (hws v hv d).trans hd

theorem TrialApart.withinAttest (h : TrialApart d) {genId : Option UInt32}
    (hg : AttestGuard d genId b man target) (hin : Within (attestWrites m reg b man target) d d') :
    TrialApart d' := by
  rcases bootState_within (by simp [Disk.setManifest, Disk.setRegistry, Disk.setLimineConf])
    hin with rfl | hb
  · exact h
  · exact trialApart_of_not_trials fun i => not_trials_attested hg hb

theorem TrialApart.withinRollback (h : TrialApart d)
    (hin : Within (rollbackWrites m reg target) d d') : TrialApart d' := by
  rcases bootState_within (by simp [Disk.setRegistry, Disk.setLimineConf]) hin with rfl | hb
  · exact h
  · exact trialApart_of_not_trials fun i => not_trials_rolledBack hb

/-- A rollback fails the manifest of the current generation, and no other. -/
theorem failManifest_of_ne (hk : d.Keyed) {old : UInt32}
    (target : UInt32) (hi : i ≠ old) : (failManifest old target d).manifests i = d.manifests i := by
  rw [failManifest]
  split
  · next man hman =>
    split
    · exact Function.update_of_ne (hk old man hman ▸ hi) ..
    · rfl
  · rfl

theorem failManifest_files (old target : UInt32) (d : Disk) :
    (failManifest old target d).bootState = d.bootState ∧
      (failManifest old target d).registry = d.registry := by
  rw [failManifest]
  split
  · split <;> exact ⟨rfl, rfl⟩
  · exact ⟨rfl, rfl⟩

theorem TrialApart.failManifest (hd : d.Ready reg) (h : TrialApart d) (target : UInt32) :
    TrialApart (failManifest reg.currentGenerationId target d) := by
  obtain ⟨hboot, hreg⟩ := failManifest_files reg.currentGenerationId target d
  refine h.frame hboot (by rw [Disk.current?, hreg]; rfl) fun i hi man' hman' hf => ?_
  have hne : i ≠ reg.currentGenerationId := fun heq =>
    (h i hi).1 (heq ▸ hd.current?)
  rw [failManifest_of_ne hd.keyed target hne] at hman'
  exact ⟨man', hman', hf⟩

theorem TrialApart.pinManifest (hk : d.Keyed)
    (h : TrialApart d) (id : UInt32) (pinned : Bool) : TrialApart (pinManifest id pinned d) := by
  rw [Control.pinManifest]
  split
  · next man hman =>
    refine h.frame rfl rfl fun i hi man' hman' hf => ?_
    rcases manifests_setManifest hman' with ⟨hid, rfl⟩ | hold
    · obtain rfl : i = id := hid.trans (hk id man hman)
      exact ⟨man, hman, hf⟩
    · exact ⟨man', hold, hf⟩
  · exact h

/-- **A call that creates nothing** keeps the generation on trial apart, whatever fails in it. -/
theorem TrialApart.step (hd : d.Ready reg)
    (hparent : ∀ i man, d.manifests i = some man → man.parentId ≠ some i) (h : TrialApart d)
    (hc : c.op.creates = false) : TrialApart (step m d c) := by
  have hcases := step_cases (m := m) hd c
  generalize Control.step m d c = d' at hcases ⊢
  obtain ⟨op, env⟩ := c
  cases op with
  | create => cases hc
  | activate genId =>
    rcases hcases with ⟨-, man, hg, rfl⟩ | ⟨-, rfl | ⟨-, man, hg, hin⟩⟩
    · exact h.activated hd hg (hparent genId man hg.manifest) (within_applyAll _ d)
    · exact h
    · exact h.activated hd hg (hparent genId man hg.manifest) hin
  | attest genId caller =>
    rcases hcases with ⟨-, b, man, target, d₁, hg, hsw, rfl⟩ |
      ⟨-, rfl | ⟨-, b, man, target, hg, hin | hsw⟩⟩
    · exact trialApart_of_not_trials fun i => not_trials_attested hg hsw.bootState
    · exact h
    · exact h.withinAttest hg hin
    · exact trialApart_of_not_trials fun i => not_trials_attested hg hsw.bootState
  | rollback targetId =>
    rcases hcases with ⟨-, -, d₁, hd₁, rfl⟩ | ⟨-, rfl | ⟨-, -, d₁, hd₁, hin⟩⟩
    · exact trialApart_of_not_trials fun i => not_trials_rolledBack rfl
    · exact h
    · have h₁ : TrialApart d₁ := by
        rcases hd₁ with rfl | rfl
        exacts [h.failManifest hd _, h]
      exact h₁.withinRollback hin
  | setPinned id pinned =>
    rcases hcases with ⟨-, d₁, hd₁, rfl⟩ | ⟨-, rfl | ⟨-, rfl⟩⟩
    · have h₁ : d₁.Ready reg ∧ TrialApart d₁ := by
        rcases hd₁ with rfl | ⟨-, rfl⟩
        exacts [⟨hd.pinManifest _ _, h.pinManifest hd.keyed _ _⟩, ⟨hd, h⟩]
      exact h₁.2.frame rfl h₁.1.current?.symm fun _ _ man hman hf => ⟨man, hman, hf⟩
    · exact h
    · exact h.pinManifest hd.keyed _ _

/-- The invariant of every history: no generation is its own parent, and the one on trial is apart
from the current one. -/
structure Apart (reg : GenerationRegistry) (d : Disk) : Prop where
  ready : d.Ready reg
  baseline : defaultBaselineGenId < reg.nextGenerationId
  parent : ∀ i man, d.manifests i = some man → man.parentId ≠ some i
  trial : TrialApart d

/-- A creation does not get the id of the current generation.  The counter saturates, so this can
only fail at the last `u32`. -/
def SparesCurrent (d : Disk) (c : Call) : Prop :=
  match c.op with
  | .create .. => ∀ reg ∈ d.registry, reg.nextGenerationId ≠ reg.currentGenerationId
  | .activate _ | .attest .. | .rollback _ | .setPinned .. => True

instance (d : Disk) (c : Call) : Decidable (SparesCurrent d c) := by
  unfold SparesCurrent
  rcases c.op <;> infer_instance

theorem parent_step (hd : d.Ready reg)
    (hparent : ∀ i man, d.manifests i = some man → man.parentId ≠ some i)
    (hc : c.op.creates = false) :
    ∀ i man, (step m d c).manifests i = some man → man.parentId ≠ some i := by
  have hchanges := changes_step (m := m) hd hc
  generalize step m d c = d' at hchanges ⊢
  induction hchanges with
  | refl => exact hparent
  | tail _ hchange ih =>
    cases hchange with
    | bootState | limineConf | registry => exact ih
    | manifest hman =>
      intro i man' hman'
      rcases manifests_setManifest hman' with ⟨rfl, rfl⟩ | hold
      · have hne := hparent _ _ hman
        rwa [← hd.keyed _ _ hman] at hne
      · exact ih i man' hold
    | swept hs =>
      intro i man' hman'
      rcases hs.manifests i with hsame | ⟨-, man, hman, hpruned⟩
      · exact ih i man' (hsame ▸ hman')
      · rw [hpruned, some.injEq] at hman'
        exact hman' ▸ ih i man hman

theorem le_saturatingSucc (n : UInt32) : n ≤ saturatingSucc n := by
  rw [UInt32.le_iff_toNat_le, toNat_saturatingSucc]
  have hlt := n.toNat_lt
  omega

namespace Apart

/-- A new manifest at most, with the current generation as its parent. -/
theorem created (h : Apart reg d) (hne : reg.nextGenerationId ≠ reg.currentGenerationId)
    {man : GenerationManifest} (hparent : man.parentId = some reg.currentGenerationId)
    (hstatus : man.status = .staged) {reg' : GenerationRegistry} (hready : d'.Ready reg')
    (hnext : reg'.nextGenerationId = saturatingSucc reg.nextGenerationId)
    (hcur : reg'.currentGenerationId = reg.currentGenerationId)
    (hboot : d'.bootState = d.bootState)
    (hman : ∀ i man', d'.manifests i = some man' →
      d.manifests i = some man' ∨ i = reg.nextGenerationId ∧ man' = man) : Apart reg' d' where
  ready := hready
  baseline := hnext ▸ UInt32.lt_of_lt_of_le h.baseline (le_saturatingSucc _)
  parent i man' hi := by
    rcases hman i man' hi with hold | ⟨rfl, rfl⟩
    · exact h.parent i man' hold
    · rw [hparent, ne_eq, some.injEq]
      exact hne.symm
  trial := by
    refine h.trial.frame hboot (by rw [hready.current?, h.ready.current?, hcur]) ?_
    intro i _ man' hi hf
    rcases hman i man' hi with hold | ⟨-, rfl⟩
    · exact ⟨man', hold, hf⟩
    · rw [hstatus] at hf
      cases hf

/-- **One call**, whatever fails in it. -/
theorem step (h : Apart reg d) (hc : SparesCurrent d c) : ∃ reg', Apart reg' (step m d c) := by
  rcases hcr : c.op.creates with - | -
  · obtain ⟨reg', hready, hsame⟩ := ready_step_of_not_creates (m := m) h.ready hcr
    exact ⟨reg', hready, hsame.next ▸ h.baseline, parent_step h.ready h.parent hcr,
      h.trial.step h.ready h.parent hcr⟩
  · have hne : reg.nextGenerationId ≠ reg.currentGenerationId := by
      obtain ⟨op, env⟩ := c
      cases op with
      | create => exact hc reg h.ready.registry
      | activate | attest | rollback | setPinned => cases hcr
    rcases create_cases (m := m) h.ready hcr with ⟨-, hstep⟩ |
      ⟨-, man, hid, hparent, hstatus, hstep | ha⟩
    · exact ⟨reg, hstep.symm ▸ h⟩
    · rw [hstep]
      refine ⟨_, h.created hne hparent hstatus (h.ready.created man) rfl rfl rfl ?_⟩
      intro i man' hman'
      rcases manifests_setManifest hman' with ⟨rfl, rfl⟩ | hold
      exacts [.inr ⟨hid, rfl⟩, .inl hold]
    · have hbase : defaultBaselineGenId ≠ reg.nextGenerationId := fun heq =>
        UInt32.lt_irrefl _ (heq ▸ h.baseline)
      refine ⟨_, h.created hne hparent hstatus (h.ready.abandoned hbase hid ha) rfl rfl
        ha.bootState ?_⟩
      intro i man' hman'
      rcases eq_or_ne i reg.nextGenerationId with rfl | hi
      · rcases ha.manifest with hold | ⟨-, hnew | hnone⟩
        · exact .inl (hold.symm.trans hman')
        · exact .inr ⟨rfl, some.inj (hman'.symm.trans hnew)⟩
        · rw [hnone] at hman'
          cases hman'
      · exact .inl ((ha.others i hi).1.symm.trans hman')

end Apart

theorem apart_baseline (digestHex : String → String) :
    Apart .baseline (baselineDisk digestHex) where
  ready := (stored_baselineDisk digestHex).toReady
  baseline := by decide
  parent i man h := by
    simp only [baselineDisk, Function.update_apply] at h
    split at h
    · cases h
      exact (some_ne_none i).symm
    · cases h
  trial := trialApart_of_not_trials fun i => not_trials rfl (by decide)
    (show BootStage.normalBoot ≠ .candidateTrial by decide)

end

/-- The call is a successful rollback, away from a trial of generation `id`. -/
def LeavesTrial (m : Manager) (d : Disk) (c : Call) (id : UInt32) : Prop :=
  match c.op with
  | .rollback targetId => Succeeds m d c ∧ d.Trials id ∧
    ∀ reg ∈ d.registry, targetId.getD reg.fallbackGenerationId ≠ id
  | .create .. | .activate _ | .attest .. | .setPinned .. => False

/-- Both the manifest and the registry entry of a generation are marked failed. -/
def MarkedFailed (d : Disk) (id : UInt32) : Prop :=
  (∃ man ∈ d.manifests id, man.status = .failed) ∧
    ∃ reg ∈ d.registry, ∃ g ∈ reg.getSummary id, g.status = .failed

/-- If the call rolls back from a trial, the generation on trial is marked failed, and it cannot be
activated any more. -/
def TrialFails (m : Manager) (d : Disk) (c : Call) : Prop :=
  ∀ id, LeavesTrial m d c id → MarkedFailed (step m d c) id ∧
    ∀ env, ¬Succeeds m (step m d c) ⟨.activate id, env⟩

theorem not_markedFailed {m : Manager} {reg : GenerationRegistry} {d : Disk} {c : Call}
    (h : Apart reg d) {id : UInt32} (hl : LeavesTrial m d c id) :
    ¬MarkedFailed (step m d c) id := by
  obtain ⟨op, env⟩ := c
  cases op with
  | create | activate | attest | setPinned => exact hl.elim
  | rollback targetId =>
    obtain ⟨hs, htrial, -⟩ := hl
    obtain ⟨-, d₁, hd₁, hstep⟩ := hs.okEffect h.ready
    obtain ⟨hcur, hman⟩ := h.trial id htrial
    have hne : id ≠ reg.currentGenerationId := fun heq => hcur (heq ▸ h.ready.current?)
    -- a rollback changes the manifest of the current generation and no other
    have hkept : (step m d ⟨.rollback targetId, env⟩).manifests id = d.manifests id := by
      rw [hstep]
      rcases hd₁ with rfl | ⟨-, rfl⟩
      exacts [failManifest_of_ne h.ready.keyed _ hne, rfl]
    rintro ⟨⟨man, hmem, hf⟩, -⟩
    rw [hkept] at hmem
    exact hman man hmem hf

/-- **A rollback never fails the generation on trial.**  In every history of lifecycle calls,
whatever fails in them, as long as no creation gets the id of the current generation: a successful
rollback away from a trial marks the generation on trial as failed, in its manifest and in the
registry, so that it cannot be activated again, in exactly the histories without such a rollback. -/
theorem trialFails_along_iff (m : Manager) (calls : List Call)
    (h : Along (step m) SparesCurrent (baselineDisk m.digestHex) calls) :
    Along (step m) (TrialFails m) (baselineDisk m.digestHex) calls ↔
      Along (step m) (fun d c => ∀ id, ¬LeavesTrial m d c id) (baselineDisk m.digestHex) calls := by
  refine along_iff (I := fun d => ∃ reg, Apart reg d) ?_ ?_ ⟨_, apart_baseline _⟩ h
  · rintro d c ⟨reg, hd⟩ hc -
    exact hd.step hc
  · rintro d c ⟨reg, hd⟩ -
    constructor
    · exact fun hfails id hl => not_markedFailed hd hl (hfails id hl).1
    · exact fun hno id hl => absurd hl (hno id)

/-- A trial, a rollback from it and another trial of the same generation. -/
theorem trialFails_along_iff_sample :
    Along (step sampleManager) (TrialFails sampleManager) sampleStart
        [sampleCreate, sampleActivate 102, sampleRollback none, sampleActivate 102] ↔
      Along (step sampleManager) (fun d c => ∀ id, ¬LeavesTrial sampleManager d c id) sampleStart
        [sampleCreate, sampleActivate 102, sampleRollback none, sampleActivate 102] :=
  trialFails_along_iff sampleManager
    [sampleCreate, sampleActivate 102, sampleRollback none, sampleActivate 102] (by decide +kernel)

/-- Generation 102 is on trial, and the rollback goes to 101.  Its manifest and its registry entry
are those of a candidate afterwards, and it can be activated again. -/
theorem trial_survives :
    let d := run (step sampleManager) sampleStart [sampleCreate, sampleActivate 102]
    let d' := step sampleManager d (sampleRollback none)
    d.Trials 102 ∧ Succeeds sampleManager d (sampleRollback none) ∧ d'.bootGeneration? = some 101 ∧
      (d'.manifests 102).map (·.status) = some .candidate ∧
      (d'.registry.bind (·.getSummary 102)).map (·.status) = some .candidate ∧
      Succeeds sampleManager d' (sampleActivate 102) := by
  decide +kernel

/-! ## Candidates in the registry -/

/-- The ids of the generations with the status `candidate`. -/
def GenerationRegistry.candidates (reg : GenerationRegistry) : List UInt32 :=
  (reg.generations.filter (·.status = .candidate)).map (·.id)

section

variable {m : Manager} {reg reg' : GenerationRegistry} {d : Disk} {c : Call} {i : UInt32}

theorem mem_candidates :
    i ∈ reg.candidates ↔ ∃ g ∈ reg.generations, g.id = i ∧ g.status = .candidate := by
  simp [GenerationRegistry.candidates, List.mem_map, mem_filter, decide_eq_true_eq, and_assoc,
    and_comm]

/-- If there is one candidate among them, there is only one. -/
theorem length_candidates_le_one (hn : reg.ids.Nodup)
    (h : ∀ j ∈ reg.candidates, j = i) : reg.candidates.length ≤ 1 := by
  have hnodup : reg.candidates.Nodup := hn.sublist (filter_sublist.map _)
  generalize reg.candidates = l at h hnodup
  rcases l with - | ⟨a, l⟩
  · exact Nat.zero_le 1
  · rcases l with - | ⟨b, l⟩
    · exact le_rfl
    · have hab : a = b := (h a (by simp)).trans (h b (by simp)).symm
      simp [hab] at hnodup

/-- An update of the entries, by what it does to their status. -/
theorem Remap.mem_candidates {f : GenerationSummary → GenerationSummary} (hr : Remap f reg reg') :
    i ∈ reg'.candidates ↔ ∃ g ∈ reg.generations, g.id = i ∧ (f g).status = .candidate := by
  rw [Control.mem_candidates, hr.generations]
  simp only [List.mem_map, exists_exists_and_eq_and, hr.id]

theorem candidates_addCandidate (man : GenerationManifest) :
    (addCandidate reg man).candidates = reg.candidates := by
  simp [GenerationRegistry.candidates, addCandidate, candidateSummary]

theorem mem_candidates_markCandidate (hn : reg.ids.Nodup) (id : UInt32) :
    i ∈ (markCandidate reg id).candidates ↔
      i ∈ reg.candidates ∨ i = id ∧ id ∈ reg.ids := by
  rw [(Remap.markCandidate hn id).mem_candidates, mem_candidates]
  constructor
  · rintro ⟨g, hg, rfl, hs⟩
    split at hs
    · next hid => exact .inr ⟨hid, hid ▸ mem_map_of_mem hg⟩
    · exact .inl ⟨g, hg, rfl, hs⟩
  · rintro (⟨g, hg, rfl, hs⟩ | ⟨rfl, hmem⟩)
    · refine ⟨g, hg, rfl, ?_⟩
      split
      exacts [rfl, hs]
    · obtain ⟨g, hg, rfl⟩ := mem_map.1 hmem
      exact ⟨g, hg, rfl, by rw [if_pos rfl]⟩

theorem mem_candidates_pin (hn : reg.ids.Nodup) (id : UInt32) (pinned : Bool) :
    i ∈ (reg.pin id pinned).candidates ↔ i ∈ reg.candidates := by
  rw [(Remap.pin hn id pinned).mem_candidates, mem_candidates]
  refine exists_congr fun g => and_congr_right fun _ => and_congr_right fun _ => ?_
  split <;> rfl

/-- A rollback only turns the candidate it leaves into a failed generation. -/
theorem mem_candidates_rollbackTo (target : UInt32) :
    i ∈ (rollbackTo reg target).candidates ↔
      i ∈ reg.candidates ∧ (i = target ∨ i ≠ reg.currentGenerationId) := by
  rw [(Remap.rollbackTo target).mem_candidates, mem_candidates]
  constructor
  · rintro ⟨g, hg, rfl, hs⟩
    refine ⟨⟨g, hg, rfl, status_of_rollbackEntry (by decide) hs⟩, ?_⟩
    by_contra hcon
    rw [not_or, not_not] at hcon
    rw [rollbackEntry, if_neg hcon.1, if_pos hcon.2] at hs
    split at hs
    · cases hs
    · next hc => exact hc hs
  · rintro ⟨⟨g, hg, rfl, hs⟩, hor⟩
    refine ⟨g, hg, rfl, ?_⟩
    rw [rollbackEntry]
    split
    · exact hs
    · next hne => rw [if_neg (hor.resolve_left hne), hs]

/-- An attestation turns its target into a healthy generation, and no other candidate. -/
theorem mem_candidates_markHealthy (hn : reg.ids.Nodup) (target : UInt32) :
    i ∈ (markHealthy reg target).candidates ↔ i ∈ reg.candidates ∧ i ≠ target := by
  by_cases hne : reg.currentGenerationId = target
  · subst hne
    rw [(Remap.reattest hn).mem_candidates, mem_candidates]
    constructor
    · rintro ⟨g, hg, rfl, hs⟩
      split at hs
      · cases hs
      · next hid => exact ⟨⟨g, hg, rfl, hs⟩, hid⟩
    · rintro ⟨⟨g, hg, rfl, hs⟩, hid⟩
      exact ⟨g, hg, rfl, by rw [if_neg hid, hs]⟩
  · rw [(Remap.promote hne).mem_candidates, mem_candidates]
    constructor
    · rintro ⟨g, hg, rfl, hs⟩
      rw [promoteEntry] at hs
      split at hs
      · next hold =>
        split at hs
        · cases hs
        · exact ⟨⟨g, hg, rfl, hs⟩, hold ▸ hne⟩
      · split at hs
        · cases hs
        · next hid => exact ⟨⟨g, hg, rfl, hs⟩, hid⟩
    · rintro ⟨⟨g, hg, rfl, hs⟩, hid⟩
      refine ⟨g, hg, rfl, ?_⟩
      rw [promoteEntry]
      split
      · rw [if_neg (by rw [hs]; decide), hs]
      · exact hs

/-- A sweep prunes no candidate. -/
theorem mem_candidates_prunedRegistry (hn : reg.ids.Nodup) :
    i ∈ (prunedRegistry reg).candidates ↔ i ∈ reg.candidates := by
  rw [prunedRegistry, (Remap.markPruned hn reg.prunable).mem_candidates, mem_candidates]
  refine exists_congr fun g => and_congr_right fun hg => and_congr_right fun _ => ?_
  split
  · next hmem =>
    refine iff_of_false (show GenerationStatus.pruned ≠ .candidate by decide) fun hs => ?_
    obtain ⟨g', hg', hid, hp⟩ := of_mem_prunable hmem
    obtain rfl := eq_of_id_eq hn hg' hg hid
    simp [GenerationRegistry.isPrunable, hs] at hp
  · exact .rfl

end

/-- At most one registered generation has the status `candidate`, and the boot state records a trial
of it. -/
def CandidateOnTrial (d : Disk) : Prop :=
  ∃ reg ∈ d.registry, reg.candidates.length ≤ 1 ∧ ∀ i ∈ reg.candidates, d.Trials i

instance (d : Disk) : Decidable (CandidateOnTrial d) := by
  unfold CandidateOnTrial
  infer_instance

/-- An activation, an attestation or a rollback does not leave a candidate behind: what is a
candidate is the generation that is activated or attested, or it is failed by the rollback. -/
def LeavesNoCandidate (d : Disk) (c : Call) : Prop :=
  match c.op with
  | .activate genId => ∀ reg ∈ d.registry, ∀ i ∈ reg.candidates, i = genId
  | .attest genId _ => ∀ reg ∈ d.registry, ∀ b ∈ d.bootRecord?, ∀ i ∈ reg.candidates,
    i = genId.getD b.generationId
  | .rollback targetId => ∀ reg ∈ d.registry, ∀ i ∈ reg.candidates,
    i = reg.currentGenerationId ∧ i ≠ targetId.getD reg.fallbackGenerationId
  | .create .. | .setPinned .. => True

section

variable {m : Manager} {reg reg' : GenerationRegistry} {d d' : Disk} {c : Call}

theorem candidateOnTrial_iff (hd : Stored reg d) (hn : reg.ids.Nodup) :
    CandidateOnTrial d ↔ ∀ i ∈ reg.candidates, d.Trials i := by
  constructor
  · rintro ⟨reg', hreg', -, h⟩
    obtain rfl := hd.eq_of_registry hreg'
    exact h
  · intro h
    refine ⟨reg, hd.registry, ?_, h⟩
    rcases hl : reg.candidates with - | ⟨a, l⟩
    · exact Nat.zero_le 1
    · have ha : d.Trials a := h a (by simp [hl])
      rw [← hl]
      exact length_candidates_le_one hn fun j hj => (h j hj).unique ha

/-- **One successful call**: every candidate is on trial afterwards iff it leaves none behind. -/
theorem onTrial_step (hd : Stored reg d) (hn : reg.ids.Nodup)
    (h : ∀ i ∈ reg.candidates, d.Trials i) (hfresh : FreshId d c)
    (he : OkEffect m reg d c d') (hs : Stored reg' d') :
    reg'.ids.Nodup ∧ ((∀ i ∈ reg'.candidates, d'.Trials i) ↔ LeavesNoCandidate d c) := by
  obtain ⟨op, env⟩ := c
  cases op with
  | create =>
    obtain rfl := he
    obtain rfl := hs.eq_of_registry rfl
    have hn' : reg.bumpNextId.ids.Nodup := hn
    refine ⟨nodup_addCandidate hn' (hfresh reg hd.registry), iff_of_true ?_ trivial⟩
    rw [candidates_addCandidate]
    exact fun i hi => (trials_congr rfl).2 (h i hi)
  | activate genId =>
    obtain ⟨man, hg, rfl⟩ := he
    obtain rfl := hs.eq_of_registry rfl
    refine ⟨(Remap.markCandidate hn genId).ids.symm ▸ hn, ?_⟩
    have htrial : ∀ i, (applyAll (activateWrites m reg man genId) d).Trials i ↔ i = genId :=
      fun i => trials_activated rfl
    simp only [htrial, mem_candidates_markCandidate hn, LeavesNoCandidate, hd.registry,
      mem_def, some.injEq, forall_eq']
    constructor
    · exact fun hall i hi => hall i (.inl hi)
    · rintro hall i (hi | ⟨rfl, -⟩)
      exacts [hall i hi, rfl]
  | attest genId caller =>
    obtain ⟨b, man, target, d₁, hg, hsw, rfl⟩ := he
    obtain rfl := hs.eq_of_registry rfl
    have hn' : (markHealthy reg target).ids.Nodup := (ids_markHealthy reg target).symm ▸ hn
    refine ⟨(prunedRegistry_roles _).1.symm ▸ hn', ?_⟩
    have hno : ∀ i, ¬(d₁.setRegistry
        (prunedRegistry (markHealthy reg target))).Trials i :=
      fun i => not_trials_attested hg hsw.bootState
    obtain ⟨t, ht, hb⟩ := hg.bootState
    obtain ⟨hrec, hline⟩ := hd.parsed ht hb
    have hboot := bootRecord?_eq hrec hline
    simp only [hno, mem_candidates_prunedRegistry hn', mem_candidates_markHealthy hn,
      LeavesNoCandidate, hd.registry, hboot, mem_def, some.injEq, forall_eq',
      ← hg.resolves]
    exact forall_congr' fun i => by
      rw [imp_false, not_and, not_not]
  | rollback targetId =>
    obtain ⟨-, d₁, -, rfl⟩ := he
    obtain rfl := hs.eq_of_registry rfl
    refine ⟨(Remap.rollbackTo _).ids.symm ▸ hn, ?_⟩
    have hno : ∀ i, ¬(applyAll (rollbackWrites m reg
        (targetId.getD reg.fallbackGenerationId)) d₁).Trials i :=
      fun i => not_trials_rolledBack rfl
    simp only [hno, mem_candidates_rollbackTo, LeavesNoCandidate, hd.registry, mem_def,
      some.injEq, forall_eq']
    refine forall_congr' fun i => ?_
    rw [imp_false, not_and, not_or, not_not, and_comm]
  | setPinned id pinned =>
    obtain ⟨d₁, hd₁, rfl⟩ := he
    obtain rfl := hs.eq_of_registry rfl
    refine ⟨ids_pin reg id pinned ▸ hn, iff_of_true ?_ trivial⟩
    intro i hi
    exact (trials_congr (pinned_files hd₁).1).2 (h i ((mem_candidates_pin hn id pinned).1 hi))

end

/-- **Every candidate is on trial exactly in the histories that never leave one behind.**  In every
history of successful calls in which ids are not allocated twice: after each call at most one
generation has the status `candidate` and the boot state records a trial of it, iff each activation
and attestation is made while no other generation has that status, and each rollback while none has
it but a current generation that it leaves. -/
theorem candidateOnTrial_along_iff (m : Manager) (calls : List Call)
    (h : Along (step m) (SucceedsFresh m) (baselineDisk m.digestHex) calls) :
    Along (step m) (fun d c => CandidateOnTrial (step m d c)) (baselineDisk m.digestHex) calls ↔
      Along (step m) LeavesNoCandidate (baselineDisk m.digestHex) calls := by
  have hone : ∀ d c, (∃ reg, Stored reg d ∧ reg.ids.Nodup ∧ ∀ i ∈ reg.candidates, d.Trials i) →
      SucceedsFresh m d c → ∃ reg', Stored reg' (step m d c) ∧ reg'.ids.Nodup ∧
        ((∀ i ∈ reg'.candidates, (step m d c).Trials i) ↔ LeavesNoCandidate d c) := by
    rintro d c ⟨reg, hd, hn, htrial⟩ ⟨hsucc, hfresh⟩
    have he := hsucc.okEffect hd.toReady
    obtain ⟨reg', hs, -⟩ := hd.okEffect he
    exact ⟨reg', hs, onTrial_step hd hn htrial hfresh he hs⟩
  have hnone : GenerationRegistry.baseline.candidates = [] := by decide
  refine along_iff (I := fun d => ∃ reg, Stored reg d ∧ reg.ids.Nodup ∧
    ∀ i ∈ reg.candidates, d.Trials i) ?_ ?_ ⟨_, stored_baselineDisk _, by decide, by simp [hnone]⟩ h
  · intro d c hI hsf hleaves
    obtain ⟨reg', hs, hn', hiff⟩ := hone d c hI hsf
    exact ⟨reg', hs, hn', hiff.2 hleaves⟩
  · intro d c hI hsf
    obtain ⟨reg', hs, hn', hiff⟩ := hone d c hI hsf
    exact (candidateOnTrial_iff hs hn').trans hiff

/-- A trial that is attested, and another one after it. -/
theorem candidateOnTrial_along_iff_sample :
    Along (step sampleManager) (fun d c => CandidateOnTrial (step sampleManager d c)) sampleStart
        [sampleCreate, sampleActivate 102, sampleAttest none, sampleCreate, sampleActivate 103] ↔
      Along (step sampleManager) LeavesNoCandidate sampleStart
        [sampleCreate, sampleActivate 102, sampleAttest none, sampleCreate, sampleActivate 103] :=
  candidateOnTrial_along_iff sampleManager
    [sampleCreate, sampleActivate 102, sampleAttest none, sampleCreate, sampleActivate 103]
    (by decide +kernel)

/-- Two generations are created from 101 and activated one after the other.  Every call succeeds,
and both are candidates at the end. -/
theorem two_candidates :
    let calls := [sampleCreate, sampleCreate, sampleActivate 102, sampleActivate 103]
    Along (step sampleManager) (SucceedsFresh sampleManager) sampleStart calls ∧
      (run (step sampleManager) sampleStart calls).registry.map (·.candidates) = some [102, 103] ∧
      ¬CandidateOnTrial (run (step sampleManager) sampleStart calls) := by
  decide +kernel

end Control
