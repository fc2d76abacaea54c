import MahinaOS.Control.Invariants

/-!
# Histories of the generation lifecycle

What holds in every state a history of lifecycle calls can reach from the baseline system.

* **Roles.**  The registry says twice which generation is current and which is the fallback: by id
  and by the flags of the entries.  `flagsAgree_along_iff`: as long as no write fails and no id is
  allocated twice, the two agree throughout a history *iff* every attestation that promotes a
  generation happens while the fallback is the old or the new current generation.  A second
  promotion in a row leaves two entries flagged as fallback (`flagsDisagree_two_promotions`).
* **Attestation.**  `onlyBooted_along_iff`: in a history without I/O failures, every generation that
  attestation promotes is the one the boot loader was last told to boot *iff* every promoting call
  names no id or the id recorded in the boot state.
* **Retention.**  `namesNoPruned_along_iff`: in a history of successful calls nothing that the
  system would boot is a pruned generation *iff* no rollback is asked to go to one.
-/

namespace Control

open Faulty ListUpdate Run List Manager Option

/-! ## Roles: ids and flags -/

/-- Exactly one entry is flagged current and exactly one fallback, and they are the ones the
registry names. -/
def RolesAgree (reg : GenerationRegistry) : Prop :=
  (reg.generations.filter (·.isCurrent)).map (·.id) = [reg.currentGenerationId] ∧
    (reg.generations.filter (·.isFallback)).map (·.id) = [reg.fallbackGenerationId]

instance (reg : GenerationRegistry) : Decidable (RolesAgree reg) :=
  inferInstanceAs (Decidable (_ ∧ _))

/-- The flags of the stored registry agree with its ids. -/
def FlagsAgree (d : Disk) : Prop := ∃ reg ∈ d.registry, RolesAgree reg

instance (d : Disk) : Decidable (FlagsAgree d) :=
  inferInstanceAs (Decidable (∃ reg ∈ d.registry, RolesAgree reg))

/-- The inductive form of `RolesAgree`: a flag is set exactly at its id, and ids are unique. -/
structure Roles (reg : GenerationRegistry) : Prop where
  nodup : reg.ids.Nodup
  current_mem : reg.currentGenerationId ∈ reg.ids
  fallback_mem : reg.fallbackGenerationId ∈ reg.ids
  current : ∀ g ∈ reg.generations, g.isCurrent = true ↔ g.id = reg.currentGenerationId
  fallback : ∀ g ∈ reg.generations, g.isFallback = true ↔ g.id = reg.fallbackGenerationId

variable {reg : GenerationRegistry}

theorem Roles.agree (h : Roles reg) : RolesAgree reg :=
  ⟨map_filter_eq_singleton h.nodup h.current_mem h.current,
    map_filter_eq_singleton h.nodup h.fallback_mem h.fallback⟩

theorem RolesAgree.fallback (h : RolesAgree reg) {g : GenerationSummary}
    (hg : g ∈ reg.generations) (hf : g.isFallback = true) : g.id = reg.fallbackGenerationId := by
  have hmem : g.id ∈ (reg.generations.filter (·.isFallback)).map (·.id) :=
    mem_map.2 ⟨g, mem_filter.2 ⟨hg, hf⟩, rfl⟩
  rw [h.2] at hmem
  exact mem_singleton.1 hmem

theorem markHealthy_current (reg : GenerationRegistry) (target : UInt32) :
    (markHealthy reg target).currentGenerationId = target := by
  unfold markHealthy
  dsimp only
  split
  · rfl
  · rename_i h
    exact not_not.1 h

theorem fallback_promoted {target : UInt32} (hne : reg.currentGenerationId ≠ target) :
    (markHealthy reg target).fallbackGenerationId = reg.currentGenerationId := by
  rw [markHealthy, if_pos hne]

theorem fallback_reattested (reg : GenerationRegistry) :
    (markHealthy reg reg.currentGenerationId).fallbackGenerationId = reg.fallbackGenerationId := by
  rw [markHealthy, if_neg (not_not.2 rfl)]
  rfl

theorem rollbackEntry_isFallback (old target : UInt32) (g : GenerationSummary) :
    (rollbackEntry old target g).isFallback = g.isFallback := by
  rw [rollbackEntry]
  split
  · rfl
  · split <;> rfl

namespace Roles

variable {f : GenerationSummary → GenerationSummary} {reg reg' : GenerationRegistry}

variable (h : Roles reg)

include h

/-- An update of the entries keeps the roles if the new flags follow the new ids. -/
theorem remap (hr : Remap f reg reg')
    (hc : reg'.currentGenerationId ∈ reg.ids) (hfb : reg'.fallbackGenerationId ∈ reg.ids)
    (hcur : ∀ g ∈ reg.generations, (f g).isCurrent = true ↔ g.id = reg'.currentGenerationId)
    (hfall : ∀ g ∈ reg.generations, (f g).isFallback = true ↔ g.id = reg'.fallbackGenerationId) :
    Roles reg' where
  nodup := hr.ids ▸ h.nodup
  current_mem := hr.ids ▸ hc
  fallback_mem := hr.ids ▸ hfb
  current := hr.forall_mem fun g hg => by rw [hr.id]; exact hcur g hg
  fallback := hr.forall_mem fun g hg => by rw [hr.id]; exact hfall g hg

theorem remap_same (hr : Remap f reg reg') (hc : reg'.currentGenerationId = reg.currentGenerationId)
    (hfb : reg'.fallbackGenerationId = reg.fallbackGenerationId)
    (hf : ∀ g, (f g).isCurrent = g.isCurrent ∧ (f g).isFallback = g.isFallback) : Roles reg' := by
  refine h.remap hr (hc ▸ h.current_mem) (hfb ▸ h.fallback_mem) (fun g hg => ?_) fun g hg => ?_
  · rw [(hf g).1, hc]
    exact h.current g hg
  · rw [(hf g).2, hfb]
    exact h.fallback g hg

theorem bumpNextId : Roles reg.bumpNextId := { h with }

theorem markCandidate (id : UInt32) : Roles (markCandidate reg id) :=
  h.remap_same (.markCandidate h.nodup id) rfl rfl fun g => by split <;> exact ⟨rfl, rfl⟩

theorem pin (id : UInt32) (pinned : Bool) : Roles (reg.pin id pinned) :=
  h.remap_same (.pin h.nodup id pinned) rfl rfl fun g => by split <;> exact ⟨rfl, rfl⟩

theorem prunedRegistry : Roles (prunedRegistry reg) :=
  h.remap_same (.markPruned h.nodup _) (prunedRegistry_roles reg).2.1 (prunedRegistry_roles reg).2.2
    fun g => by split <;> exact ⟨rfl, rfl⟩

variable {target : UInt32}

theorem rollbackTo (ht : target ∈ reg.ids) : Roles (rollbackTo reg target) := by
  refine h.remap (.rollbackTo target) ht h.fallback_mem (fun g hg => ?_) fun g hg => ?_
  · show _ ↔ g.id = target
    have hcur := h.current g hg
    rw [rollbackEntry]
    split
    · rename_i ht
      exact iff_of_true rfl ht
    · rename_i ht
      split
      · exact iff_of_false Bool.false_ne_true ht
      · rename_i hold
        exact iff_of_false (fun h => hold (hcur.1 h)) ht
  · show _ ↔ g.id = reg.fallbackGenerationId
    rw [← h.fallback g hg, rollbackEntry_isFallback]

/-- Attestation keeps the roles if the old fallback is the old or the new current generation. -/
theorem markHealthy (ht : target ∈ reg.ids) (hfb : target ≠ reg.currentGenerationId →
      reg.fallbackGenerationId = reg.currentGenerationId ∨ reg.fallbackGenerationId = target) :
    Roles (markHealthy reg target) := by
  have hcur := markHealthy_current reg target
  by_cases hne : reg.currentGenerationId = target
  · subst hne
    have hfall := fallback_reattested reg
    refine h.remap (.reattest h.nodup) (by rw [hcur]; exact h.current_mem)
      (by rw [hfall]; exact h.fallback_mem) (fun g hg => ?_) fun g hg => ?_
    · rw [hcur]
      have := h.current g hg
      split <;> simp_all
    · rw [hfall, ← h.fallback g hg]
      split <;> rfl
  · have hfall := fallback_promoted hne
    refine h.remap (.promote hne) (by rw [hcur]; exact ht) (by rw [hfall]; exact h.current_mem)
      (fun g hg => ?_) fun g hg => ?_
    · rw [hcur]
      have hg' := h.current g hg
      rw [promoteEntry]
      split
      · rename_i heq
        simp [heq, hne]
      · split
        · simp [*]
        · rw [hg']
          simp [*]
    · rw [hfall]
      have hg' := h.fallback g hg
      rw [promoteEntry]
      split
      · simp [*]
      · split
        · rename_i hold htgt
          simp [hold]
        · rename_i hold htgt
          rw [hg']
          have hor := hfb (Ne.symm hne)
          refine iff_of_false (fun heq => ?_) hold
          rcases hor with hor | hor
          · exact hold (heq.trans hor)
          · exact htgt (heq.trans hor)

theorem addCandidate {man : GenerationManifest} (hnew : man.id ∉ reg.ids) :
    Roles (addCandidate reg man) := by
  have hmem : ∀ id ∈ reg.ids, id ∈ (Manager.addCandidate reg man).ids := fun id hid =>
    ids_addCandidate reg man ▸ mem_append_left _ hid
  -- the new entry has no flag, and an id without a role
  have hflag {flag : GenerationSummary → Bool} {id : UInt32} (hid : id ∈ reg.ids)
      (hold : ∀ g ∈ reg.generations, flag g = true ↔ g.id = id)
      (hfalse : flag (candidateSummary man) = false) :
      ∀ g ∈ (Manager.addCandidate reg man).generations, flag g = true ↔ g.id = id := by
    refine forall_mem_append.2 ⟨hold, forall_mem_singleton.2 (iff_of_false (by simp [hfalse]) ?_)⟩
    exact fun heq : man.id = id => hnew (heq ▸ hid)
  exact ⟨nodup_addCandidate h.nodup hnew, hmem _ h.current_mem, hmem _ h.fallback_mem,
    hflag h.current_mem h.current rfl, hflag h.fallback_mem h.fallback rfl⟩

end Roles

/-! ### Runs -/

variable (m : Manager) (d : Disk) (c : Call)

def Disk.current? : Option UInt32 := d.registry.map (·.currentGenerationId)

def Disk.fallback? : Option UInt32 := d.registry.map (·.fallbackGenerationId)

/-- A creation allocates an id that is not registered yet.  The counter saturates, so this can only
fail at the last `u32`. -/
def FreshId : Prop :=
  match c.op with
  | .create .. => ∀ reg ∈ d.registry, reg.nextGenerationId ∉ reg.ids
  | _ => True

/-- No file write fails, and creations allocate fresh ids. -/
def Orderly : Prop := c.env.faults .write = [] ∧ FreshId d c

/-- An attestation moves the current generation only while the fallback is the current generation
or the one that is attested, which the call names or the boot state records. -/
def PromotesBesideFallback : Prop :=
  match c.op with
  | .attest genId _ => (step m d c).current? ≠ d.current? →
    d.fallback? = d.current? ∨ d.fallback? = genId.or d.bootGeneration?
  | _ => True

instance : Decidable (FreshId d c) := by
  unfold FreshId
  split <;> infer_instance

instance : Decidable (Orderly d c) := inferInstanceAs (Decidable (_ ∧ _))

section

variable {m : Manager} {reg reg' : GenerationRegistry} {d : Disk} {c : Call}

theorem Disk.Ready.current? (hd : d.Ready reg) : d.current? = some reg.currentGenerationId := by
  rw [Disk.current?, hd.registry]
  rfl

theorem Stored.fallback? (h : Stored reg d) : d.fallback? = some reg.fallbackGenerationId := by
  rw [Disk.fallback?, h.registry]
  rfl

/-- An attestation that moves the current generation moves it to the id that the call names, or else
to the one recorded in the boot state. -/
theorem current?_attest (hd : Stored reg d) {genId : Option UInt32} {caller : PeerCredentials}
    {env : Env} (hne : (step m d ⟨.attest genId caller, env⟩).current? ≠ d.current?) :
    ∃ r, d.bootGeneration? = some r ∧
      (step m d ⟨.attest genId caller, env⟩).current? = some (genId.getD r) := by
  obtain ⟨b, man, target, hguard, hcur⟩ : ∃ b man target, AttestGuard d genId b man target ∧
      (step m d ⟨.attest genId caller, env⟩).current? = some target := by
    rcases step_cases (m := m) hd.toReady ⟨.attest genId caller, env⟩ with ⟨-, he⟩ | ⟨-, he⟩
    · obtain ⟨b, man, target, d₁, hguard, -, hd'⟩ := he
      refine ⟨b, man, target, hguard, ?_⟩
      rw [hd']
      show some (prunedRegistry (markHealthy reg target)).currentGenerationId = some target
      rw [(prunedRegistry_roles _).2.1, markHealthy_current]
    · rcases he with hsame | ⟨-, b, man, target, hguard, hin⟩
      · exact absurd (congrArg Disk.current? hsame) hne
      · obtain ⟨r, hr | hr, hs⟩ := hd.unfinishedAttest hguard hin
        · exact absurd ((hr ▸ hs).current?.trans hd.current?.symm) hne
        · exact ⟨b, man, target, hguard,
            (hr ▸ hs).current?.trans (congrArg some (markHealthy_current reg target))⟩
  obtain ⟨t, ht, hb⟩ := hguard.bootState
  have hrec := hd.parsed ht hb
  exact ⟨b.generationId, Stored.bootGeneration? hrec.1 hrec.2, hguard.resolves ▸ hcur⟩

/-- Promoting over a third fallback leaves two entries flagged. -/
theorem fallback_of_rolesAgree_promote {target : UInt32} (h : Roles reg)
    (hne : reg.currentGenerationId ≠ target)
    (hagree : RolesAgree (markHealthy reg target) ∨
      RolesAgree (prunedRegistry (markHealthy reg target))) :
    reg.fallbackGenerationId = reg.currentGenerationId ∨ reg.fallbackGenerationId = target := by
  by_contra hcon
  rw [not_or] at hcon
  obtain ⟨g, hg, hid⟩ := mem_map.1 h.fallback_mem
  have hflag : g.isFallback = true := (h.fallback g hg).2 hid
  -- the entry of the old fallback is not touched by the promotion
  have hkeep : g ∈ (markHealthy reg target).generations := by
    rw [(Remap.promote hne).generations]
    refine mem_map.2 ⟨g, hg, ?_⟩
    rw [promoteEntry, if_neg (hid ▸ hcon.1), if_neg (hid ▸ hcon.2)]
  have hnew := fallback_promoted hne
  rcases hagree with hagree | hagree
  · exact hcon.1 (hid.symm.trans ((hagree.fallback hkeep hflag).trans hnew))
  · have hn : (markHealthy reg target).ids.Nodup := ids_markHealthy reg target ▸ h.nodup
    have hp := Remap.markPruned hn (markHealthy reg target).prunable
    have hmem := hp.generations ▸ mem_map.2 ⟨g, hkeep, rfl⟩
    have hid' := hagree.fallback hmem (by split <;> exact hflag)
    rw [hp.id, (prunedRegistry_roles _).2.2, hnew, hid] at hid'
    exact hcon.1 hid'

theorem promotesBesideFallback_iff {genId : Option UInt32} {caller env} {target : UInt32}
    (hd : Stored reg d) (hnow : (step m d ⟨.attest genId caller, env⟩).current? = some target) :
    PromotesBesideFallback m d ⟨.attest genId caller, env⟩ ↔
      (target ≠ reg.currentGenerationId → reg.fallbackGenerationId = reg.currentGenerationId ∨
        reg.fallbackGenerationId = target) := by
  rcases eq_or_ne target reg.currentGenerationId with heq | hne
  · exact iff_of_true (fun h => absurd (hnow.trans (heq ▸ hd.current?.symm)) h)
      fun h => absurd heq h
  · have hmoved : (step m d ⟨.attest genId caller, env⟩).current? ≠ d.current? := by
      rw [hnow, hd.current?]
      exact fun h => hne (some.inj h)
    obtain ⟨r, hr, hcur⟩ := current?_attest hd hmoved
    have hattested : genId.or d.bootGeneration? = some target := by
      rw [hr, ← hnow, hcur]
      cases genId <;> rfl
    simp [PromotesBesideFallback, hnow, hne, hattested, hd.current?, hd.fallback?]

/-- One call: the roles are kept iff it does not promote over a third fallback. -/
theorem roles_step (hd : Stored reg d) (h : Roles reg) (ho : Orderly d c) :
    ∃ reg', Stored reg' (step m d c) ∧ (PromotesBesideFallback m d c → Roles reg') ∧
      (RolesAgree reg' → PromotesBesideFallback m d c) := by
  obtain ⟨reg', hs, hstep⟩ := hd.step (m := m) ho.1
  refine ⟨reg', hs, ?_⟩
  rcases hstep with rfl | hstep
  · refine ⟨fun _ => h, fun _ => ?_⟩
    rw [PromotesBesideFallback]
    split
    · exact fun hne => absurd (hs.current?.trans hd.current?.symm) hne
    · trivial
  obtain ⟨op, env⟩ := c
  cases op with
  | create =>
    refine ⟨fun _ => ?_, fun _ => trivial⟩
    rcases hstep with rfl | ⟨man, hid, rfl⟩
    · exact h.bumpNextId
    · exact h.bumpNextId.addCandidate (hid ▸ ho.2 reg hd.registry)
  | activate genId =>
    obtain rfl := hstep
    exact ⟨fun _ => h.markCandidate genId, fun _ => trivial⟩
  | rollback targetId =>
    obtain ⟨target, ht, rfl⟩ := hstep
    exact ⟨fun _ => h.rollbackTo ht, fun _ => trivial⟩
  | setPinned id pinned =>
    obtain rfl := hstep
    exact ⟨fun _ => h.pin id pinned, fun _ => trivial⟩
  | attest genId caller =>
    obtain ⟨target, ht, hreg⟩ := hstep
    have hcur : reg'.currentGenerationId = target := by
      rcases hreg with rfl | rfl
      · exact markHealthy_current reg target
      · exact (prunedRegistry_roles _).2.1.trans (markHealthy_current reg target)
    rw [promotesBesideFallback_iff hd (hs.current?.trans (congrArg some hcur))]
    refine ⟨fun hb => ?_, fun hagree hne => ?_⟩
    · have hroles := h.markHealthy ht hb
      rcases hreg with rfl | rfl
      exacts [hroles, hroles.prunedRegistry]
    · refine fallback_of_rolesAgree_promote h (.symm hne) ?_
      rcases hreg with rfl | rfl
      exacts [.inl hagree, .inr hagree]

end

/-! ### Concrete histories

A manager in its default configuration, with a constant digest, and the calls the concrete
histories are made of. -/

def sampleManager : Manager := { digestHex := fun _ => "" }

def root : PeerCredentials := ⟨1, 0, 0⟩

def sampleCreate : Call := { op := .create "Upgrade" "Linux 6.6.30" "[]" "k_hash" "initrd_hash" }

def sampleActivate (genId : UInt32) : Call := { op := .activate genId }

def sampleAttest (genId : Option UInt32) : Call := { op := .attest genId root }

def sampleRollback (targetId : Option UInt32) : Call := { op := .rollback targetId }

def sampleStart : Disk := baselineDisk sampleManager.digestHex

/-- **Ids and flags agree exactly in the histories that never promote over a third fallback.**
For every history in which no file write fails and no id is allocated twice — reads, directory
operations, snapshots and health probes may fail as they like — the flags agree with the ids after
every call iff every attestation that moves the current generation does so while the fallback is the
old or the new current generation. -/
theorem flagsAgree_along_iff (m : Manager) (calls : List Call)
    (h : Along (step m) Orderly (baselineDisk m.digestHex) calls) :
    Along (step m) (fun d c => FlagsAgree (step m d c)) (baselineDisk m.digestHex) calls ↔
      Along (step m) (PromotesBesideFallback m) (baselineDisk m.digestHex) calls := by
  refine along_iff (I := fun d => ∃ reg, Stored reg d ∧ Roles reg) ?_ ?_
    ⟨_, stored_baselineDisk _, by constructor <;> decide⟩ h
  · rintro d c ⟨reg, hd, hr⟩ ho hb
    obtain ⟨reg', hs, hroles, -⟩ := roles_step (m := m) hd hr ho
    exact ⟨reg', hs, hroles hb⟩
  · rintro d c ⟨reg, hd, hr⟩ ho
    obtain ⟨reg', hs, hroles, hback⟩ := roles_step (m := m) hd hr ho
    have hflags : FlagsAgree (step m d c) ↔ RolesAgree reg' := by
      simp [FlagsAgree, hs.registry]
    rw [hflags]
    exact ⟨hback, fun hb => (hroles hb).agree⟩

/-- One trial that is attested, and one that is rolled back. -/
theorem flagsAgree_along_iff_sample :
    Along (step sampleManager) (fun d c => FlagsAgree (step sampleManager d c)) sampleStart
        [sampleCreate, sampleActivate 102, sampleAttest none, sampleRollback none] ↔
      Along (step sampleManager) (PromotesBesideFallback sampleManager) sampleStart
        [sampleCreate, sampleActivate 102, sampleAttest none, sampleRollback none] :=
  flagsAgree_along_iff sampleManager
    [sampleCreate, sampleActivate 102, sampleAttest none, sampleRollback none] (by decide +kernel)

/-- Two ordinary upgrades in a row: each candidate is created, activated and attested.  No write
fails and the ids are fresh, and yet both 101 and 102 are flagged as fallback at the end. -/
theorem flagsDisagree_two_promotions :
    Along (step sampleManager) Orderly sampleStart
        [sampleCreate, sampleActivate 102, sampleAttest none,
          sampleCreate, sampleActivate 103, sampleAttest none] ∧
      ¬FlagsAgree (run (step sampleManager) sampleStart
        [sampleCreate, sampleActivate 102, sampleAttest none,
          sampleCreate, sampleActivate 103, sampleAttest none]) := by
  decide +kernel

/-! ## Attestation and the boot loader -/

/-- The generation the last written `limine.conf` tells the boot loader to boot. -/
def Disk.bootDefault? : Option UInt32 := d.limineConf.bind (·.default?)

/-- The generation a call promotes: an attestation that returns `Ok` and moves the current
generation. -/
def promoted : Option UInt32 :=
  match c.op with
  | .attest .. =>
    if Succeeds m d c ∧ (step m d c).current? ≠ d.current? then (step m d c).current? else none
  | _ => none

/-- A generation that the call promotes is the one the boot loader was told to boot. -/
def OnlyBooted : Prop :=
  ∀ g ∈ promoted m d c, d.bootDefault? = some g

/-- A promoting call names no generation, or the one recorded in the boot state. -/
def NamesRecorded : Prop :=
  match c.op with
  | .attest (some id) _ => promoted m d c ≠ none → d.bootGeneration? = some id
  | _ => True

def NoIoFailure (_ : Disk) (c : Call) : Prop := Quiet c.env.faults

instance : Decidable (NoIoFailure d c) :=
  inferInstanceAs (Decidable (Quiet c.env.faults))

/-- The boot state on disk, as it is read back. -/
def Disk.bootRecord? : Option BootState :=
  d.bootState.bind fun t => (BootState.parse t).toOption

/-- The operations that rewrite the boot state and `limine.conf`. -/
def Op.retargets : Op → Bool
  | .activate _ | .attest .. | .rollback _ => true
  | .create .. | .setPinned .. => false

/-- The first entry of `limine.conf` is for the generation of the boot state, and it carries
`mahina.candidate=1` exactly when that is a trial. -/
def BootAgrees : Prop :=
  ∃ conf ∈ d.limineConf, ∃ e ∈ conf.entries.head?, ∃ b ∈ d.bootRecord?,
    e.id = b.generationId ∧ (e.trial = true ↔ b.stage = .candidateTrial)

/-- The boot loader configuration and the boot state name the same generation; until the first
configuration is written, the boot state names the current one. -/
def Linked (reg : GenerationRegistry) (d : Disk) : Prop :=
  match d.limineConf with
  | none => d.bootGeneration? = some reg.currentGenerationId
  | some conf => conf.default? = d.bootGeneration?

section

variable {m : Manager} {reg reg' : GenerationRegistry} {d d' : Disk} {c : Call}

/-- Linked is kept by a call that touches neither file nor the current generation. -/
theorem Linked.frame (h : Linked reg d) (hb : d'.bootState = d.bootState)
    (hl : d'.limineConf = d.limineConf)
    (hc : reg'.currentGenerationId = reg.currentGenerationId) : Linked reg' d' := by
  unfold Linked Disk.bootGeneration? at *
  rw [hl, hb, hc]
  exact h

theorem Stored.eq_of_registry (h : Stored reg d) (hr : d.registry = some reg') : reg = reg' := by
  rw [h.registry, some.injEq] at hr
  exact hr

/-- Pinning leaves the files of the boot loader alone, also where there is no manifest to write. -/
theorem pinned_files {id : UInt32} {pinned : Bool} {d d₁ : Disk} {P : Prop}
    (h : d₁ = pinManifest id pinned d ∨ P ∧ d₁ = d) :
    d₁.bootState = d.bootState ∧ d₁.limineConf = d.limineConf := by
  rcases h with rfl | ⟨-, rfl⟩
  · rw [pinManifest]
    split <;> exact ⟨rfl, rfl⟩
  · exact ⟨rfl, rfl⟩

theorem bootRecord?_eq {b : BootState} (hb : d.bootState = some b.toRecord)
    (hline : BootState.LineValue b.bootId.toList) : d.bootRecord? = some b := by
  rw [Disk.bootRecord?, hb, bind_some, BootState.parse_toRecord hline]
  rfl

theorem BootAgrees.of_written {b : BootState} {conf : LimineConf} {e : LimineEntry}
    (hb : d.bootState = some b.toRecord) (hline : BootState.LineValue b.bootId.toList)
    (hconf : d.limineConf = some conf) (he : conf.entries.head? = some e)
    (hid : e.id = b.generationId) (htrial : e.trial = true ↔ b.stage = .candidateTrial) :
    BootAgrees d :=
  ⟨conf, hconf, e, he, b, bootRecord?_eq hb hline, hid, htrial⟩

theorem BootAgrees.frame (h : BootAgrees d) (hb : d'.bootState = d.bootState)
    (hl : d'.limineConf = d.limineConf) : BootAgrees d' := by
  rw [BootAgrees, Disk.bootRecord?, hb, hl]
  exact h

/-- A successful call that retargets the boot loader makes the two files agree, and every other
successful call leaves both alone. -/
theorem BootAgrees.okEffect (hd : Stored reg d) (he : OkEffect m reg d c d')
    (h : c.op.retargets = true ∨ BootAgrees d) : BootAgrees d' := by
  obtain ⟨op, env⟩ := c
  cases op with
  | create =>
    obtain rfl := he
    exact (h.resolve_left Bool.false_ne_true).frame rfl rfl
  | activate genId =>
    obtain ⟨man, hg, rfl⟩ := he
    exact .of_written rfl (BootState.lineValue_append_toString (by decide) genId) rfl
      (LimineConfigGenerator.head?_generate_some _ (hd.mem_ids hg.manifest)) rfl
      (iff_of_true rfl rfl)
  | attest genId caller =>
    obtain ⟨b, man, target, d₁, hg, hsw, rfl⟩ := he
    obtain ⟨t, ht, hb⟩ := hg.bootState
    refine .of_written hsw.bootState (hd.parsed ht hb).2 hsw.limineConf
      (LimineConfigGenerator.head?_generate_none _) ?_ (iff_of_false Bool.false_ne_true nofun)
    exact markHealthy_current ..
  | rollback targetId =>
    obtain ⟨-, d₁, -, rfl⟩ := he
    exact .of_written rfl (BootState.lineValue_append_toString (by decide) _) rfl
      (LimineConfigGenerator.head?_generate_none _) rfl (iff_of_false Bool.false_ne_true nofun)
  | setPinned id pinned =>
    obtain ⟨d₁, hd₁, rfl⟩ := he
    exact (h.resolve_left Bool.false_ne_true).frame (pinned_files hd₁).1 (pinned_files hd₁).2

theorem BootAgrees.linked (h : BootAgrees d) (reg : GenerationRegistry) : Linked reg d := by
  obtain ⟨conf, hconf, e, he, b, hb, hid, -⟩ := h
  have hboot : d.bootGeneration? = d.bootRecord?.map (·.generationId) := map_bind.symm
  rw [Linked, hconf, hboot, hb]
  dsimp only
  rw [LimineConf.default?, he]
  exact congrArg some hid

/-- A call that succeeds keeps the link. -/
theorem Linked.okEffect (hd : Stored reg d) (h : Linked reg d) (he : OkEffect m reg d c d')
    (hs : Stored reg' d') : Linked reg' d' := by
  cases hop : c.op.retargets with
  | true => exact (BootAgrees.okEffect hd he (.inl hop)).linked reg'
  | false =>
    obtain ⟨op, env⟩ := c
    cases op with
    | activate | attest | rollback => cases hop
    | create =>
      obtain rfl := he
      obtain rfl := hs.eq_of_registry rfl
      exact h.frame rfl rfl rfl
    | setPinned id pinned =>
      obtain ⟨d₁, hd₁, rfl⟩ := he
      obtain rfl := hs.eq_of_registry rfl
      exact h.frame (pinned_files hd₁).1 (pinned_files hd₁).2 rfl

/-- Without faults a call that fails has changed nothing the link depends on. -/
theorem Linked.errEffect (hd : Stored reg d) (h : Linked reg d) (hq : Quiet c.env.faults)
    (he : ErrEffect m reg d c d') (hs : Stored reg' d') : Linked reg' d' := by
  have hsame : d' = d → Linked reg' d' := fun hd' => by
    subst hd'
    exact hd.eq_of_registry hs.registry ▸ h
  obtain ⟨op, env⟩ := c
  cases op with
  | create =>
    refine h.frame he.bootState he.limineConf ?_
    rcases he.registry with hr | hr
    · rw [hs.eq_of_registry hr]
    · rw [hs.eq_of_registry hr]
      rfl
  | activate | attest | rollback | setPinned => exact hsame (he.resolve_right fun h => h.1 hq)

theorem linked_step (hd : Stored reg d) (h : Linked reg d) (hq : Quiet c.env.faults) :
    ∃ reg', Stored reg' (step m d c) ∧ Linked reg' (step m d c) := by
  obtain ⟨reg', hs, -⟩ := hd.step (m := m) (hq _)
  refine ⟨reg', hs, ?_⟩
  rcases step_cases (m := m) hd.toReady c with ⟨-, he⟩ | ⟨-, he⟩
  exacts [h.okEffect hd he hs, h.errEffect hd hq he hs]

/-- A promotion moves the current generation to the id the call names, or else to the one recorded
in the boot state. -/
theorem promoted_eq (hd : Stored reg d) {genId : Option UInt32} {caller : PeerCredentials}
    {env : Env} {g : UInt32} (hg : promoted m d ⟨.attest genId caller, env⟩ = some g) :
    g ≠ reg.currentGenerationId ∧
      ∃ r, d.bootGeneration? = some r ∧ g = genId.getD r := by
  rw [promoted] at hg
  dsimp only at hg
  split at hg
  · rename_i hpro
    rw [hg, hd.current?] at hpro
    refine ⟨fun h => hpro.2 (congrArg some h), ?_⟩
    have hmoved : (step m d ⟨.attest genId caller, env⟩).current? ≠ d.current? := by
      rw [hg, hd.current?]
      exact hpro.2
    obtain ⟨r, hr, hcur⟩ := current?_attest hd hmoved
    exact ⟨r, hr, some.inj (hg.symm.trans hcur)⟩
  · cases hg

/-- One attestation: it promotes only what was booted iff it names no id or the recorded one. -/
theorem onlyBooted_iff (hd : Stored reg d) (h : Linked reg d) :
    OnlyBooted m d c ↔ NamesRecorded m d c := by
  obtain ⟨op, env⟩ := c
  cases op with
  | create | activate | rollback | setPinned =>
    exact iff_of_true (fun g hg => by cases hg) trivial
  | attest genId caller =>
    rw [OnlyBooted]
    rcases hp : promoted m d ⟨.attest genId caller, env⟩ with - | g
    · refine iff_of_true (fun g hg => by cases hg) ?_
      rcases genId with - | id
      · trivial
      · exact fun hne => absurd hp hne
    · obtain ⟨hne, r, hr, hgr⟩ := promoted_eq hd hp
      have hdef : d.bootDefault? = some g ↔ g = r := by
        rw [Linked] at h
        unfold Disk.bootDefault?
        split at h
        · rename_i hnone
          -- nothing was ever written: the boot state names the current generation
          rw [hr, some.injEq] at h
          exact iff_of_false (by rw [hnone]; simp) fun hgr' => hne (hgr'.trans h)
        · rename_i conf hconf
          rw [hconf, bind_some, h, hr, some.injEq]
          exact eq_comm
      have hmem : (∀ g' ∈ some g, d.bootDefault? = some g') ↔ d.bootDefault? = some g := by simp
      rw [hmem, hdef]
      rcases genId with - | id
      · exact iff_of_true hgr trivial
      · have hid : g = id := hgr
        rw [hid]
        simp only [NamesRecorded, hp, hr, some.injEq, ne_eq, reduceCtorEq,
          not_false_eq_true, true_imp_iff]
        exact eq_comm

end

/-- **Attestation promotes what was booted exactly when it is not told otherwise.**  In every
history without I/O failures — snapshots, free space and health probes may fail as they like — every
generation that an attestation promotes is the default entry of the `limine.conf` last written iff
every promoting call names no generation or the one recorded in the boot state. -/
theorem onlyBooted_along_iff (m : Manager) (calls : List Call)
    (h : Along (step m) NoIoFailure (baselineDisk m.digestHex) calls) :
    Along (step m) (OnlyBooted m) (baselineDisk m.digestHex) calls ↔
      Along (step m) (NamesRecorded m) (baselineDisk m.digestHex) calls := by
  refine along_iff (I := fun d => ∃ reg, Stored reg d ∧ Linked reg d) ?_ ?_
    ⟨_, stored_baselineDisk _, Stored.bootGeneration? (b := .new _ _) rfl (by decide)⟩ h
  · rintro d c ⟨reg, hd, hl⟩ hq -
    exact linked_step hd hl hq
  · rintro d c ⟨reg, hd, hl⟩ -
    exact onlyBooted_iff hd hl

/-- A trial that is attested by the recorded id. -/
theorem onlyBooted_along_iff_sample :
    Along (step sampleManager) (OnlyBooted sampleManager) sampleStart
        [sampleCreate, sampleActivate 102, sampleAttest (some 102)] ↔
      Along (step sampleManager) (NamesRecorded sampleManager) sampleStart
        [sampleCreate, sampleActivate 102, sampleAttest (some 102)] :=
  onlyBooted_along_iff sampleManager [sampleCreate, sampleActivate 102, sampleAttest (some 102)]
    (by decide +kernel)

/-- The boot loader is told to boot 102, and 103, which was never activated, is attested. -/
theorem promoted_never_booted :
    let d := run (step sampleManager) sampleStart
      [sampleCreate, sampleCreate, sampleActivate 102]
    d.bootDefault? = some 102 ∧ promoted sampleManager d (sampleAttest (some 103)) = some 103 := by
  decide +kernel

/-! ## Retention -/

/-- No generation the system names for booting — as current, as fallback, in the boot state or in
the boot loader configuration — is a pruned one. -/
def NamesNoPruned : Prop :=
  ∃ reg ∈ d.registry, ∀ g ∈ reg.generations, g.status = .pruned →
    g.id ≠ reg.currentGenerationId ∧ g.id ≠ reg.fallbackGenerationId ∧
      d.bootGeneration? ≠ some g.id ∧ ∀ conf ∈ d.limineConf, ∀ e ∈ conf.entries, e.id ≠ g.id

/-- A rollback is not asked to go to a pruned generation. -/
def RollsBackToRetained : Prop :=
  match c.op with
  | .rollback (some target) =>
    ∀ reg ∈ d.registry, ∀ g ∈ reg.generations, g.id = target → g.status ≠ .pruned
  | _ => True

/-- The call returns `Ok`, and a creation allocates a fresh id. -/
def SucceedsFresh : Prop := Succeeds m d c ∧ FreshId d c

instance : Decidable (NamesNoPruned d) := by
  unfold NamesNoPruned
  infer_instance

instance : Decidable (SucceedsFresh m d c) :=
  inferInstanceAs (Decidable (_ ∧ _))

/-- What keeps retention away from everything that can be booted. -/
structure Retained (reg : GenerationRegistry) (d : Disk) : Prop where
  nodup : reg.ids.Nodup
  /-- A superseded generation keeps its fallback flag, which protects it. -/
  superseded : ∀ g ∈ reg.generations, g.status = .superseded → g.isFallback = true
  current : ∀ g ∈ reg.generations, g.status = .pruned → g.id ≠ reg.currentGenerationId
  fallback : ∀ g ∈ reg.generations, g.status = .pruned → g.id ≠ reg.fallbackGenerationId
  boot : ∀ g ∈ reg.generations, g.status = .pruned → d.bootGeneration? ≠ some g.id
  limine : ∀ g ∈ reg.generations, g.status = .pruned →
    ∀ conf ∈ d.limineConf, ∀ e ∈ conf.entries, e.id ≠ g.id

section

variable {m : Manager} {reg reg' : GenerationRegistry} {d d' : Disk} {c : Call}

theorem Retained.namesNoPruned (hd : Stored reg d) (h : Retained reg d) : NamesNoPruned d :=
  ⟨reg, hd.registry, fun g hg hp =>
    ⟨h.current g hg hp, h.fallback g hg hp, h.boot g hg hp, h.limine g hg hp⟩⟩

variable {g : GenerationSummary} {gen : LimineConfigGenerator} {candidateId : Option UInt32}
  {b : BootState} {man : GenerationManifest} {target : UInt32}

theorem eq_of_id_eq (hn : reg.ids.Nodup) {g' : GenerationSummary} (hg : g ∈ reg.generations)
    (hg' : g' ∈ reg.generations) (h : g.id = g'.id) : g = g' :=
  inj_on_of_nodup_map hn hg hg' h

/-- No entry of a generated configuration is for a pruned generation that has no role. -/
theorem generate_names_no_pruned (hn : reg.ids.Nodup) (hg : g ∈ reg.generations)
    (hstatus : g.status ≠ .healthy ∧ g.status ≠ .superseded) (hcand : candidateId ≠ some g.id)
    (hc : g.id ≠ reg.currentGenerationId) (hf : g.id ≠ reg.fallbackGenerationId) :
    ∀ e ∈ (gen.generate reg candidateId).entries, e.id ≠ g.id := by
  intro e he heq
  rcases LimineConfigGenerator.mem_generate gen he with h | h | h | ⟨g', hg', hid, h⟩
  · exact hcand (heq ▸ h)
  · exact hc (heq.symm.trans h)
  · exact hf (heq.symm.trans h)
  · obtain rfl := eq_of_id_eq hn hg' hg (hid.trans heq)
    exact h.elim hstatus.1 hstatus.2

/-- An update of the entries that prunes nothing and changes no role, boot state or
configuration. -/
theorem Retained.remap (h : Retained reg d) {f : GenerationSummary → GenerationSummary}
    (hr : Remap f reg reg') (hc : reg'.currentGenerationId = reg.currentGenerationId)
    (hfb : reg'.fallbackGenerationId = reg.fallbackGenerationId)
    (hb : d'.bootState = d.bootState) (hl : d'.limineConf = d.limineConf)
    (hsup : ∀ g ∈ reg.generations, (f g).status = .superseded → (f g).isFallback = true)
    (hpr : ∀ g ∈ reg.generations, (f g).status = .pruned → g.status = .pruned) :
    Retained reg' d' where
  nodup := hr.ids ▸ h.nodup
  superseded := hr.forall_mem hsup
  current := hr.forall_mem fun g hg hp => by
    rw [hr.id, hc]
    exact h.current g hg (hpr g hg hp)
  fallback := hr.forall_mem fun g hg hp => by
    rw [hr.id, hfb]
    exact h.fallback g hg (hpr g hg hp)
  boot := hr.forall_mem fun g hg hp => by
    rw [hr.id, Disk.bootGeneration?, hb]
    exact h.boot g hg (hpr g hg hp)
  limine := hr.forall_mem fun g hg hp => by
    rw [hr.id, hl]
    exact h.limine g hg (hpr g hg hp)

/-- An update of the entries after which the boot state is for `g₀` and the configuration is
freshly generated: what is pruned was pruned before, and has none of the roles. -/
theorem Retained.rewritten (hn : reg'.ids.Nodup) {src : GenerationRegistry}
    (hsup : ∀ g ∈ reg'.generations, g.status = .superseded → g.isFallback = true)
    (hb : d'.bootGeneration? = some b.generationId)
    (hl : d'.limineConf = some (gen.generate src candidateId))
    (hpr : ∀ g ∈ reg'.generations, g.status = .pruned → g.id ≠ reg'.currentGenerationId ∧
      g.id ≠ reg'.fallbackGenerationId ∧ g.id ≠ b.generationId ∧
      ∀ e ∈ (gen.generate src candidateId).entries, e.id ≠ g.id) : Retained reg' d' where
  nodup := hn
  superseded := hsup
  current g hg hp := (hpr g hg hp).1
  fallback g hg hp := (hpr g hg hp).2.1
  boot g hg hp := by
    rw [hb, ne_eq, some.injEq]
    exact Ne.symm (hpr g hg hp).2.2.1
  limine g hg hp conf hconf := by
    rw [hl, mem_def, some.injEq] at hconf
    exact hconf ▸ (hpr g hg hp).2.2.2

/-- What retention prunes: a superseded or failed generation without a role or a fallback flag. -/
theorem of_mem_prunable {id : UInt32} (h : id ∈ reg.prunable) :
    ∃ g ∈ reg.generations, g.id = id ∧ reg.isPrunable g = true := by
  rw [GenerationRegistry.prunable] at h
  split at h
  · simp at h
  · have hmem := mem_of_mem_take h
    rw [mem_insertionSort] at hmem
    obtain ⟨g, hg, hid⟩ := mem_map.1 hmem
    obtain ⟨hg, hp⟩ := mem_filter.1 hg
    exact ⟨g, hg, hid, hp⟩

theorem Retained.created (h : Retained reg d) (hnew : man.id ∉ reg.ids) :
    Retained (addCandidate reg.bumpNextId man) (applyAll (createWrites reg man) d) := by
  have hn : reg.bumpNextId.ids.Nodup := h.nodup
  -- the new entry is staged, so every question about superseded or pruned ones is an old one
  have hold : ∀ {P : GenerationSummary → Prop} {st : GenerationStatus}, st ≠ .staged →
      (∀ g ∈ reg.generations, g.status = st → P g) →
      ∀ g ∈ (addCandidate reg.bumpNextId man).generations, g.status = st → P g := by
    intro P st hst hP g hg hgs
    rcases mem_append.1 hg with hg | hg
    · exact hP g hg hgs
    · obtain rfl := mem_singleton.1 hg
      exact absurd hgs.symm hst
  exact ⟨nodup_addCandidate hn hnew, hold (by decide) h.superseded, hold (by decide) h.current,
    hold (by decide) h.fallback, hold (by decide) h.boot, hold (by decide) h.limine⟩

theorem Retained.activated (h : Retained reg d) {genId : UInt32} :
    Retained (markCandidate reg genId) (applyAll (activateWrites m reg man genId) d) := by
  have hr := Remap.markCandidate h.nodup genId
  refine .rewritten (hr.ids.symm ▸ h.nodup) ?_ (Stored.bootGeneration? rfl
    (BootState.lineValue_append_toString (by decide) genId)) rfl ?_
  · refine hr.forall_mem fun g hg => ?_
    split
    · exact fun hs => by cases hs
    · exact h.superseded g hg
  · refine hr.forall_mem fun g hg hp => ?_
    rw [hr.id]
    -- the activated entry is a candidate now, so a pruned one is another, and was pruned before
    split at hp
    · cases hp
    · rename_i hne
      exact ⟨h.current g hg hp, h.fallback g hg hp, hne, generate_names_no_pruned h.nodup hg
        (by rw [hp]; decide) (fun heq => hne (some.inj heq).symm) (h.current g hg hp)
        (h.fallback g hg hp)⟩

/-- A rollback only ever turns a candidate into a failed generation. -/
theorem status_of_rollbackEntry {old : UInt32} {st : GenerationStatus} (hst : st ≠ .failed)
    (h : (rollbackEntry old target g).status = st) : g.status = st := by
  rw [rollbackEntry] at h
  split at h
  · exact h
  · split at h
    · split at h
      · exact absurd h.symm hst
      · exact h
    · exact h

theorem Retained.rolledBack (h : Retained reg d)
    (ht : ∀ g ∈ reg.generations, g.id = target → g.status ≠ .pruned) (d₁ : Disk) :
    Retained (rollbackTo reg target) (applyAll (rollbackWrites m reg target) d₁) := by
  have hr : Remap _ reg (rollbackTo reg target) := .rollbackTo target
  have hn : (rollbackTo reg target).ids.Nodup := hr.ids.symm ▸ h.nodup
  refine .rewritten hn ?_ (Stored.bootGeneration? rfl
    (BootState.lineValue_append_toString (by decide) target)) rfl ?_
  · refine hr.forall_mem fun g hg hs => ?_
    rw [rollbackEntry_isFallback]
    exact h.superseded g hg (status_of_rollbackEntry (by decide) hs)
  · intro g' hg' hp
    obtain ⟨g, hg, rfl⟩ := mem_map.1 (hr.generations ▸ hg')
    have hgp : g.status = .pruned := status_of_rollbackEntry (by decide) hp
    have hc : (rollbackEntry reg.currentGenerationId target g).id ≠ target := by
      rw [hr.id]
      exact fun heq => ht g hg heq hgp
    have hf : (rollbackEntry reg.currentGenerationId target g).id ≠
        reg.fallbackGenerationId := by
      rw [hr.id]
      exact h.fallback g hg hgp
    exact ⟨hc, hf, hc, generate_names_no_pruned hn hg' (by rw [hp]; decide) (by simp) hc hf⟩

/-- After attestation and before the sweep: superseded entries are flagged, pruned ones have no
role. -/
theorem Retained.markHealthy (h : Retained reg d) (target : UInt32) :
    ∀ g ∈ (markHealthy reg target).generations,
      (g.status = .superseded → g.isFallback = true) ∧
      (g.status = .pruned → g.id ≠ target ∧
        g.id ≠ (markHealthy reg target).fallbackGenerationId) := by
  by_cases hne : reg.currentGenerationId = target
  · subst hne
    rw [fallback_reattested]
    refine (Remap.reattest h.nodup).forall_mem fun g hg => ?_
    split
    · exact ⟨fun hs => (by cases hs), fun hs => (by cases hs)⟩
    · exact ⟨h.superseded g hg, fun hp => ⟨h.current g hg hp, h.fallback g hg hp⟩⟩
  · rw [fallback_promoted hne]
    refine (Remap.promote hne).forall_mem fun g hg => ?_
    rw [promoteEntry]
    split
    · rename_i hid
      -- the old current generation was not pruned
      refine ⟨fun _ => rfl, fun hp => ?_⟩
      dsimp only at hp
      split at hp
      · cases hp
      · exact absurd hid (h.current g hg hp)
    · split
      · exact ⟨fun hs => (by cases hs), fun hs => (by cases hs)⟩
      · rename_i hold htgt
        exact ⟨h.superseded g hg, fun _ => ⟨htgt, hold⟩⟩

/-- What the sweep prunes has no role and is not in the configuration generated before it. -/
theorem prunable_spec (hn : reg.ids.Nodup)
    (hsup : ∀ g ∈ reg.generations, g.status = .superseded → g.isFallback = true)
    (hg : g ∈ reg.generations) (hp : g.id ∈ reg.prunable) :
    g.id ≠ reg.currentGenerationId ∧ g.id ≠ reg.fallbackGenerationId ∧ g.status = .failed := by
  obtain ⟨g', hg', hid, hprun⟩ := of_mem_prunable hp
  obtain rfl := eq_of_id_eq hn hg' hg hid
  simp only [GenerationRegistry.isPrunable, Bool.and_eq_true, Bool.not_eq_true', Bool.or_eq_true,
    Bool.or_eq_false_iff, decide_eq_true_eq, decide_eq_false_iff_not] at hprun
  obtain ⟨⟨⟨⟨hc, -⟩, hf, hflag⟩, -⟩, hstatus⟩ := hprun
  refine ⟨hc, hf, hstatus.resolve_left fun hs => ?_⟩
  rw [hsup g' hg hs] at hflag
  cases hflag

theorem Retained.attested (hd : Stored reg d) (h : Retained reg d) {genId : Option UInt32}
    {d₁ : Disk} (hg : AttestGuard d genId b man target)
    (hsw : Swept (Manager.markHealthy reg target).prunable
      (applyAll (attestWrites m reg b man target) d) d₁) :
    Retained (prunedRegistry (Manager.markHealthy reg target))
      (d₁.setRegistry (prunedRegistry (Manager.markHealthy reg target))) := by
  have hmark := h.markHealthy target
  have hn : (Manager.markHealthy reg target).ids.Nodup :=
    (ids_markHealthy reg target).symm ▸ h.nodup
  have hr := Remap.markPruned hn (Manager.markHealthy reg target).prunable
  have hroles := prunedRegistry_roles (Manager.markHealthy reg target)
  have hcur := markHealthy_current reg target
  obtain ⟨t, ht, hb⟩ := hg.bootState
  refine .rewritten (hroles.1.symm ▸ hn) ?_
    (Stored.bootGeneration? hsw.bootState (hd.parsed ht hb).2) hsw.limineConf ?_
  · refine hr.forall_mem fun g hg => ?_
    split
    · exact fun hs => by cases hs
    · exact (hmark g hg).1
  · refine hr.forall_mem fun g hg hp => ?_
    rw [hr.id, hroles.2.1, hroles.2.2, hcur]
    -- pruned by this sweep, or before
    have hspec : g.id ≠ target ∧ g.id ≠ (Manager.markHealthy reg target).fallbackGenerationId ∧
        g.status ≠ .healthy ∧ g.status ≠ .superseded := by
      split at hp
      · rename_i hmem
        obtain ⟨h1, h2, h3⟩ := prunable_spec hn (fun g hg => (hmark g hg).1) hg hmem
        exact ⟨hcur ▸ h1, h2, by rw [h3]; decide, by rw [h3]; decide⟩
      · obtain ⟨h1, h2⟩ := (hmark g hg).2 hp
        exact ⟨h1, h2, by rw [hp]; decide, by rw [hp]; decide⟩
    obtain ⟨h1, h2, h3⟩ := hspec
    exact ⟨h1, h2, h1, generate_names_no_pruned hn hg h3 (by simp) (hcur.symm ▸ h1) h2⟩

/-- A call that succeeds keeps `Retained`, unless it is a rollback to a pruned generation. -/
theorem Retained.okEffect (hd : Stored reg d) (h : Retained reg d) (hfresh : FreshId d c)
    (hroll : RollsBackToRetained d c) (he : OkEffect m reg d c d') (hs : Stored reg' d') :
    Retained reg' d' := by
  obtain ⟨op, env⟩ := c
  cases op with
  | create =>
    obtain rfl := he
    obtain rfl := hs.eq_of_registry rfl
    exact h.created (hfresh reg hd.registry)
  | activate genId =>
    obtain ⟨man, hg, rfl⟩ := he
    obtain rfl := hs.eq_of_registry rfl
    exact h.activated
  | attest genId caller =>
    obtain ⟨b, man, target, d₁, hg, hsw, rfl⟩ := he
    obtain rfl := hs.eq_of_registry rfl
    exact h.attested hd hg hsw
  | rollback targetId =>
    obtain ⟨-, d₁, -, rfl⟩ := he
    obtain rfl := hs.eq_of_registry rfl
    refine h.rolledBack ?_ d₁
    rcases targetId with - | target
    · exact fun g hg hid hp => h.fallback g hg hp hid
    · exact hroll reg hd.registry
  | setPinned id pinned =>
    obtain ⟨d₁, hd₁, rfl⟩ := he
    obtain rfl := hs.eq_of_registry rfl
    obtain ⟨hboot, hlimine⟩ := pinned_files hd₁
    refine h.remap (.pin h.nodup id pinned) rfl rfl hboot hlimine (fun g hg => ?_) fun g hg => ?_
    · split
      · exact h.superseded g hg
      · exact h.superseded g hg
    · split <;> exact fun hp => hp

end

theorem retained_baseline (digestHex : String → String) :
    Retained .baseline (baselineDisk digestHex) := by
  refine ⟨by decide, by decide, by decide, by decide, ?_, ?_⟩
  · intro g hg hp
    obtain rfl := mem_singleton.1 hg
    cases hp
  · intro g hg hp conf hconf
    cases hconf

/-- **Nothing bootable is pruned exactly when no rollback asks for it.**  In every history of
successful calls in which ids are not allocated twice — whatever the calls ignored on the way — no
current, fallback, recorded or configured generation is a pruned one, after any call, iff no
rollback names a generation that is pruned at that point. -/
theorem namesNoPruned_along_iff (m : Manager) (calls : List Call)
    (h : Along (step m) (SucceedsFresh m) (baselineDisk m.digestHex) calls) :
    Along (step m) (fun d c => NamesNoPruned (step m d c)) (baselineDisk m.digestHex) calls ↔
      Along (step m) RollsBackToRetained (baselineDisk m.digestHex) calls := by
  refine along_iff (I := fun d => ∃ reg, Stored reg d ∧ Retained reg d) ?_ ?_
    ⟨_, stored_baselineDisk _, retained_baseline _⟩ h
  · rintro d c ⟨reg, hd, hr⟩ ⟨hsucc, hfresh⟩ hroll
    have he := hsucc.okEffect hd.toReady
    obtain ⟨reg', hs, -⟩ := hd.okEffect he
    exact ⟨reg', hs, hr.okEffect hd hfresh hroll he hs⟩
  · rintro d c ⟨reg, hd, hr⟩ ⟨hsucc, hfresh⟩
    have he := hsucc.okEffect hd.toReady
    obtain ⟨reg', hs, -⟩ := hd.okEffect he
    refine ⟨fun hnames => ?_, fun hroll => (hr.okEffect hd hfresh hroll he hs).namesNoPruned hs⟩
    -- a rollback to a pruned generation makes it current
    obtain ⟨op, env⟩ := c
    cases op with
    | rollback targetId =>
      rcases targetId with - | target
      · trivial
      · intro reg₁ hreg₁ g hg hid hp
        obtain rfl := hd.eq_of_registry hreg₁
        obtain ⟨-, d₁, -, hd'⟩ := he
        obtain ⟨reg₂, hreg₂, hno⟩ := hnames
        rw [hd'] at hreg₂
        obtain rfl : rollbackTo reg target = reg₂ := some.inj hreg₂
        have hmem : rollbackEntry reg.currentGenerationId target g ∈
            (rollbackTo reg target).generations := mem_map.2 ⟨g, hg, rfl⟩
        have hentry : rollbackEntry reg.currentGenerationId target g =
            { g with isCurrent := true } := if_pos hid
        rw [hentry] at hmem
        exact (hno _ hmem hp).1 hid
    | create | activate | attest | setPinned => trivial

/-- A candidate is tried, rolled back to and away from, and then pruned by a later attestation. -/
def samplePruned : List Call :=
  [sampleCreate, sampleCreate, sampleCreate, sampleCreate, sampleCreate, sampleActivate 102,
    sampleRollback (some 102), sampleRollback (some 101), sampleAttest (some 101)]

theorem namesNoPruned_along_iff_sample :
    Along (step sampleManager) (fun d c => NamesNoPruned (step sampleManager d c)) sampleStart
        samplePruned ↔ Along (step sampleManager) RollsBackToRetained sampleStart samplePruned :=
  namesNoPruned_along_iff sampleManager samplePruned (by decide +kernel)

/-- The same history with one more rollback to 102, which is pruned by then: every call succeeds,
and the current generation is one whose snapshot was deleted. -/
theorem rollback_to_pruned :
    Along (step sampleManager) (SucceedsFresh sampleManager) sampleStart
        (samplePruned ++ [sampleRollback (some 102)]) ∧
      ¬NamesNoPruned (run (step sampleManager) sampleStart
        (samplePruned ++ [sampleRollback (some 102)])) := by
  decide +kernel

end Control
