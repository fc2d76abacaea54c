import MahinaOS.Control.Copies

/-!
# The retention sweep

`execute_retention_prune` deletes the snapshots of generations that are no longer needed, and
attestation ends with it.

* **`executeRetentionPrune_deletes`**: what a sweep deletes, for every registry with distinct ids
  and whatever fails.
* **`retention_along_iff`**: when every attestation leaves the registry within its quota or nothing
  to reclaim, and does not prune below it.  Two habits of the code get in the way: the excess counts
  entries that were pruned long ago, and an entry that was the fallback once keeps its flag.  Six
  ordinary upgrades leave seven generations for a quota of five (`retention_misses_quota`).

The first is about the list `prunable` computes and the frame of the program that walks it
(`Spares`).  The second is arithmetic of the counts before and after the sweep, which
`Remap.countP` carries through the updates of the registry.
-/

namespace Control

open Faulty ListUpdate Run List Manager

/-! ## What may be pruned -/

/-- The generations retention may delete: not the current one, not the fallback and not pinned, by
the registry and by their own flags, and superseded or failed. -/
structure Eligible (reg : GenerationRegistry) (g : GenerationSummary) : Prop where
  current : g.id ≠ reg.currentGenerationId ∧ g.isCurrent = false
  fallback : g.id ≠ reg.fallbackGenerationId ∧ g.isFallback = false
  pinned : g.id ∉ reg.pinnedGenerations ∧ g.isPinned = false
  status : g.status = .superseded ∨ g.status = .failed

section

variable {reg : GenerationRegistry} {g : GenerationSummary}

theorem isPrunable_iff : reg.isPrunable g = true ↔ Eligible reg g := by
  simp only [GenerationRegistry.isPrunable, GenerationRegistry.isPinned, Bool.and_eq_true,
    Bool.not_eq_true', Bool.or_eq_true, Bool.or_eq_false_iff, decide_eq_true_eq,
    decide_eq_false_iff_not, contains_eq_mem]
  constructor
  · rintro ⟨⟨⟨hc, hf⟩, hp⟩, hs⟩
    exact ⟨hc, hf, hp.symm, hs⟩
  · rintro ⟨hc, hf, hp, hs⟩
    exact ⟨⟨⟨hc, hf⟩, hp.symm⟩, hs⟩

instance : Decidable (Eligible reg g) := decidable_of_iff _ isPrunable_iff

/-- The ids of the prunable generations, oldest first. -/
def prunableIds (reg : GenerationRegistry) : List UInt32 :=
  ((reg.generations.filter reg.isPrunable).map (·.id)).insertionSort (· ≤ ·)

variable {i : UInt32}

theorem mem_prunableIds :
    i ∈ prunableIds reg ↔ ∃ g ∈ reg.generations, g.id = i ∧ Eligible reg g := by
  simp only [prunableIds, mem_insertionSort, mem_map, mem_filter, isPrunable_iff]
  constructor
  · rintro ⟨g, ⟨hg, he⟩, hid⟩
    exact ⟨g, hg, hid, he⟩
  · rintro ⟨g, hg, hid, he⟩
    exact ⟨g, ⟨hg, he⟩, hid⟩

theorem length_prunableIds :
    (prunableIds reg).length = reg.generations.countP (Eligible reg ·) := by
  rw [prunableIds, length_insertionSort, length_map, ← countP_eq_length_filter]
  refine countP_congr fun g _ => ?_
  rw [isPrunable_iff, decide_eq_true_iff]

theorem nodup_prunableIds (hn : reg.ids.Nodup) : (prunableIds reg).Nodup :=
  (perm_insertionSort _ _).nodup_iff.2 (hn.sublist (filter_sublist.map _))

theorem pairwise_prunableIds (hn : reg.ids.Nodup) : (prunableIds reg).Pairwise (· < ·) := by
  have hle : (prunableIds reg).Pairwise (· ≤ ·) := pairwise_insertionSort _ _
  refine (hle.and (nodup_prunableIds hn)).imp fun h => ?_
  exact UInt32.lt_of_le_of_ne h.1 h.2

/-- Retention takes as many of them as the registry exceeds its quota by. -/
theorem prunable_eq_take :
    reg.prunable = (prunableIds reg).take (reg.generations.length - reg.retentionQuota) := by
  rw [GenerationRegistry.prunable]
  split
  · next h => rw [Nat.sub_eq_zero_of_le h, take_zero]
  · show (prunableIds reg).take (min (prunableIds reg).length _) = _
    rw [take_eq_take_iff]
    omega

theorem length_prunable :
    reg.prunable.length = min (reg.generations.countP (Eligible reg ·))
      (reg.generations.length - reg.retentionQuota) := by
  rw [prunable_eq_take, length_take, length_prunableIds, Nat.min_comm]

theorem nodup_prunable (hn : reg.ids.Nodup) : reg.prunable.Nodup := by
  rw [prunable_eq_take]
  exact (nodup_prunableIds hn).sublist (take_sublist _ _)

/-- What is pruned is older than what could be but is not. -/
theorem lt_of_mem_prunable (hn : reg.ids.Nodup) (hi : i ∈ reg.prunable) (hg : g ∈ reg.generations)
    (he : Eligible reg g) (hkept : g.id ∉ reg.prunable) : i < g.id := by
  have hsorted := pairwise_prunableIds hn
  rw [← take_append_drop (reg.generations.length - reg.retentionQuota) (prunableIds reg),
    ← prunable_eq_take, pairwise_append] at hsorted
  refine hsorted.2.2 i hi g.id ?_
  have hmem : g.id ∈ prunableIds reg := mem_prunableIds.2 ⟨g, hg, rfl, he⟩
  rw [← take_append_drop (reg.generations.length - reg.retentionQuota) (prunableIds reg),
    ← prunable_eq_take] at hmem
  exact (mem_append.1 hmem).resolve_left hkept

theorem eligible_of_mem_prunable (hi : i ∈ reg.prunable) :
    ∃ g ∈ reg.generations, g.id = i ∧ Eligible reg g := by
  rw [prunable_eq_take] at hi
  exact mem_prunableIds.1 (mem_of_mem_take hi)

end

/-! ## What the sweep deletes -/

theorem pruneManifest_dirs (id : UInt32) (d : Disk) :
    (pruneManifest id d).genDirs = d.genDirs ∧ (pruneManifest id d).rootfs = d.rootfs := by
  rw [pruneManifest]
  split <;> exact ⟨rfl, rfl⟩

/-- A sweep in which nothing fails removes the snapshot and the directory of each generation. -/
theorem sweep_gone {d : Disk} {i : UInt32} {ids : List UInt32}
    (hi : i ∈ ids ∨ d.genDirs i = false ∧ d.rootfs i = false) :
    (sweep ids d).genDirs i = false ∧ (sweep ids d).rootfs i = false := by
  induction ids generalizing d with
  | nil => exact hi.resolve_left not_mem_nil
  | cons id ids ih =>
    refine ih ?_
    obtain ⟨hdirs, hroot⟩ := pruneManifest_dirs id (wipe id d)
    rw [hdirs, hroot]
    by_cases hid : i = id
    · exact .inr (by simp [wipe, hid])
    · rcases hi with hi | hgone
      · exact .inl ((mem_cons.1 hi).resolve_left hid)
      · exact .inr (by simpa [wipe, hid] using hgone)

/-- **What the retention sweep deletes.**  On every disk with a registry whose ids are distinct and
for every fault plan there are ids such that

* each is that of a superseded or failed generation that is neither the current one nor the fallback
  nor pinned, by the registry's ids and list and by its own flags;
* they are smaller than every other id of such a generation;
* there are as many of them as such generations, or as the registry exceeds its quota by, whichever
  is less;
* the sweep deletes no other snapshot or directory, whatever it returns; if it succeeds, it returns
  them and marks exactly their entries pruned; and if nothing fails, it succeeds and their snapshots
  and directories are gone. -/
theorem executeRetentionPrune_deletes (m : Manager) (f : Faults Syscall) {d : Disk}
    {reg : GenerationRegistry} (hr : d.registry = some reg) (hn : reg.ids.Nodup) :
    ∃ ids : List UInt32,
      (∀ i ∈ ids, ∃ g ∈ reg.generations, g.id = i ∧ Eligible reg g) ∧
      (∀ i ∈ ids, ∀ g ∈ reg.generations, Eligible reg g → g.id ∉ ids → i < g.id) ∧
      ids.Nodup ∧
      ids.length = min (reg.generations.countP (Eligible reg ·))
        (reg.generations.length - reg.retentionQuota) ∧
      Spares ids d (exec m.executeRetentionPrune d f).2 ∧
      (∀ deleted, (exec m.executeRetentionPrune d f).1 = .ok deleted → deleted = ids ∧
        ∃ reg' ∈ (exec m.executeRetentionPrune d f).2.registry, reg'.generations =
          reg.generations.map fun g => if g.id ∈ ids then { g with status := .pruned } else g) ∧
      (Quiet f → (exec m.executeRetentionPrune d f).1 = .ok ids ∧
        ∀ i ∈ ids, (exec m.executeRetentionPrune d f).2.genDirs i = false ∧
          (exec m.executeRetentionPrune d f).2.rootfs i = false) := by
  have hspec : Spec f m.executeRetentionPrune d _ _ := spec_executeRetentionPrune hr
  have hexec := hspec.exec
  refine ⟨reg.prunable, fun i hi => eligible_of_mem_prunable hi,
    fun i hi g hg he => lt_of_mem_prunable hn hi hg he, nodup_prunable hn, length_prunable,
    ?_, ?_, ?_⟩
  · split at hexec
    · next heq =>
      rw [heq]
      obtain ⟨-, d₁, hsw, hd'⟩ := hexec
      rw [hd']
      exact ⟨hsw.genDirs, hsw.rootfs⟩
    · next heq =>
      rw [heq]
      exact hexec.2.toSpares
  · intro deleted hok
    split at hexec
    · next heq =>
      rw [heq] at hok ⊢
      obtain ⟨hids, d₁, -, hd'⟩ := hexec
      cases hok
      exact ⟨hids, _, hd' ▸ rfl, (Remap.markPruned hn reg.prunable).generations⟩
    · next heq =>
      rw [heq] at hok
      cases hok
  · intro hq
    obtain rfl : f = fun _ => [] := funext hq
    rw [exec, run_executeRetentionPrune hr]
    exact ⟨rfl, fun i hi => sweep_gone (.inl hi)⟩

/-- Three generations more than the quota, one of them pinned, one pinned by its flag only and one
that was the fallback once: of the eligible 103, 104, 107 and 108 the first three are pruned. -/
def crowdedRegistry : GenerationRegistry :=
  let entry (id : UInt32) (status : GenerationStatus) : GenerationSummary :=
    { id, parentId := none, description := "", createdAtEpochSecs := 0, status, isPinned := false,
      isCurrent := false, isFallback := false }
  { GenerationRegistry.baseline with
    currentGenerationId := 109
    fallbackGenerationId := 106
    pinnedGenerations := [101, 102]
    generations := [entry 109 .healthy, entry 108 .failed, entry 107 .superseded,
      entry 106 .superseded, { entry 105 .failed with isFallback := true }, entry 104 .failed,
      entry 103 .superseded, entry 102 .superseded] }

theorem executeRetentionPrune_deletes_crowded :
    let d : Disk := { sampleStart with registry := some crowdedRegistry }
    (exec sampleManager.executeRetentionPrune d fun _ => []).1.toOption = some [103, 104, 107] ∧
      ∃ ids : List UInt32, ids.length = 3 ∧
        (∀ i ∈ ids, ∃ g ∈ crowdedRegistry.generations, g.id = i ∧ Eligible crowdedRegistry g) ∧
        Spares ids d (exec sampleManager.executeRetentionPrune d fun _ => []).2 := by
  intro d
  obtain ⟨ids, hel, -, -, hlen, hspares, -⟩ := executeRetentionPrune_deletes sampleManager
    (fun _ => []) (show d.registry = some crowdedRegistry from rfl) (by decide)
  exact ⟨by decide +kernel, ids, hlen.trans (by decide), hel, hspares⟩

/-! ## The counts of a registry -/

/-- The generations retention should be able to reclaim: superseded or failed, and neither the
current id, the fallback id nor pinned.  The role flags of the entry are not asked. -/
def Reclaimable (reg : GenerationRegistry) (g : GenerationSummary) : Prop :=
  g.id ≠ reg.currentGenerationId ∧ g.id ≠ reg.fallbackGenerationId ∧
    (g.id ∉ reg.pinnedGenerations ∧ g.isPinned = false) ∧
    (g.status = .superseded ∨ g.status = .failed)

instance (reg : GenerationRegistry) (g : GenerationSummary) : Decidable (Reclaimable reg g) :=
  inferInstanceAs (Decidable (_ ∧ _))

namespace GenerationRegistry

def kept (reg : GenerationRegistry) : Nat := reg.generations.countP (·.status ≠ .pruned)

def reclaimable (reg : GenerationRegistry) : Nat := reg.generations.countP (Reclaimable reg ·)

def eligible (reg : GenerationRegistry) : Nat := reg.generations.countP (Eligible reg ·)

/-- The registry with the roles an attestation of `target` gives out, before any entry changes. -/
def withRoles (reg : GenerationRegistry) (target : UInt32) : GenerationRegistry :=
  { reg with
    currentGenerationId := target
    fallbackGenerationId :=
      if reg.currentGenerationId = target then reg.fallbackGenerationId
      else reg.currentGenerationId }

/-- How many generations are not pruned once `target` is healthy. -/
def keptWith (reg : GenerationRegistry) (target : UInt32) : Nat :=
  reg.generations.countP fun g => g.status ≠ .pruned ∨ g.id = target

end GenerationRegistry

/-- Retention did what it is for: the registry is within its quota or has nothing left to reclaim,
and if anything was pruned, then not below the quota. -/
def RetentionMet (reg reg' : GenerationRegistry) : Prop :=
  (reg'.kept ≤ reg'.retentionQuota ∨ reg'.reclaimable = 0) ∧
    (reg'.retentionQuota ≤ reg'.kept ∨
      ∀ g ∈ reg.generations, ∀ g' ∈ reg'.generations, g'.id = g.id → g.status ≠ .pruned →
        g'.status ≠ .pruned)

/-- What the registry before an attestation of `target` must be like for that.  The reclaimable
generations that are not eligible are those with a role flag from earlier on, and the entries that
are not kept are those pruned earlier on. -/
def SweepFits (reg : GenerationRegistry) (target : UInt32) : Prop :=
  (reg.keptWith target ≤ reg.retentionQuota + (reg.withRoles target).eligible ∨
      (reg.withRoles target).reclaimable = (reg.withRoles target).eligible) ∧
    (reg.generations.length ≤ reg.retentionQuota ∨ (reg.withRoles target).eligible = 0 ∨
      reg.keptWith target = reg.generations.length ∨
      reg.retentionQuota + (reg.withRoles target).eligible ≤ reg.keptWith target)

section

variable {reg : GenerationRegistry} {target : UInt32} {g : GenerationSummary}

theorem Eligible.reclaimable (h : Eligible reg g) : Reclaimable reg g :=
  ⟨h.current.1, h.fallback.1, h.pinned, h.status⟩

theorem Reclaimable.not_pruned (h : Reclaimable reg g) : g.status ≠ .pruned := by
  rcases h.2.2.2 with hs | hs <;> rw [hs] <;> decide

/-! ### Through an attestation -/

theorem markHealthy_roles (reg : GenerationRegistry) (target : UInt32) :
    (markHealthy reg target).currentGenerationId = target ∧
      (markHealthy reg target).fallbackGenerationId =
        (reg.withRoles target).fallbackGenerationId ∧
      (markHealthy reg target).pinnedGenerations = reg.pinnedGenerations ∧
      (markHealthy reg target).retentionQuota = reg.retentionQuota := by
  by_cases h : reg.currentGenerationId = target
  · rw [markHealthy, if_neg (not_not.2 h)]
    exact ⟨h, (if_pos h).symm, rfl, rfl⟩
  · rw [markHealthy, if_pos h]
    exact ⟨rfl, (if_neg h).symm, rfl, rfl⟩

/-- An attestation changes the entries of the current and the fallback generation only, and prunes
none. -/
theorem exists_remap_markHealthy (hn : reg.ids.Nodup) (target : UInt32) :
    ∃ f, Remap f reg (markHealthy reg target) ∧
      (∀ g, g.id ≠ target → g.id ≠ (reg.withRoles target).fallbackGenerationId → f g = g) ∧
      ∀ g, (f g).status ≠ .pruned ↔ g.status ≠ .pruned ∨ g.id = target := by
  by_cases hne : reg.currentGenerationId = target
  · subst hne
    refine ⟨_, .reattest hn, fun g hg _ => if_neg hg, fun g => ?_⟩
    split
    · next hid => simp [hid]
    · next hid => simp [hid]
  · have hfall : (reg.withRoles target).fallbackGenerationId = reg.currentGenerationId :=
      if_neg hne
    refine ⟨_, .promote hne, fun g hg hg' => ?_, fun g => ?_⟩
    · rw [promoteEntry, if_neg (hfall ▸ hg'), if_neg hg]
    · rw [promoteEntry]
      split
      · next hid =>
        have hold : g.id ≠ target := fun h => hne (hid.symm.trans h)
        simp only [hold, or_false]
        split
        · next hs => simp [hs]
        · exact .rfl
      · split
        · next hid => simp [hid]
        · next hid => simp [hid]

/-- The counts after an attestation are those of the registry before it with the new roles. -/
theorem counts_markHealthy (hn : reg.ids.Nodup) (target : UInt32) :
    (markHealthy reg target).kept = reg.keptWith target ∧
      (markHealthy reg target).eligible = (reg.withRoles target).eligible ∧
      (markHealthy reg target).reclaimable = (reg.withRoles target).reclaimable ∧
      (markHealthy reg target).generations.length = reg.generations.length := by
  obtain ⟨f, hr, hsame, hpruned⟩ := exists_remap_markHealthy hn target
  obtain ⟨hcur, hfall, hpins, -⟩ := markHealthy_roles reg target
  -- an entry that changes has a role, so it is neither eligible nor reclaimable on either side
  have hmoved : ∀ g, f g = g ∨ g.id = target ∨ g.id = (reg.withRoles target).fallbackGenerationId :=
    fun g => by
      by_contra h
      rw [not_or, not_or] at h
      exact h.1 (hsame g h.2.1 h.2.2)
  have hrec : ∀ g, Reclaimable (markHealthy reg target) (f g) ↔
      Reclaimable (reg.withRoles target) g := by
    intro g
    rcases hmoved g with hg | hg | hg
    · rw [hg, Reclaimable, hcur, hfall, hpins]
      rfl
    · exact iff_of_false (fun h => h.1 ((hr.id g).trans (hg.trans hcur.symm))) fun h => h.1 hg
    · exact iff_of_false (fun h => h.2.1 ((hr.id g).trans (hg.trans hfall.symm))) fun h => h.2.1 hg
  have hel : ∀ g, Eligible (markHealthy reg target) (f g) ↔
      Eligible (reg.withRoles target) g := by
    intro g
    rcases hmoved g with hg | hg | hg
    · rw [hg]
      constructor
      · rintro ⟨h1, h2, h3, h4⟩
        exact ⟨hcur ▸ h1, hfall ▸ h2, hpins ▸ h3, h4⟩
      · rintro ⟨h1, h2, h3, h4⟩
        exact ⟨hcur.symm ▸ h1, hfall.symm ▸ h2, hpins.symm ▸ h3, h4⟩
    · exact iff_of_false (fun h => h.current.1 ((hr.id g).trans (hg.trans hcur.symm)))
        fun h => h.current.1 hg
    · exact iff_of_false (fun h => h.fallback.1 ((hr.id g).trans (hg.trans hfall.symm)))
        fun h => h.fallback.1 hg
  refine ⟨?_, ?_, ?_, ?_⟩
  · rw [GenerationRegistry.kept, hr.generations, countP_map]
    exact countP_congr fun g _ => by simpa using hpruned g
  · rw [GenerationRegistry.eligible, hr.generations, countP_map]
    exact countP_congr fun g _ => by simpa using hel g
  · rw [GenerationRegistry.reclaimable, GenerationRegistry.reclaimable, hr.generations, countP_map]
    exact countP_congr fun g _ => by simpa using hrec g
  · rw [hr.generations, length_map]

/-! ### Through a sweep -/

theorem settings_foldl_markPruned (ids : List UInt32) (reg : GenerationRegistry) :
    (ids.foldl markPruned reg).pinnedGenerations = reg.pinnedGenerations ∧
      (ids.foldl markPruned reg).retentionQuota = reg.retentionQuota := by
  induction ids generalizing reg with
  | nil => exact ⟨rfl, rfl⟩
  | cons id ids ih => exact ih (markPruned reg id)

/-- The counts after a sweep: each pruned generation was kept and reclaimable before. -/
theorem counts_prunedRegistry (hn : reg.ids.Nodup) :
    (prunedRegistry reg).kept + reg.prunable.length = reg.kept ∧
      (prunedRegistry reg).reclaimable + reg.prunable.length = reg.reclaimable := by
  have hr := Remap.markPruned hn reg.prunable
  have hroles := prunedRegistry_roles reg
  have hsub : ∀ i ∈ reg.prunable, i ∈ reg.generations.map (·.id) := by
    intro i hi
    obtain ⟨g, hg, rfl, -⟩ := eligible_of_mem_prunable hi
    exact mem_map_of_mem hg
  have hrec : ∀ g ∈ reg.generations, g.id ∈ reg.prunable → Reclaimable reg g := by
    intro g hg hi
    obtain ⟨g', hg', hid, he⟩ := eligible_of_mem_prunable hi
    obtain rfl := eq_of_id_eq hn hg' hg hid
    exact he.reclaimable
  have hgens : (prunedRegistry reg).generations = _ := hr.generations
  constructor
  · rw [GenerationRegistry.kept, hgens]
    refine countP_update_add hn (nodup_prunable hn) hsub (fun g hg hi => ?_) fun g => ?_
    · exact decide_eq_true (hrec g hg hi).not_pruned
    · simp
  · have hpins : (prunedRegistry reg).pinnedGenerations = reg.pinnedGenerations :=
      (settings_foldl_markPruned reg.prunable reg).1
    have hcongr : ∀ g, Reclaimable (prunedRegistry reg) g ↔ Reclaimable reg g := by
      intro g
      rw [Reclaimable, hroles.2.1, hroles.2.2, hpins]
      rfl
    rw [GenerationRegistry.reclaimable, hgens]
    simp only [hcongr]
    refine countP_update_add hn (nodup_prunable hn) hsub (fun g hg hi => ?_) fun g => ?_
    · exact decide_eq_true (hrec g hg hi)
    · exact decide_eq_false fun h => h.not_pruned rfl

/-- An attestation prunes nothing exactly when there is nothing to prune after the promotion. -/
theorem prunes_nothing_iff (hn : reg.ids.Nodup) (target : UInt32) :
    (∀ g ∈ reg.generations,
      ∀ g' ∈ (prunedRegistry (markHealthy reg target)).generations, g'.id = g.id →
        g.status ≠ .pruned → g'.status ≠ .pruned) ↔
      (markHealthy reg target).prunable = [] := by
  obtain ⟨f, hr, hsame, hpruned⟩ := exists_remap_markHealthy hn target
  obtain ⟨hcur, hfall, -⟩ := markHealthy_roles reg target
  have hn' : (markHealthy reg target).ids.Nodup := hr.ids.symm ▸ hn
  have hr' := Remap.markPruned hn' (markHealthy reg target).prunable
  have hgens : (prunedRegistry (markHealthy reg target)).generations = _ :=
    hr'.generations
  rw [hgens, hr.generations, map_map]
  constructor
  · intro h
    refine eq_nil_iff_forall_not_mem.2 fun i hi => ?_
    obtain ⟨g₁, hg₁, rfl, he⟩ := eligible_of_mem_prunable hi
    rw [hr.generations] at hg₁
    obtain ⟨g, hg, rfl⟩ := mem_map.1 hg₁
    -- an eligible entry has no role, so the promotion has not touched it
    have hg' : f g = g := hsame g (fun hid => he.current.1 ((hr.id g).trans (hid.trans hcur.symm)))
      fun hid => he.fallback.1 ((hr.id g).trans (hid.trans hfall.symm))
    rw [hg'] at he hi
    refine h g hg _ (mem_map_of_mem hg) ?_ he.reclaimable.not_pruned ?_
    · rw [Function.comp_apply, hr'.id, hr.id]
    · rw [Function.comp_apply, hg', if_pos hi]
  · intro hnil g hg g' hg' hid hkept
    obtain ⟨g₀, hg₀, rfl⟩ := mem_map.1 hg'
    rw [Function.comp_apply, hr'.id, hr.id] at hid
    obtain rfl := eq_of_id_eq hn hg₀ hg hid
    rw [Function.comp_apply, hnil]
    exact (hpruned g₀).2 (.inl hkept)

/-- **One attestation** does what retention is for exactly from a registry that fits. -/
theorem retentionMet_iff (hn : reg.ids.Nodup) (target : UInt32) :
    RetentionMet reg (prunedRegistry (markHealthy reg target)) ↔ SweepFits reg target := by
  have hn' : (markHealthy reg target).ids.Nodup := (ids_markHealthy reg target).symm ▸ hn
  obtain ⟨hkept, hel, hrec, hlen⟩ := counts_markHealthy hn target
  obtain ⟨hkept', hrec'⟩ := counts_prunedRegistry hn'
  obtain ⟨-, -, -, hquota⟩ := markHealthy_roles reg target
  have hquota' : (prunedRegistry (markHealthy reg target)).retentionQuota =
      reg.retentionQuota := (settings_foldl_markPruned _ _).2.trans hquota
  have hpruned : (markHealthy reg target).prunable.length =
      min (markHealthy reg target).eligible _ := length_prunable
  have hle : (markHealthy reg target).eligible ≤
      (markHealthy reg target).reclaimable := countP_mono_left fun g _ h =>
    decide_eq_true (of_decide_eq_true h : Eligible _ g).reclaimable
  have hkeptle : reg.keptWith target ≤ reg.generations.length := countP_le_length
  rw [RetentionMet, prunes_nothing_iff hn, hquota', ← length_eq_zero_iff, SweepFits]
  omega

end

/-! ## Attestations of a history -/

/-- An attestation that succeeds leaves the registry as retention should. -/
def AttestRetains (m : Manager) (d : Disk) (c : Call) : Prop :=
  match c.op with
  | .attest .. => Succeeds m d c →
    ∀ reg ∈ d.registry, ∀ reg' ∈ (step m d c).registry, RetentionMet reg reg'
  | .create .. | .activate _ | .rollback _ | .setPinned .. => True

/-- An attestation that succeeds starts from a registry that fits. -/
def AttestFits (m : Manager) (d : Disk) (c : Call) : Prop :=
  match c.op with
  | .attest genId _ => Succeeds m d c →
    ∀ reg ∈ d.registry, ∀ b ∈ d.bootRecord?, SweepFits reg (genId.getD b.generationId)
  | .create .. | .activate _ | .rollback _ | .setPinned .. => True

theorem attestRetains_iff {m : Manager} {reg : GenerationRegistry} {d : Disk} (hd : d.Ready reg)
    (hn : reg.ids.Nodup) (c : Call) : AttestRetains m d c ↔ AttestFits m d c := by
  obtain ⟨op, -⟩ := c
  rcases op with _ | _ | ⟨-, -⟩ | _ | _
  case attest =>
    refine forall_congr' fun hs => ?_
    obtain ⟨b, man, target, d₁, hg, -, heq⟩ := hs.okEffect hd
    obtain ⟨t, ht, hparse⟩ := hg.bootState
    have hrec : d.bootRecord? = some b := by
      rw [Disk.bootRecord?, ht, Option.bind_some, hparse]
      rfl
    rw [heq, hd.registry, hrec]
    simp only [Disk.setRegistry, Option.mem_def, Option.some.injEq, forall_eq', ← hg.resolves]
    exact retentionMet_iff hn target
  all_goals exact .rfl

/-- **Retention works exactly where the registries fit.**  In every history of lifecycle calls from
the baseline, with any failures in any of them, as long as the id counter is below its maximum:
every attestation that succeeds leaves at most the quota of generations or nothing to reclaim, and
prunes only down to the quota, iff it starts from a registry with `SweepFits`. -/
theorem retention_along_iff (m : Manager) (calls : List Call)
    (hmax : Along (step m) BelowMax (baselineDisk m.digestHex) calls) :
    Along (step m) (AttestRetains m) (baselineDisk m.digestHex) calls ↔
      Along (step m) (AttestFits m) (baselineDisk m.digestHex) calls := by
  refine along_iff (I := fun d => ∃ reg used, Numbered reg d used) ?_ ?_
    ⟨_, _, numbered_baseline _⟩ hmax
  · rintro d c ⟨reg, used, hd⟩ hbelow -
    obtain ⟨reg', hd'⟩ := hd.step (m := m) hbelow
    exact ⟨reg', _, hd'⟩
  · rintro d c ⟨reg, used, hd⟩ -
    exact attestRetains_iff hd.ready hd.nodup c

/-- Create, activate and attest generation `id`. -/
def sampleUpgrade (id : UInt32) : List Call := [sampleCreate, sampleActivate id, sampleAttest none]

/-- Create and activate generation `id`, boot it by a rollback to it, and roll back from it. -/
def sampleFailure (id : UInt32) : List Call :=
  [sampleCreate, sampleActivate id, sampleRollback (some id), sampleRollback (some 101)]

/-- One upgrade, and a failed one after it. -/
theorem retention_along_iff_sample :
    Along (step sampleManager) (AttestRetains sampleManager) sampleStart
        (sampleUpgrade 102 ++ sampleFailure 103) ↔
      Along (step sampleManager) (AttestFits sampleManager) sampleStart
        (sampleUpgrade 102 ++ sampleFailure 103) :=
  retention_along_iff sampleManager (sampleUpgrade 102 ++ sampleFailure 103) (by decide +kernel)

/-- What a history leaves: the generations that are not pruned, the quota, and the reclaimable
ones. -/
def countsAfter (calls : List Call) : Option (Nat × Nat × Nat) :=
  (run (step sampleManager) sampleStart calls).registry.map fun reg =>
    (reg.kept, reg.retentionQuota, reg.reclaimable)

/-- Six upgrades leave seven generations for a quota of five: 102 to 105 could be reclaimed, but
each was the fallback once.  And where five upgrades have failed, the first attestation prunes one
generation and the second another, although the quota is met: the excess still counts the one that
was pruned. -/
theorem retention_misses_quota :
    let upgrades := [102, 103, 104, 105, 106, 107].flatMap sampleUpgrade
    let failures := [102, 103, 104, 105, 106].flatMap sampleFailure ++ [sampleAttest none]
    Along (step sampleManager) (fun d c => BelowMax d c ∧ Succeeds sampleManager d c) sampleStart
        upgrades ∧
      countsAfter upgrades = some (7, 5, 4) ∧
      Along (step sampleManager) (fun d c => BelowMax d c ∧ Succeeds sampleManager d c) sampleStart
        (failures ++ [sampleAttest none]) ∧
      countsAfter failures = some (5, 5, 4) ∧
      countsAfter (failures ++ [sampleAttest none]) = some (4, 5, 3) := by
  decide +kernel

end Control
