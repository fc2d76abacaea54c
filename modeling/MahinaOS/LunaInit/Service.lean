import Mathlib.Data.Finset.Card
import Mathlib.Data.Finset.Range
import Mathlib.Data.List.Range
import Mathlib.Logic.Function.Basic

/-!
# luna-init: the service table

`luna-init` (PID 1) keeps its services in one global array, `g_services[0 .. g_service_count)`.  An
entry is what the service's TOML file declares (`ServiceDef`) and the runtime state the supervisor
manages (`Service`).

* `serviceFind`, `serviceFindByPid` are the two lookups.
* `serviceLoadAll` rebuilds the table from the service directory.  It runs at boot and again at
  every reload.  What one file parses to is given with the directory (`DirEntry`).
* `serviceLoadAll_distinct`: after a load no two entries have the same name, so that
  `serviceFind` finds an entry by its name (`Table.Distinct.serviceFind_name`).
* `serviceLoadAll_fresh`: every entry of a loaded table is `PENDING` and has no process.
* `serviceFind_serviceLoadAll`: a service is in the loaded table exactly if its file comes before
  the array is full (`HasPlace`).
-/

namespace LunaInit

open List Function

/-- `SERVICE_MAX_COUNT`. -/
def serviceMaxCount : Nat := 32

/-- `SERVICE_MAX_DEPS`. -/
def serviceMaxDeps : Nat := 8

/-- `service_state_t`. -/
inductive ServiceState
  | pending
  | starting
  | running
  | degraded
  | stopping
  | stopped
  | failed
  deriving DecidableEq, Repr

/-- `restart_policy_t`. -/
inductive RestartPolicy
  | never
  | always
  | onFailure
  deriving DecidableEq, Repr

/-- `ready_method_t`. -/
inductive ReadyMethod
  | none
  | file
  | socket
  | http
  | signal
  deriving DecidableEq, Repr

/-- What a service file declares, with the defaults of `service_load_one`.  `after` and `before`
have `after_count` and `before_count` elements. -/
structure ServiceDef where
  name : String
  binary : String
  after : List String := []
  before : List String := []
  restartPolicy : RestartPolicy := .onFailure
  restartAttempts : Int := 3
  restartDelayMs : Int := 1000
  readyMethod : ReadyMethod := .none
  readyTimeoutMs : Int := 5000
  deriving DecidableEq, Repr

/-- `service_t`: the declaration and the runtime state.  `pid` is 0 when no process is recorded, and
`depIndices` are the first `dep_count` elements of `dep_indices`. -/
structure Service extends ServiceDef where
  state : ServiceState := .pending
  pid : Nat := 0
  restartCount : Nat := 0
  startTimeMs : Int := 0
  stopTimeMs : Int := 0
  scheduledStartMs : Int := 0
  depIndices : List Nat := []
  deriving DecidableEq, Repr

/-- The entry `service_load_one` leaves for a declaration: the runtime fields are zeroed. -/
def ServiceDef.fresh (d : ServiceDef) : Service := { d with }

/-- `g_services` and `g_service_count`.  The array has `SERVICE_MAX_COUNT` entries. -/
structure Table where
  count : Nat
  svc : Nat → Service
  count_le : count ≤ serviceMaxCount

def Table.zero : Table := ⟨0, fun _ => { name := "", binary := "" }, Nat.zero_le _⟩

def Table.set (t : Table) (i : Nat) (s : Service) : Table :=
  { t with svc := update t.svc i s }

variable {t : Table} {i : Nat} {s : Service} {name : String}

@[simp] theorem Table.set_svc_self : (t.set i s).svc i = s := update_self ..

theorem Table.set_svc_of_ne {j : Nat} (h : j ≠ i) :
    (t.set i s).svc j = t.svc j := update_of_ne h ..

/-- A property of one entry survives writing another one, if the new entry has it too. -/
theorem Table.set_svc_elim {P : Nat → Service → Prop} {j : Nat} (hi : j = i → P i s)
    (hj : j ≠ i → P j (t.svc j)) : P j ((t.set i s).svc j) := by
  rcases eq_or_ne j i with rfl | hne
  · rw [Table.set_svc_self]
    exact hi rfl
  · rw [Table.set_svc_of_ne hne]
    exact hj hne

/-! ## Lookup -/

/-- `service_find`: the first entry with the name. -/
def serviceFind (t : Table) (name : String) : Option Nat :=
  (range t.count).find? fun i => (t.svc i).name = name

/-- `service_find_by_pid`. -/
def serviceFindByPid (t : Table) (pid : Nat) : Option Nat :=
  if pid = 0 then none else (range t.count).find? fun i => (t.svc i).pid = pid

theorem serviceFind_eq_some (h : serviceFind t name = some i) :
    i < t.count ∧ (t.svc i).name = name := by
  refine ⟨?_, ?_⟩
  · exact mem_range.1 (mem_of_find?_eq_some h)
  · simpa using find?_some h

theorem serviceFind_eq_none : serviceFind t name = none ↔ ∀ i < t.count, (t.svc i).name ≠ name := by
  simp [serviceFind]

theorem serviceFindByPid_eq_some {pid : Nat} (h : serviceFindByPid t pid = some i) :
    pid ≠ 0 ∧ i < t.count ∧ (t.svc i).pid = pid := by
  unfold serviceFindByPid at h
  split at h
  · cases h
  · next hpid =>
    exact ⟨hpid, mem_range.1 (mem_of_find?_eq_some h), by simpa using find?_some h⟩

theorem serviceFindByPid_eq_none {pid : Nat} (h : serviceFindByPid t pid = none) (hpid : pid ≠ 0)
    (hi : i < t.count) : (t.svc i).pid ≠ pid := by
  rw [serviceFindByPid, if_neg hpid, find?_eq_none] at h
  simpa using h i (mem_range.2 hi)

/-- No two entries have the same name. -/
def Table.Distinct (t : Table) : Prop :=
  ∀ i < t.count, ∀ j < t.count, (t.svc i).name = (t.svc j).name → i = j

/-- In a table with distinct names an entry is found by its name. -/
theorem Table.Distinct.serviceFind_name (h : t.Distinct) (hi : i < t.count) :
    serviceFind t (t.svc i).name = some i := by
  rcases hf : serviceFind t (t.svc i).name with - | j
  · exact absurd rfl (serviceFind_eq_none.1 hf i hi)
  · obtain ⟨hj, hname⟩ := serviceFind_eq_some hf
    rw [h j hj i hi hname]

theorem serviceFind_congr {t' : Table} (hc : t'.count = t.count)
    (hn : ∀ i, (t'.svc i).name = (t.svc i).name) (name : String) :
    serviceFind t' name = serviceFind t name := by
  unfold serviceFind
  simp only [hc, hn]

/-! ## Loading the service directory -/

/-- One file of the service directory: its name, and what `service_load_one` makes of it (`none`
when it does not parse or a required field is missing). -/
structure DirEntry where
  fileName : String
  parsed : Option ServiceDef

/-- Only the `.toml` files are read; a file name is at least six bytes long. -/
def DirEntry.isToml (e : DirEntry) : Bool :=
  e.fileName.toList.length > 5 && ".toml".toList.isSuffixOf e.fileName.toList

/-- `g_services[g_service_count++] = svc`. -/
def Table.push (t : Table) (s : Service) (h : t.count < serviceMaxCount) : Table :=
  { count := t.count + 1, svc := update t.svc t.count s, count_le := h }

section

variable {t : Table} {s : Service} {h : t.count < serviceMaxCount}

@[simp] theorem Table.push_count : (t.push s h).count = t.count + 1 := rfl

@[simp] theorem Table.push_svc_count : (t.push s h).svc t.count = s := update_self ..

theorem Table.push_svc_of_lt {i : Nat} (hi : i < t.count) : (t.push s h).svc i = t.svc i :=
  update_of_ne (Nat.ne_of_lt hi) ..

end

/-- The loop of `service_load_all` over the directory. -/
def loadEntries : List DirEntry → Table → Table
  | [], t => t
  | e :: es, t =>
    if !e.isToml then loadEntries es t
    -- the table is full: the rest of the directory is not read
    else if h : t.count ≥ serviceMaxCount then t
    else
      match e.parsed with
      | none => loadEntries es t
      | some d =>
        -- a duplicate name is skipped
        if (serviceFind t d.name).isSome then loadEntries es t
        else loadEntries es (t.push d.fresh (Nat.lt_of_not_le h))

/-- `service_load_all`.  A directory that cannot be opened (`none`) leaves the table alone;
otherwise the table is refilled from its first entry on. -/
def serviceLoadAll (dir : Option (List DirEntry)) (t : Table) : Table :=
  match dir with
  | none => t
  | some es => loadEntries es { t with count := 0, count_le := Nat.zero_le _ }

/-- What holds of the table and of every table got by pushing an unused name holds of a loaded
table. -/
theorem loadEntries_induct {P : Table → Prop}
    (hpush : ∀ t (d : ServiceDef) h, serviceFind t d.name = none → P t → P (t.push d.fresh h))
    (es : List DirEntry) (ht : P t) : P (loadEntries es t) := by
  induction es generalizing t with
  | nil => exact ht
  | cons e es ih =>
    unfold loadEntries
    split
    · exact ih ht
    · split
      · exact ht
      · rcases hp : e.parsed with - | d
        · exact ih ht
        · rcases hf : serviceFind t d.name with - | j
          · simpa [hf] using ih (hpush t d _ hf ht)
          · simpa [hf] using ih ht

theorem Table.Distinct.push (h : t.Distinct) (hs : serviceFind t s.name = none)
    (hc : t.count < serviceMaxCount) : (t.push s hc).Distinct := by
  rw [serviceFind_eq_none] at hs
  intro i hi j hj hij
  rw [Table.push_count, Nat.lt_succ_iff_lt_or_eq] at hi hj
  rcases hi with hi | rfl <;> rcases hj with hj | rfl
  · rw [Table.push_svc_of_lt hi, Table.push_svc_of_lt hj] at hij
    exact h i hi j hj hij
  · rw [Table.push_svc_of_lt hi, Table.push_svc_count] at hij
    exact absurd hij (hs i hi)
  · rw [Table.push_svc_of_lt hj, Table.push_svc_count] at hij
    exact absurd hij.symm (hs j hj)
  · rfl

variable {es : List DirEntry}

theorem serviceLoadAll_distinct : (serviceLoadAll (some es) t).Distinct := by
  refine loadEntries_induct (P := Table.Distinct) (fun t d hc hf h => h.push hf hc) es ?_
  intro i hi
  exact absurd hi (Nat.not_lt_zero i)

/-- Nothing has happened to the entry since it was loaded. -/
def Service.Untouched (s : Service) : Prop :=
  s.state = .pending ∧ s.pid = 0 ∧ s.restartCount = 0

instance (s : Service) : Decidable s.Untouched :=
  inferInstanceAs (Decidable (_ ∧ _ ∧ _))

theorem ServiceDef.fresh_untouched {d : ServiceDef} : d.fresh.Untouched := ⟨rfl, rfl, rfl⟩

theorem serviceLoadAll_fresh (es : List DirEntry) (t : Table) :
    ∀ i < (serviceLoadAll (some es) t).count,
      ∃ d : ServiceDef, (serviceLoadAll (some es) t).svc i = d.fresh := by
  refine loadEntries_induct (P := fun t => ∀ i < t.count, ∃ d : ServiceDef, t.svc i = d.fresh)
    (fun t d _ _ h i hi => ?_) es ?_
  · rw [Table.push_count, Nat.lt_succ_iff_lt_or_eq] at hi
    rcases hi with hi | rfl
    · rw [Table.push_svc_of_lt hi]
      exact h i hi
    · exact ⟨d, Table.push_svc_count⟩
  · intro i hi
    exact absurd hi (Nat.not_lt_zero i)

/-! ## Which files find a place -/

/-- The name that a service file declares; `none` for any other file. -/
def DirEntry.declared (e : DirEntry) : Option String :=
  if e.isToml then e.parsed.map ServiceDef.name else none

def Table.names (t : Table) : Finset String := (Finset.range t.count).image fun i => (t.svc i).name

def declaredNames (es : List DirEntry) : Finset String := (es.filterMap DirEntry.declared).toFinset

/-- There is a place for the name when the files before the one that declares it, and the names in
`seen`, are fewer than the array has entries. -/
def HasPlace (seen : Finset String) (es : List DirEntry) (name : String) : Prop :=
  ∃ es₁ e es₂, es = es₁ ++ e :: es₂ ∧ e.declared = some name ∧
    (seen ∪ declaredNames es₁).card < serviceMaxCount

theorem Table.mem_names : name ∈ t.names ↔ ∃ i < t.count, (t.svc i).name = name := by
  simp [Table.names]

theorem serviceFind_isSome : (serviceFind t name).isSome ↔ name ∈ t.names := by
  rw [← not_iff_not, Option.not_isSome_iff_eq_none, serviceFind_eq_none, Table.mem_names]
  simp

theorem Table.Distinct.card_names (h : t.Distinct) : t.names.card = t.count := by
  have hinj : Set.InjOn (fun i => (t.svc i).name) (Finset.range t.count) := fun i hi j hj hij =>
    h i (Finset.mem_range.1 hi) j (Finset.mem_range.1 hj) hij
  rw [Table.names, Finset.card_image_of_injOn hinj, Finset.card_range]

theorem Table.names_push {h : t.count < serviceMaxCount} :
    (t.push s h).names = insert s.name t.names := by
  ext name
  simp only [Finset.mem_insert, Table.mem_names, Table.push_count, Nat.lt_succ_iff_lt_or_eq]
  constructor
  · rintro ⟨i, hi | rfl, hname⟩
    · exact .inr ⟨i, hi, Table.push_svc_of_lt hi ▸ hname⟩
    · exact .inl (Table.push_svc_count ▸ hname).symm
  · rintro (rfl | ⟨i, hi, hname⟩)
    · exact ⟨t.count, .inr rfl, by rw [Table.push_svc_count]⟩
    · exact ⟨i, .inl hi, by rw [Table.push_svc_of_lt hi, hname]⟩

theorem loadEntries_full (h : serviceMaxCount ≤ t.count) : loadEntries es t = t := by
  induction es with
  | nil => rfl
  | cons e es ih =>
    unfold loadEntries
    split
    · exact ih
    · rfl

/-- The first file of the list is read before the others. -/
theorem hasPlace_cons {seen : Finset String} {e : DirEntry} :
    HasPlace seen (e :: es) name ↔
      (e.declared = some name ∧ seen.card < serviceMaxCount) ∨
        HasPlace (seen ∪ declaredNames [e]) es name := by
  have hcons : ∀ es₁, declaredNames (e :: es₁) = declaredNames [e] ∪ declaredNames es₁ := by
    intro es₁
    cases he : e.declared <;> simp [declaredNames, he]
  constructor
  · rintro ⟨es₁, a, es₂, hes, ha, hcard⟩
    rcases es₁ with - | ⟨b, es₁⟩
    · obtain ⟨rfl, rfl⟩ := cons.inj hes
      exact .inl ⟨ha, by simpa [declaredNames] using hcard⟩
    · obtain ⟨rfl, rfl⟩ := cons.inj hes
      rw [hcons, ← Finset.union_assoc] at hcard
      exact .inr ⟨es₁, a, es₂, rfl, ha, hcard⟩
  · rintro (⟨he, hcard⟩ | ⟨es₁, a, es₂, rfl, ha, hcard⟩)
    · exact ⟨[], e, es, rfl, he, by simpa [declaredNames] using hcard⟩
    · refine ⟨e :: es₁, a, es₂, rfl, ha, ?_⟩
      rwa [hcons, ← Finset.union_assoc]

/-- The names that a directory adds to a table: the array takes the first ones. -/
theorem mem_names_loadEntries (h : t.Distinct) :
    name ∈ (loadEntries es t).names ↔ name ∈ t.names ∨ HasPlace t.names es name := by
  induction es generalizing t with
  | nil => simp [loadEntries, HasPlace]
  | cons e es ih =>
    by_cases hfull : serviceMaxCount ≤ t.count
    · rw [loadEntries_full hfull, or_iff_left]
      rintro ⟨es₁, a, -, -, -, hcard⟩
      have hsub : t.names ⊆ t.names ∪ declaredNames es₁ := Finset.subset_union_left
      have hle := Finset.card_le_card hsub
      rw [h.card_names] at hle
      omega
    · have hcard : t.names.card < serviceMaxCount := by
        rw [h.card_names]
        omega
      rw [hasPlace_cons, and_iff_left hcard]
      unfold loadEntries
      rcases htoml : e.isToml with - | -
      · simpa [DirEntry.declared, declaredNames, htoml] using ih h
      · rcases hp : e.parsed with - | d
        · simpa [DirEntry.declared, declaredNames, htoml, hp, hfull] using ih h
        · have hd : e.declared = some d.name := by simp [DirEntry.declared, htoml, hp]
          have hunion : t.names ∪ declaredNames [e] = insert d.name t.names := by
            simp [declaredNames, hd]
          rw [hd, hunion, Option.some.injEq]
          rcases hf : serviceFind t d.name with - | j
          · have hnew := ih (h.push (s := d.fresh) hf (Nat.lt_of_not_le hfull))
            rw [Table.names_push, Finset.mem_insert] at hnew
            simp only [Bool.not_true, Bool.false_eq_true, if_false, hfull, dite_false, hf,
              Option.isSome_none]
            rw [hnew, eq_comm (a := name), or_comm (a := d.fresh.name = name), or_assoc]
            rfl
          · have hmem : d.name ∈ t.names := serviceFind_isSome.1 (by rw [hf]; rfl)
            simp only [Bool.not_true, Bool.false_eq_true, if_false, hfull, dite_false, hf,
              Option.isSome_some, if_true]
            rw [ih h, Finset.insert_eq_of_mem hmem]
            constructor
            · exact fun hcase => hcase.imp_right .inr
            · rintro (hn | rfl | hplace)
              · exact .inl hn
              · exact .inl hmem
              · exact .inr hplace

/-- **What `service_load_all` loads**: the services whose files come before the array is full. -/
theorem serviceFind_serviceLoadAll :
    (serviceFind (serviceLoadAll (some es) t) name).isSome ↔ HasPlace ∅ es name := by
  have hempty : ({ t with count := 0, count_le := Nat.zero_le _ } : Table).Distinct :=
    fun i hi => absurd hi (Nat.not_lt_zero i)
  rw [serviceFind_isSome, serviceLoadAll, mem_names_loadEntries hempty]
  simp [Table.names]

end LunaInit
