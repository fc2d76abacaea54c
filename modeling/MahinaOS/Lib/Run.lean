import Mathlib.Logic.Basic

/-!
# Runs of a transition system

A system is a function `step : σ → ι → σ`: the input `i : ι` carries the operation together with
everything the environment decides about it, so the step itself is a function and every
nondeterministic run is a list of inputs.

`Along step C s is` says that `C` holds at every step of the run `is` from `s`, evaluated in the
state *before* that step.  It plays both parts in a safety theorem: as a hypothesis it is the
condition the steps of a run are assumed to meet, and as a conclusion it is a property of each
step.  `trace` collects what is observed of the steps.

The rules are `inv_run`, which carries an invariant to the end of a run (`inv_run_of_forall`
when every step keeps it), `reached_run`, for what some step of the run brings about, `along_iff`,
which compares two conditions on the steps, and `forall_prefix_iff`, for an invariant that is kept
under a condition and only then.
-/

namespace Run

universe u v

variable {σ : Type u} {ι : Type v}

def run (step : σ → ι → σ) : σ → List ι → σ
  | s, [] => s
  | s, i :: is => run step (step s i) is

theorem run_append (step : σ → ι → σ) (s : σ) (is js : List ι) :
    run step s (is ++ js) = run step (run step s is) js := by
  induction is generalizing s with
  | nil => rfl
  | cons i is ih => exact ih (step s i)

/-- What is observed of the steps of a run. -/
def trace {ω : Type*} (step : σ → ι → σ) (obs : σ → ι → List ω) : σ → List ι → List ω
  | _, [] => []
  | s, i :: is => obs s i ++ trace step obs (step s i) is

theorem trace_append {ω : Type*} (step : σ → ι → σ) (obs : σ → ι → List ω) (s : σ)
    (is js : List ι) :
    trace step obs s (is ++ js) = trace step obs s is ++ trace step obs (run step s is) js := by
  induction is generalizing s with
  | nil => rfl
  | cons i is ih =>
    exact (congrArg (obs s i ++ ·) (ih (step s i))).trans (List.append_assoc ..).symm

/-- `C` holds at every step of the run, in the state before the step. -/
def Along (step : σ → ι → σ) (C : σ → ι → Prop) : σ → List ι → Prop
  | _, [] => True
  | s, i :: is => C s i ∧ Along step C (step s i) is

-- a bounded quantifier is decided along its bound, also over a type that is finite itself
attribute [instance (1100)] List.decidableBAll List.decidableBEx Option.decidableForallMem
  Option.decidableExistsMem

instance Along.decidable (step : σ → ι → σ) (C : σ → ι → Prop) [∀ s i, Decidable (C s i)] :
    ∀ (s : σ) (is : List ι), Decidable (Along step C s is)
  | _, [] => .isTrue trivial
  | s, i :: is => @instDecidableAnd _ _ _ (Along.decidable step C (step s i) is)

variable {s : σ} {is : List ι}

/-- Nothing is observed of a run if nothing is of any of its steps. -/
theorem trace_eq_nil {ω : Type*} {step : σ → ι → σ} {obs : σ → ι → List ω} :
    trace step obs s is = [] ↔ Along step (fun s i => obs s i = []) s is := by
  induction is generalizing s with
  | nil => exact iff_of_true rfl trivial
  | cons i is ih => exact List.append_eq_nil_iff.trans (and_congr_right fun _ => ih)

variable {step : σ → ι → σ} {C P : σ → ι → Prop} {I : σ → Prop}

/-- An invariant that holds initially and is kept by every step meeting `C` holds at the end of
every run whose steps meet `C`. -/
theorem inv_run (hstep : ∀ s i, I s → C s i → I (step s i)) (h0 : I s) (hC : Along step C s is) :
    I (run step s is) := by
  induction is generalizing s with
  | nil => exact h0
  | cons i is ih => exact ih (hstep s i h0 hC.1) hC.2

theorem inv_run_of_forall (hstep : ∀ s i, I s → I (step s i)) (h0 : I s) (is : List ι) :
    I (run step s is) := by
  induction is generalizing s with
  | nil => exact h0
  | cons i is ih => exact ih (hstep s i h0)

/-- What the inputs in `W` bring about and every step keeps holds at the end of a run that has such
an input. -/
theorem reached_run {Q : σ → Prop} {W : ι → Prop} (hstep : ∀ s i, I s → C s i → I (step s i))
    (hreach : ∀ s i, I s → C s i → W i ∨ Q s → Q (step s i)) (h0 : I s) (hC : Along step C s is)
    (hW : (∃ i ∈ is, W i) ∨ Q s) : Q (run step s is) := by
  induction is generalizing s with
  | nil => exact hW.resolve_left (by simp)
  | cons i is ih =>
    refine ih (hstep s i h0 hC.1) hC.2 ?_
    rcases hW with ⟨j, hj, hWj⟩ | hQ
    · rcases List.mem_cons.1 hj with rfl | hj
      · exact .inr (hreach s j h0 hC.1 (.inl hWj))
      · exact .inl ⟨j, hj, hWj⟩
    · exact .inr (hreach s i h0 hC.1 (.inr hQ))

theorem along_trivial (s : σ) (is : List ι) : Along step (fun _ _ => True) s is := by
  induction is generalizing s with
  | nil => trivial
  | cons i is ih => exact ⟨trivial, ih (step s i)⟩

theorem along_append {js : List ι} :
    Along step C s (is ++ js) ↔ Along step C s is ∧ Along step C (run step s is) js := by
  induction is generalizing s with
  | nil => exact ⟨fun h => ⟨trivial, h⟩, fun h => h.2⟩
  | cons i is ih => exact (and_congr_right fun _ => ih).trans and_assoc.symm

/-- The same, position by position. -/
theorem along_iff_forall :
    Along step C s is ↔ ∀ pre i post, is = pre ++ i :: post → C (run step s pre) i := by
  constructor
  · rintro h pre i post rfl
    exact (along_append.1 h).2.1
  · intro h
    induction is generalizing s with
    | nil => trivial
    | cons i is ih =>
      refine ⟨h [] i is rfl, ih fun pre j post hsplit => ?_⟩
      exact h (i :: pre) j post (congrArg (i :: ·) hsplit)

theorem Along.and (h : Along step C s is) (h' : Along step P s is) :
    Along step (fun s i => C s i ∧ P s i) s is := by
  induction is generalizing s with
  | nil => trivial
  | cons i is ih => exact ⟨⟨h.1, h'.1⟩, ih h.2 h'.2⟩

/-- An invariant may be used at every step. -/
theorem Along.inv (hstep : ∀ s i, I s → C s i → I (step s i)) (h0 : I s) (hC : Along step C s is) :
    Along step (fun s i => I s ∧ C s i) s is := by
  induction is generalizing s with
  | nil => trivial
  | cons i is ih => exact ⟨⟨h0, hC.1⟩, ih (hstep s i h0 hC.1) hC.2⟩

theorem Along.of_prefix {pre : List ι} (h : Along step C s is) (hpre : pre <+: is) :
    Along step C s pre := by
  obtain ⟨post, rfl⟩ := hpre
  exact (along_append.1 h).1

variable {H : σ → ι → Prop}

/-- Two conditions on the steps of a run are equivalent when they are equivalent at each step from
an invariant state, and a step that meets them keeps the invariant.  `H` is what the runs
considered satisfy anyway. -/
theorem along_iff (hstep : ∀ s i, I s → H s i → C s i → I (step s i))
    (hiff : ∀ s i, I s → H s i → (P s i ↔ C s i)) (h0 : I s) (hH : Along step H s is) :
    Along step P s is ↔ Along step C s is := by
  induction is generalizing s with
  | nil => exact .rfl
  | cons i is ih =>
    show (P s i ∧ _) ↔ (C s i ∧ _)
    rw [hiff s i h0 hH.1]
    exact and_congr_right fun hC => ih (hstep s i h0 hH.1 hC) hH.2

/-- A property that a step keeps under `C`, and only then, holds in every state of a run from a
state that has it exactly when every step meets `C`. -/
theorem forall_prefix_iff (hiff : ∀ s i, I s → H s i → (I (step s i) ↔ C s i)) (h0 : I s)
    (hH : Along step H s is) : (∀ pre, pre <+: is → I (run step s pre)) ↔ Along step C s is := by
  induction is generalizing s with
  | nil =>
    refine ⟨fun _ => trivial, fun _ pre hpre => ?_⟩
    rw [List.prefix_nil.1 hpre]
    exact h0
  | cons i is ih =>
    constructor
    · intro h
      have hstep : I (step s i) := h [i] ⟨is, rfl⟩
      refine ⟨(hiff s i h0 hH.1).1 hstep, (ih hstep hH.2).1 fun pre hpre => ?_⟩
      exact h (i :: pre) ((List.prefix_cons_inj i).2 hpre)
    · rintro ⟨hC, hrest⟩ pre hpre
      rcases pre with - | ⟨j, pre⟩
      · exact h0
      · obtain ⟨rfl, hpre'⟩ := List.cons_prefix_cons.1 hpre
        exact (ih ((hiff s j h0 hH.1).2 hC) hH.2).2 hrest pre hpre'

end Run
