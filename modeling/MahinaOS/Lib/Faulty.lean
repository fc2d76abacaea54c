import Mathlib.Logic.Function.Basic

/-!
# Programs that update a disk and may fail at any system call

A program over a disk of type `δ` reads the disk, replaces parts of it, and stops at the first
failure — with everything it wrote before still on disk.  `Prog κ ε δ` is the monad of such
programs: `κ` names the kinds of system call that can fail on their own, and the *fault plan*
`κ → List (Option String)` says which of them do.  Each call takes the next entry of its kind's
list; `none`, or a list that is used up, is success.

Correctness is stated on the disk alone.  `Spec f₀ x d Q E` says that `x`, started on disk `d` under
any fault plan that is no worse than `f₀`, returns with `Q` or throws with `E`.  "No worse"
(`Calmer`) means that a kind of call that cannot fail under `f₀` still cannot fail, which is what a
program leaves behind after using up part of its plan.  There is one rule for each way to build a
program; `Spec.mono` weakens both postconditions, `Spec.exec` reads them off an execution, and
`Spec.exec_bind` off that of a composition, part by part.
-/

namespace Faulty

/-- Which system calls fail: for each kind, the outcomes of its calls in order. -/
abbrev Faults (κ : Type) := κ → List (Option String)

structure World (κ δ : Type) where
  disk : δ
  faults : Faults κ

/-- A program over a disk: a state monad whose exceptions keep the state. -/
abbrev Prog (κ ε δ : Type) := EStateM ε (World κ δ)

variable {κ ε δ α β : Type}

section Programs

/-- One system call of kind `k`, which may fail with the error `err msg`. -/
def syscall [DecidableEq κ] (err : String → ε) (k : κ) : Prog κ ε δ Unit := fun w =>
  match w.faults k with
  | [] => .ok () w
  | none :: rest => .ok () { w with faults := Function.update w.faults k rest }
  | some msg :: rest => .error (err msg) { w with faults := Function.update w.faults k rest }

def disk : Prog κ ε δ δ := fun w => .ok w.disk w

def update (u : δ → δ) : Prog κ ε δ Unit := fun w => .ok () { w with disk := u w.disk }

/-- Run `x` and return its outcome as a value, keeping whatever it did to the disk. -/
def attempt (x : Prog κ ε δ α) : Prog κ ε δ (Except ε α) := fun w =>
  match x w with
  | .ok a w' => .ok (.ok a) w'
  | .error e w' => .ok (.error e) w'

/-- Run `x`; if it throws, run `h`, whatever becomes of it, and throw again. -/
def onError (x : Prog κ ε δ α) (h : Prog κ ε δ Unit) : Prog κ ε δ α := fun w =>
  match x w with
  | .ok a w' => .ok a w'
  | .error e w' =>
    match h w' with
    | .ok _ w'' => .error e w''
    | .error _ w'' => .error e w''

/-- Stop with the error `e` unless `c` holds. -/
def ensure (c : Prop) [Decidable c] (e : ε) : Prog κ ε δ Unit := if c then pure () else throw e

/-- Run `x` only if `c` holds. -/
def onlyIf (c : Prop) [Decidable c] (x : Prog κ ε δ Unit) : Prog κ ε δ Unit :=
  if c then x else pure ()

/-- Go on with a successful outcome and ignore a failed one. -/
def ifOk (r : Except ε α) (g : α → Prog κ ε δ Unit) : Prog κ ε δ Unit :=
  match r with
  | .ok a => g a
  | .error _ => pure ()

/-- The value of `o`, or the error `e` if there is none. -/
def orThrow (o : Option α) (e : ε) : Prog κ ε δ α :=
  match o with
  | some a => pure a
  | none => throw e

/-- Run a program on a disk under a fault plan: its outcome and the disk it leaves. -/
def exec (x : Prog κ ε δ α) (d : δ) (f : Faults κ) : Except ε α × δ :=
  match x ⟨d, f⟩ with
  | .ok a w => (.ok a, w.disk)
  | .error e w => (.error e, w.disk)

end Programs

/-- Under `g` no kind of call can fail that cannot fail under `f`. -/
def Calmer (f g : Faults κ) : Prop := ∀ k, f k = [] → g k = []

theorem Calmer.refl (f : Faults κ) : Calmer f f := fun _ h => h

theorem Calmer.update [DecidableEq κ] {f₀ f : Faults κ} (h : Calmer f₀ f) {k : κ}
    {rest : List (Option String)} {o : Option String} (hk : f k = o :: rest) :
    Calmer f₀ (Function.update f k rest) := by
  intro j hj
  rcases eq_or_ne j k with rfl | hne
  · rw [h j hj] at hk
    exact absurd hk.symm (List.cons_ne_nil _ _)
  · rw [Function.update_of_ne hne]
    exact h j hj

/-- `x`, started on `d` under a fault plan no worse than `f₀`, returns with `Q` or throws with
`E`. -/
def Spec (f₀ : Faults κ) (x : Prog κ ε δ α) (d : δ) (Q : α → δ → Prop) (E : ε → δ → Prop) : Prop :=
  ∀ f, Calmer f₀ f →
    match x ⟨d, f⟩ with
    | .ok a w => Q a w.disk ∧ Calmer f₀ w.faults
    | .error e w => E e w.disk ∧ Calmer f₀ w.faults

namespace Spec

variable {f₀ : Faults κ} {x : Prog κ ε δ α} {d : δ} {Q Q' : α → δ → Prop} {E E' : ε → δ → Prop}
  {g : α → Prog κ ε δ β} {e : ε} {R : Unit → δ → Prop}

/-- Sequential composition: what the first part must establish is that the rest goes well. -/
theorem bind {R : β → δ → Prop} (hx : Spec f₀ x d (fun a d' => Spec f₀ (g a) d' R E) E) :
    Spec f₀ (x >>= g) d R E := by
  intro f hf
  have h := hx f hf
  show match EStateM.bind x g ⟨d, f⟩ with
    | .ok a w => R a w.disk ∧ Calmer f₀ w.faults
    | .error e w => E e w.disk ∧ Calmer f₀ w.faults
  rw [EStateM.bind]
  cases hr : x ⟨d, f⟩ with
  | ok a w =>
    rw [hr] at h
    exact h.1 w.faults h.2
  | error e w =>
    rw [hr] at h
    exact h

theorem pure {a : α} (h : Q a d) : Spec f₀ (Pure.pure a : Prog κ ε δ α) d Q E :=
  fun _ hf => ⟨h, hf⟩

theorem throw (h : E e d) : Spec f₀ (MonadExcept.throw e : Prog κ ε δ α) d Q E :=
  fun _ hf => ⟨h, hf⟩

/-- Weakening both postconditions. -/
theorem mono (hx : Spec f₀ x d Q E) (hQ : ∀ a d', Q a d' → Q' a d')
    (hE : ∀ e d', E e d' → E' e d') : Spec f₀ x d Q' E' := by
  intro f hf
  have h := hx f hf
  cases hr : x ⟨d, f⟩ with
  | ok a w =>
    rw [hr] at h
    exact ⟨hQ a _ h.1, h.2⟩
  | error e w =>
    rw [hr] at h
    exact ⟨hE e _ h.1, h.2⟩

theorem disk {R : δ → δ → Prop} (h : R d d) : Spec f₀ (disk : Prog κ ε δ δ) d R E :=
  fun _ hf => ⟨h, hf⟩

theorem update {u : δ → δ} (h : R () (u d)) : Spec f₀ (update u : Prog κ ε δ Unit) d R E :=
  fun _ hf => ⟨h, hf⟩

/-- A caller that looks at the outcome never throws. -/
theorem attempt {R : Except ε α → δ → Prop}
    (hx : Spec f₀ x d (fun a => R (.ok a)) (fun e => R (.error e))) :
    Spec f₀ (Faulty.attempt x) d R E := by
  intro f hf
  have h := hx f hf
  rw [Faulty.attempt]
  cases hr : x ⟨d, f⟩ with
  | ok a w =>
    rw [hr] at h
    exact h
  | error e w =>
    rw [hr] at h
    exact h

/-- A handler sees the disk the failed program left, and its own failure changes nothing else. -/
theorem onError {h : Prog κ ε δ Unit} {F : ε → δ → Prop} (hx : Spec f₀ x d Q F)
    (hh : ∀ e d', F e d' → Spec f₀ h d' (fun _ => E e) (fun _ => E e)) :
    Spec f₀ (Faulty.onError x h) d Q E := by
  intro f hf
  have h1 := hx f hf
  rw [Faulty.onError]
  cases hr : x ⟨d, f⟩ with
  | ok a w =>
    rw [hr] at h1
    exact h1
  | error e w =>
    rw [hr] at h1
    have h2 := hh e w.disk h1.1 w.faults h1.2
    cases hr2 : h w with
    | ok u w2 =>
      rw [hr2] at h2
      simp only [hr2]
      exact h2
    | error e2 w2 =>
      rw [hr2] at h2
      simp only [hr2]
      exact h2

/-- A system call does not touch the disk, and can fail only if its kind can. -/
theorem syscall [DecidableEq κ] {err : String → ε} {k : κ} (h : R () d)
    (hE : f₀ k ≠ [] → ∀ msg, E (err msg) d) :
    Spec f₀ (Faulty.syscall err k : Prog κ ε δ Unit) d R E := by
  intro f hf
  rw [Faulty.syscall]
  rcases hk : f k with - | ⟨o, rest⟩
  · simp only [hk]
    exact ⟨h, hf⟩
  · have hbad : f₀ k ≠ [] := fun h0 => List.cons_ne_nil o rest (hk.symm.trans (hf k h0))
    rcases o with - | msg
    · simp only [hk]
      exact ⟨h, hf.update hk⟩
    · simp only [hk]
      exact ⟨hE hbad msg, hf.update hk⟩

theorem ensure {c : Prop} [Decidable c] (h : c → R () d) (hE : ¬c → E e d) :
    Spec f₀ (Faulty.ensure c e : Prog κ ε δ Unit) d R E := by
  rw [Faulty.ensure]
  split
  · exact pure (h ‹_›)
  · exact throw (hE ‹_›)

theorem onlyIf {c : Prop} [Decidable c] {y : Prog κ ε δ Unit} (h : c → Spec f₀ y d R E)
    (hn : ¬c → R () d) : Spec f₀ (Faulty.onlyIf c y) d R E := by
  rw [Faulty.onlyIf]
  split
  · exact h ‹_›
  · exact pure (hn ‹_›)

theorem ifOk {r : Except ε α} {g : α → Prog κ ε δ Unit} (h : ∀ a, r = .ok a → Spec f₀ (g a) d R E)
    (hn : ∀ e, r = .error e → R () d) : Spec f₀ (ifOk r g) d R E := by
  cases r with
  | ok a => exact h a rfl
  | error e => exact pure (hn e rfl)

theorem orThrow {o : Option α} (h : ∀ a, o = some a → Q a d) (hE : o = none → E e d) :
    Spec f₀ (orThrow o e : Prog κ ε δ α) d Q E := by
  cases o with
  | some a => exact pure (h a rfl)
  | none => exact throw (hE rfl)

/-- The outcome of an execution satisfies the specification. -/
theorem exec (hx : Spec f₀ x d Q E) :
    match Faulty.exec x d f₀ with
    | (.ok a, d') => Q a d'
    | (.error e, d') => E e d' := by
  have h := hx f₀ (Calmer.refl f₀)
  rw [Faulty.exec]
  cases hr : x ⟨d, f₀⟩ with
  | ok a w =>
    rw [hr] at h
    exact h.1
  | error e w =>
    rw [hr] at h
    exact h.1

/-- Under a plan in which nothing fails, the specification is the run itself. -/
theorem of_run {a : α} {d' : δ} (hq : ∀ k, f₀ k = []) (hQ : Q a d')
    (hx : x ⟨d, fun _ => []⟩ = .ok a ⟨d', fun _ => []⟩) : Spec f₀ x d Q E := by
  intro f hf
  obtain rfl : f = fun _ => [] := funext fun k => hf k (hq k)
  rw [hx]
  exact ⟨hQ, hf⟩

/-- An execution of `x >>= g` by the outcome of `x`: it goes on from there, or ends with it. -/
theorem exec_bind {R : α → β → δ → Prop} {E' : α → ε → δ → Prop} (hx : Spec f₀ x d Q E)
    (hg : ∀ a d', Q a d' → Spec f₀ (g a) d' (R a) (E' a)) :
    match Faulty.exec x d f₀ with
    | (.ok a, d₁) => Q a d₁ ∧
      match Faulty.exec (x >>= g) d f₀ with
      | (.ok b, d') => R a b d'
      | (.error e, d') => E' a e d'
    | (.error e, d₁) => E e d₁ ∧ Faulty.exec (x >>= g) d f₀ = (.error e, d₁) := by
  have h := hx f₀ (.refl f₀)
  have hbind : (x >>= g) ⟨d, f₀⟩ = EStateM.bind x g ⟨d, f₀⟩ := rfl
  rw [Faulty.exec, Faulty.exec, hbind, EStateM.bind]
  cases hr : x ⟨d, f₀⟩ with
  | ok a w =>
    rw [hr] at h
    refine ⟨h.1, ?_⟩
    have h' := hg a w.disk h.1 w.faults h.2
    dsimp only
    cases hr' : g a w with
    | ok b w' =>
      rw [hr'] at h'
      exact h'.1
    | error e w' =>
      rw [hr'] at h'
      exact h'.1
  | error e w =>
    rw [hr] at h
    exact ⟨h.1, rfl⟩

end Spec

/-! ## Exact runs

`Spec` says what a program can end in.  To say where it does end under one particular plan, its run
is followed step by step with `bind_ok` and `bind_error`.  The plans are those of `failAt`, in which
a single call fails. -/

section

variable {x : Prog κ ε δ α} {g : α → Prog κ ε δ β} {w w' : World κ δ} {a : α} {e : ε}
  {h : Prog κ ε δ Unit} {c : Prop} {y : α → Prog κ ε δ Unit}

theorem bind_ok (h : x w = .ok a w') : (x >>= g) w = g a w' := by
  show EStateM.bind x g w = g a w'
  rw [EStateM.bind, h]

theorem bind_error (h : x w = .error e w') : (x >>= g) w = .error e w' := by
  show EStateM.bind x g w = .error e w'
  rw [EStateM.bind, h]

theorem bind_eq_bind (h : x w = x w') : (x >>= g) w = (x >>= g) w' := by
  show EStateM.bind x g w = EStateM.bind x g w'
  rw [EStateM.bind, EStateM.bind, h]

theorem attempt_ok (h : x w = .ok a w') : attempt x w = .ok (.ok a) w' := by
  rw [attempt, h]

theorem attempt_error (h : x w = .error e w') : attempt x w = .ok (.error e) w' := by
  rw [attempt, h]

theorem onError_ok (hx : x w = .ok a w') : onError x h w = .ok a w' := by
  rw [onError, hx]

theorem onError_error {w'' : World κ δ} {u : Unit} (hx : x w = .error e w')
    (hh : h w' = .ok u w'') : onError x h w = .error e w'' := by
  simp only [onError, hx, hh]

theorem ensure_ok [Decidable c] (h : c) : (ensure c e : Prog κ ε δ Unit) w = .ok () w := by
  rw [ensure, if_pos h]
  rfl

theorem ensure_error [Decidable c] (h : ¬c) : (ensure c e : Prog κ ε δ Unit) w = .error e w := by
  rw [ensure, if_neg h]
  rfl

theorem onlyIf_pos [Decidable c] {y : Prog κ ε δ Unit} (h : c) : onlyIf c y w = y w := by
  rw [onlyIf, if_pos h]

theorem onlyIf_neg [Decidable c] {y : Prog κ ε δ Unit} (h : ¬c) : onlyIf c y w = .ok () w := by
  rw [onlyIf, if_neg h]
  rfl

theorem ifOk_ok : ifOk (.ok a) y w = y a w := rfl

variable [DecidableEq κ] {err : String → ε} {k : κ} {msg : String} {n : Nat} {d : δ}

/-- The plan in which call number `n` of kind `k`, counted from 0, fails and no other. -/
def failAt (k : κ) (msg : String) (n : Nat) : Faults κ :=
  fun j => if j = k then List.replicate n none ++ [some msg] else []

theorem failAt_of_ne {j : κ} (h : j ≠ k) : failAt k msg n j = [] := if_neg h

theorem syscall_failAt_succ : (syscall err k : Prog κ ε δ Unit) ⟨d, failAt k msg (n + 1)⟩ =
    .ok () ⟨d, failAt k msg n⟩ := by
  have hk : failAt k msg (n + 1) k = none :: (List.replicate n none ++ [some msg]) := if_pos rfl
  have hrest : Function.update (failAt k msg (n + 1)) k (List.replicate n none ++ [some msg]) =
      failAt k msg n := by
    funext j
    by_cases hj : j = k
    · subst hj
      rw [Function.update_self, failAt, if_pos rfl]
    · rw [Function.update_of_ne hj, failAt_of_ne hj, failAt_of_ne hj]
  simp only [syscall, hk, hrest]

theorem syscall_failAt_zero : (syscall err k : Prog κ ε δ Unit) ⟨d, failAt k msg 0⟩ =
    .error (err msg) ⟨d, fun _ => []⟩ := by
  have hk : failAt k msg 0 k = [some msg] := if_pos rfl
  have hrest : Function.update (failAt k msg 0) k [] = fun _ => [] := by
    funext j
    by_cases hj : j = k
    · subst hj
      rw [Function.update_self]
    · rw [Function.update_of_ne hj, failAt_of_ne hj]
  simp only [syscall, hk, hrest]

end

end Faulty
