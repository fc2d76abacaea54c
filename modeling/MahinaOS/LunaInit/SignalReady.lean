import MahinaOS.LunaInit.Requests

/-!
# luna-init: readiness by signal

A service with the ready method `signal` sends SIGUSR1 to PID 1 when it is ready.
`supervisor_signal_ready` looks for the entry with the pid of the sender and sets the flag of its
slot in `g_signal_ready`; `supervisor_check_ready` reads the flag.  Nothing clears it.  It outlives
the process that set it, and also a reload, after which the slot may belong to another service.

`Watched` keeps, beside the supervisor, the entries whose process has been heard from since it was
spawned, and `Announced` says of a step that it makes no service `RUNNING` by signal whose process
was not.

* **`signal_ready_iff`**: it holds at every point of a run exactly if no process was spawned into a
  set flag.
* `signal_ready_stale`: a service that announced itself, died and was restarted is `RUNNING` at the
  next pump, before its second process has sent anything.
-/

namespace LunaInit

/-- The call is a SIGUSR1 from the process in entry `i`. -/
def SupCall.signals (sup : Supervisor) (i : Nat) : SupCall → Bool
  | .signalReady pid => (sup.table.svc i).pid = pid
  | .startAll _ | .startOne _ _ | .pump _ | .stopOne _ | .exit _ => false

/-- The supervisor, and the entries whose process has sent SIGUSR1 since it was spawned. -/
structure Watched where
  sup : Supervisor
  heard : Nat → Bool

def Watched.zero : Watched := ⟨Supervisor.zero, fun _ => false⟩

/-- A new process has not been heard from, and a table that has just been read has no processes. -/
def Watched.step (w : Watched) (e : SupEvent) : Watched where
  sup := (e.perform w.sup).1
  heard i :=
    match e with
    | .call c =>
      !decide (i ∈ (forks (c.perform w.sup).2).map Prod.snd) &&
        (w.heard i || c.signals w.sup i)
    | .reload none => w.heard i
    | .reload (some _) => false

/-- The readiness of a service is not checked before its process was spawned. -/
def SupEvent.OnTime (sup : Supervisor) : SupEvent → Prop
  | .call c => ∀ env ∈ c.env, ∀ i, (sup.table.svc i).startTimeMs ≤ env.checkNow i
  | .reload _ => True

/-- A service with the ready method `signal` gets from `STARTING` to `RUNNING` only if its process
has been heard from. -/
def Announced (w : Watched) (e : SupEvent) : Prop :=
  ∀ i < w.sup.table.count, (w.sup.table.svc i).readyMethod = .signal →
    (w.sup.table.svc i).state = .starting →
    ((w.step e).sup.table.svc i).state = .running → w.heard i = true

/-- The service waits for a signal, and it is looked for at least once. -/
def Service.AwaitsSignal (s : Service) : Prop := s.readyMethod = .signal ∧ 0 ≤ s.readyTimeoutMs

/-- No process is spawned for such a service while the flag of its slot is set. -/
def FlagsClear (w : Watched) (e : SupEvent) : Prop :=
  ∀ p ∈ forks (e.perform w.sup).2, (w.sup.table.svc p.2).AwaitsSignal →
    w.sup.signalReady p.2 = false

/-! ## The flags -/

variable {c : SupCall} {sup : Supervisor} {i : Nat} {env : PumpEnv} {p : Nat × Nat} {e : SupEvent}

theorem SupCall.perform_signalReady (hc : ∀ pid, c ≠ .signalReady pid) (sup : Supervisor) :
    (c.perform sup).1.signalReady = sup.signalReady := by
  cases c with
  | startAll env => exact supervisorPump_signalReady
  | startOne name env =>
    rw [perform]
    rcases hf : serviceFind sup.table name with - | i
    · rw [supervisorStartOne_of_none hf]
    · cases hactive : (sup.table.svc i).active with
      | true => rw [supervisorStartOne_of_active hf hactive]
      | false =>
        rw [supervisorStartOne_of_idle hf hactive]
        exact supervisorPump_signalReady
  | pump env => exact supervisorPump_signalReady
  | stopOne name =>
    rw [perform, supervisorStopOne]
    split
    · rfl
    · dsimp only
      split <;> rfl
  | exit e =>
    rw [perform, reaperOnExit]
    split <;> rfl
  | signalReady pid => exact absurd rfl (hc pid)

theorem SupCall.flag_mono (h : sup.signalReady i = true) (c : SupCall) :
    (c.perform sup).1.signalReady i = true := by
  by_cases hc : ∃ pid, c = .signalReady pid
  · obtain ⟨pid, rfl⟩ := hc
    rw [perform, supervisorSignalReady]
    split
    · exact h
    · next j _ =>
      by_cases hij : i = j
      · rw [hij]
        exact Function.update_self ..
      · exact (Function.update_of_ne hij ..).trans h
  · rw [perform_signalReady (not_exists.1 hc)]
    exact h

/-- Only a signal from the process in the entry sets its flag. -/
theorem SupCall.flag_cases (h : (c.perform sup).1.signalReady i = true) :
    sup.signalReady i = true ∨ c.signals sup i = true := by
  by_cases hc : ∃ pid, c = .signalReady pid
  · obtain ⟨pid, rfl⟩ := hc
    rw [perform, supervisorSignalReady] at h
    split at h
    · exact .inl h
    · next j hj =>
      by_cases hij : i = j
      · right
        rw [hij]
        simpa [signals] using List.find?_some hj
      · exact .inl ((Function.update_of_ne hij ..).symm.trans h)
  · rw [perform_signalReady (not_exists.1 hc)] at h
    exact .inl h

theorem SupCall.perform_of_signals (h : c.signals sup i = true) : (c.perform sup).2 = [] := by
  cases c with
  | signalReady pid => rfl
  | startAll | startOne | pump | stopOne | exit => cases h

/-! ## Spawning and getting ready -/

theorem supervisorPump_of_ne_pending (h : (sup.table.svc i).state ≠ .pending) (env : PumpEnv) :
    (supervisorPump env sup).1.table.svc i = (pollReadiness env sup).svc i := by
  refine supervisorPump_of_not_attempted fun hmem => ?_
  obtain ⟨a, ha, hservice⟩ := List.mem_map.1 hmem
  exact (supervisorPump_not_pending h env).2 a ha hservice

theorem supervisorPump_of_forked (h : p ∈ forks (supervisorPump env sup).2) :
    p.2 < sup.table.count ∧ ((supervisorPump env sup).1.table.svc p.2).state = .starting := by
  obtain ⟨a, ha, hservice, now, hfork⟩ := mem_forks.1 h
  obtain ⟨hlt, houtcome⟩ := supervisorPump_attempt a ha
  rw [hservice] at hlt houtcome
  rcases supervisorPump_of_attempted (mem_attempted_of_mem_forks h) with ⟨-, hnot⟩ | ⟨hs, -⟩
  · exact absurd (houtcome.symm.trans hfork) (hnot p.1 now)
  · exact ⟨hlt, hs⟩

theorem SupCall.starting_of_forked (h : p ∈ forks (c.perform sup).2) :
    p.2 < sup.table.count ∧ ((c.perform sup).1.table.svc p.2).state = .starting := by
  rcases c.perform_split sup with ⟨env, sup', -, hcalm, -, hpump⟩ | ⟨hnone, -⟩
  · rw [hpump] at h ⊢
    rw [← hcalm.static.count]
    exact supervisorPump_of_forked h
  · rw [hnone] at h
    cases h

/-- The other `STARTING` services after a call were so before it. -/
theorem SupCall.starting_of_not_forked (hs : ((c.perform sup).1.table.svc i).state = .starting)
    (hi : i ∉ (forks (c.perform sup).2).map Prod.snd) : (sup.table.svc i).state = .starting := by
  have hback {sup' : Supervisor} (hcalm : Calm sup sup')
      (hs' : (sup'.table.svc i).state = .starting) : (sup.table.svc i).state = .starting := by
    rcases hcalm.entry i with hsame | hidle
    · rwa [hsame] at hs'
    · simp [Service.active, hs'] at hidle
  rcases c.perform_split sup with ⟨env, sup', -, hcalm, -, hpump⟩ | ⟨-, hcalm⟩
  · rw [hpump] at hs hi
    refine hback hcalm ?_
    by_cases hmem : i ∈ attempted (supervisorPump env sup').2
    · rcases supervisorPump_of_attempted hmem with ⟨hdeg, -⟩ | ⟨-, hfork⟩
      · simp [hdeg] at hs
      · exact absurd (List.mem_map_of_mem hfork) hi
    · rw [supervisorPump_of_not_attempted hmem] at hs
      by_contra hne
      rw [pollReadiness_of_ne hne] at hs
      exact hne hs
  · exact hback hcalm hs

/-- A service that gets from `STARTING` to `RUNNING` in a call is ready when it is polled. -/
theorem SupCall.running_of_starting (hi : i < sup.table.count)
    (hs : (sup.table.svc i).state = .starting)
    (hrun : ((c.perform sup).1.table.svc i).state = .running) :
    ∃ env ∈ c.env,
      (checkReadiness env (sup.signalReady i) i (sup.table.svc i)).state = .running := by
  rcases c.perform_split sup with ⟨env, sup', henv, hcalm, hflags, hpump⟩ | ⟨-, hcalm⟩
  · refine ⟨env, henv, ?_⟩
    rw [hpump] at hrun
    rcases hcalm.entry i with hsame | hidle
    · have hne : (sup'.table.svc i).state ≠ .pending := by simp [hsame, hs]
      rw [supervisorPump_of_ne_pending hne, pollReadiness] at hrun
      dsimp only at hrun
      rwa [if_pos (hcalm.static.count ▸ hi), hsame, hflags] at hrun
    · -- what the call has set is not `STARTING`, and a pump makes nothing else `RUNNING`
      have hadv : Advance (sup'.table.svc i) ((supervisorPump env sup').1.table.svc i) :=
        supervisorPump_advance i
      generalize (supervisorPump env sup').1.table.svc i = s' at hadv hrun
      cases hadv with
      | same => simp [Service.active, hrun] at hidle
      | ready hst => simp [Service.active, hst] at hidle
      | timeout | failed | spawned => cases hrun
  · rcases hcalm.entry i with hsame | hidle
    · rw [hsame, hs] at hrun
      cases hrun
    · simp [Service.active, hrun] at hidle

/-- A reload leaves an entry alone or makes it `PENDING`. -/
theorem reload_state (dir : Option (List DirEntry)) (sup : Supervisor) (i : Nat) :
    ((reload dir sup).table.svc i).state = (sup.table.svc i).state ∨
      ((reload dir sup).table.svc i).state = .pending := by
  rcases dir with - | es
  · exact .inl rfl
  · refine loadEntries_induct (P := fun t => (t.svc i).state = (sup.table.svc i).state ∨
      (t.svc i).state = .pending) (fun t d _ _ h => ?_) es (.inl rfl)
    rw [Table.push]
    by_cases hi : i = t.count
    · right
      rw [hi]
      simp [ServiceDef.fresh]
    · simpa [Function.update_of_ne hi] using h

/-- The readiness check of a service that waits for a signal. -/
theorem checkReadiness_signal {r : Bool} {s : Service} (hs : s.state = .starting)
    (hsignal : s.readyMethod = .signal) (htime : s.startTimeMs ≤ env.checkNow i)
    (hrun : (checkReadiness env r i s).state = .running) : 0 ≤ s.readyTimeoutMs ∧ r = true := by
  simp only [checkReadiness, supervisorCheckReady, hs, hsignal, if_true, reduceCtorEq] at hrun
  by_cases hlate : env.checkNow i - s.startTimeMs > s.readyTimeoutMs
  · rw [if_pos hlate] at hrun
    simp only [Bool.false_eq_true, if_false] at hrun
    split at hrun <;> simp [hs] at hrun
  · refine ⟨by omega, ?_⟩
    rw [if_neg hlate] at hrun
    cases r with
    | true => rfl
    | false =>
      simp only [Bool.false_eq_true, if_false] at hrun
      split at hrun <;> simp [hs] at hrun

/-! ## Flags that were set by the process -/

/-- The flag of a `STARTING` service was set by its process. -/
def Watched.Inv (w : Watched) : Prop :=
  ∀ i < w.sup.table.count, (w.sup.table.svc i).state = .starting →
    (w.sup.table.svc i).AwaitsSignal → w.sup.signalReady i = true → w.heard i = true

theorem Watched.Inv.zero : Watched.zero.Inv := fun i hi => absurd hi (Nat.not_lt_zero i)

variable {w : Watched}

/-- In such a state, whatever comes next makes no service `RUNNING` that was not heard from. -/
theorem Watched.Inv.announced (h : w.Inv) (htime : e.OnTime w.sup) : Announced w e := by
  intro i hi hsignal hs hrun
  cases e with
  | call c =>
    obtain ⟨env, henv, hready⟩ := SupCall.running_of_starting hi hs hrun
    obtain ⟨htimeout, hflag⟩ := checkReadiness_signal hs hsignal (htime env henv i) hready
    exact h i hi hs ⟨hsignal, htimeout⟩ hflag
  | reload dir =>
    rcases reload_state dir w.sup i with hsame | hpending
    · exact absurd (hsame.symm.trans hrun) (by simp [hs])
    · exact absurd (hpending.symm.trans hrun) (by simp)

/-- A step that spawns nothing into a set flag keeps the flags right. -/
theorem Watched.Inv.step (h : w.Inv) (he : FlagsClear w e) : (w.step e).Inv := by
  intro i hi hs hawaits hflag
  cases e with
  | call c =>
    have hstatic := c.perform_static w.sup
    have hi' : i < w.sup.table.count := hstatic.count ▸ hi
    have hdef : ((c.perform w.sup).1.table.svc i).toServiceDef =
      (w.sup.table.svc i).toServiceDef := (hstatic.entry i).1
    have hawaits' : (w.sup.table.svc i).AwaitsSignal :=
      ⟨hdef ▸ hawaits.1, hdef ▸ hawaits.2⟩
    by_cases hfork : i ∈ (forks (c.perform w.sup).2).map Prod.snd
    · obtain ⟨p, hp, rfl⟩ := List.mem_map.1 hfork
      rcases SupCall.flag_cases hflag with hset | hsignals
      · exact absurd (he p hp hawaits') (by simp [hset])
      · rw [SupCall.perform_of_signals hsignals] at hp
        cases hp
    · have hs' := SupCall.starting_of_not_forked hs hfork
      have hheard : w.heard i = true ∨ c.signals w.sup i = true :=
        (SupCall.flag_cases hflag).imp_left (h i hi' hs' hawaits')
      simp only [Watched.step, hfork, decide_false, Bool.not_false, Bool.true_and, Bool.or_eq_true]
      exact hheard
  | reload dir =>
    rcases dir with - | es
    · exact h i hi hs hawaits hflag
    -- the entries of a table that has just been read are `PENDING`
    · obtain ⟨d, hd⟩ := serviceLoadAll_fresh es w.sup.table i hi
      have hpending : ((serviceLoadAll (some es) w.sup.table).svc i).state = .pending := by
        rw [hd]
        rfl
      exact absurd (hs.symm.trans hpending) (by simp)

/-! ## Spawning into a set flag -/

/-- A system in which the readiness of every service is checked when it starts, and nothing can be
spawned. -/
def readyEnv (sup : Supervisor) : PumpEnv where
  now := 0
  checkNow i := (sup.table.svc i).startTimeMs
  probe _ := false
  spawn _ := .binaryMissing

theorem running_of_flag (hi : i < sup.table.count) (hs : (sup.table.svc i).state = .starting)
    (hawaits : (sup.table.svc i).AwaitsSignal) (hflag : sup.signalReady i = true) :
    ((supervisorPump (readyEnv sup) sup).1.table.svc i).state = .running := by
  obtain ⟨hsignal, htimeout⟩ := hawaits
  have htime : ¬(readyEnv sup).checkNow i - (sup.table.svc i).startTimeMs >
      (sup.table.svc i).readyTimeoutMs := by
    simp only [readyEnv]
    omega
  have hready : supervisorCheckReady (sup.table.svc i) ((readyEnv sup).checkNow i)
      (sup.signalReady i) ((readyEnv sup).probe i) = true := by
    rw [supervisorCheckReady, if_neg htime, hsignal]
    exact hflag
  rw [supervisorPump_of_ne_pending (by simp [hs])]
  simp [pollReadiness, hi, checkReadiness, hs, hsignal, hready]

/-- After a step that spawns into a set flag, a pump may make the service `RUNNING` at once. -/
theorem flagsClear_of_announced (h : ∀ e', e'.OnTime (w.step e).sup → Announced (w.step e) e') :
    FlagsClear w e := by
  intro p hp hawaits
  by_contra hset
  rw [Bool.not_eq_false] at hset
  cases e with
  | call c =>
    obtain ⟨hlt, hs⟩ := SupCall.starting_of_forked hp
    have hstatic := c.perform_static w.sup
    have hdef : ((c.perform w.sup).1.table.svc p.2).toServiceDef =
      (w.sup.table.svc p.2).toServiceDef := (hstatic.entry p.2).1
    have hlt' : p.2 < (c.perform w.sup).1.table.count := hstatic.count.symm ▸ hlt
    have hawaits' : ((c.perform w.sup).1.table.svc p.2).AwaitsSignal :=
      ⟨hdef.symm ▸ hawaits.1, hdef.symm ▸ hawaits.2⟩
    have hrun := running_of_flag hlt' hs hawaits' (SupCall.flag_mono hset c)
    have htime : (SupEvent.call (.pump (readyEnv (c.perform w.sup).1))).OnTime
        (c.perform w.sup).1 := by
      intro env henv i
      obtain rfl := Option.some.inj henv
      exact le_rfl
    have hheard := h _ htime p.2 hlt' hawaits'.1 hs hrun
    have hnew : p.2 ∈ (forks (c.perform w.sup).2).map Prod.snd := List.mem_map_of_mem hp
    simp only [Watched.step, hnew] at hheard
    cases hheard
  | reload dir => cases hp

/-- **When readiness is announced.**  At every point of a run, whatever comes next makes a service
with the ready method `signal` `RUNNING` only if its process has sent SIGUSR1 since it was spawned,
exactly if every process of such a service was spawned while the flag of its slot was clear. -/
theorem signal_ready_iff (es : List SupEvent) :
    (∀ pre, pre <+: es → ∀ e : SupEvent,
      e.OnTime (Run.run Watched.step Watched.zero pre).sup →
        Announced (Run.run Watched.step Watched.zero pre) e) ↔
      Run.Along Watched.step FlagsClear Watched.zero es := by
  constructor
  · intro h
    refine Run.along_iff_forall.2 fun pre e post hsplit => ?_
    refine flagsClear_of_announced fun e' htime => ?_
    have hrun : Run.run .step .zero (pre ++ [e]) =
        (Run.run .step Watched.zero pre).step e := Run.run_append ..
    rw [← hrun] at htime ⊢
    exact h (pre ++ [e]) ⟨post, by simp [hsplit]⟩ e' htime
  · rintro h pre ⟨post, rfl⟩ e htime
    have hinv : (Run.run Watched.step Watched.zero pre).Inv :=
      Run.inv_run (fun _ _ h he => h.step he) .zero (Run.along_append.1 h).1
    exact hinv.announced htime

def sampleSignal : List DirEntry :=
  [⟨"pipewire.toml", some
    { name := "pipewire", binary := "/usr/bin/pipewire", readyMethod := .signal }⟩]

/-- It is spawned as pid 41, sends its signal and dies.  It is spawned again as pid 42, which has
not sent a signal when the next pump makes it `RUNNING`. -/
theorem signal_ready_stale :
    let w := Run.run Watched.step Watched.zero
      [.reload (some sampleSignal), .call (.startAll (forkingEnv 100 41)),
        .call (.signalReady 41), .call (.exit ⟨41, 1, false, 200⟩),
        .call (.pump (forkingEnv 1300 42))]
    let w' := w.step (.call (.pump (forkingEnv 1400 0)))
    (w.sup.table.svc 0).readyMethod = .signal ∧ (w.sup.table.svc 0).pid = 42 ∧
      (w.sup.table.svc 0).state = .starting ∧ w.heard 0 = false ∧
      (w'.sup.table.svc 0).pid = 42 ∧ (w'.sup.table.svc 0).state = .running := by
  decide +kernel

end LunaInit
