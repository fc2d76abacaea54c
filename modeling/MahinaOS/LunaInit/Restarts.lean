import MahinaOS.LunaInit.Processes
import MahinaOS.LunaInit.SpawnOrder

/-!
# luna-init: how often a service is spawned

A run is any sequence of calls into the supervisor: pumps, starts and stops, reaped children and
readiness signals, in any order and with any answer of the system.  `BootRun.call` keeps the calls
of `spawn_service` in the log.

`SupCall.perform_cases` says once what a call that does not start a service can do to its entry:
pump it (`Pumped`), stop it, or handle the exit of its process.  Two facts about whole runs follow.

* **`spawns_bounded`**: without another start, a service is spawned at most once more than it has
  restart attempts.  The invariant is `Budget`: every spawn after the first is paid for by a counted
  restart.
* **`degraded_stays_down`**: a `DEGRADED` service does not run again as long as no exit `Revives`
  it.  Such an exit is that of the process a service keeps when it misses its readiness timeout: it
  goes through the restart policy like any other (`degraded_respawned`).
-/

namespace LunaInit

open Run List

/-- A call into the supervisor, with what the system answers; a reload is not among them. -/
inductive SupCall
  | startAll (env : PumpEnv)
  | startOne (name : String) (env : PumpEnv)
  | pump (env : PumpEnv)
  | stopOne (name : String)
  | exit (e : ChildExit)
  | signalReady (pid : Nat)

/-- The supervisor after a call, and its calls of `spawn_service`. -/
def SupCall.perform (sup : Supervisor) : SupCall → Supervisor × List Attempt
  | .startAll env => supervisorStartAll env sup
  | .startOne name env => (supervisorStartOne env name sup).1
  | .pump env => supervisorPump env sup
  | .stopOne name => (supervisorStopOne name sup, [])
  | .exit e => (reaperOnExit e sup, [])
  | .signalReady pid => (supervisorSignalReady pid sup, [])

def BootRun.call (s : BootRun) (c : SupCall) : BootRun :=
  ⟨(c.perform s.sup).1, s.log ++ (c.perform s.sup).2⟩

/-- The call starts services: all of them or one by name. -/
def SupCall.isStart : SupCall → Bool
  | .startAll _ | .startOne _ _ => true
  | .pump _ | .stopOne _ | .exit _ | .signalReady _ => false

/-- The call starts service `i`. -/
def SupCall.Starts (sup : Supervisor) (i : Nat) : SupCall → Prop
  | .startAll _ => True
  | .startOne name _ => serviceFind sup.table name = some i
  | .pump _ | .stopOne _ | .exit _ | .signalReady _ => False

instance (sup : Supervisor) (i : Nat) (c : SupCall) : Decidable (c.Starts sup i) := by
  unfold SupCall.Starts
  split <;> infer_instance

variable {c : SupCall} {sup : Supervisor} {i : Nat} {st : BootRun} {cs : List SupCall}
  {dir : List DirEntry}

theorem SupCall.not_starts (h : c.isStart = false) (sup : Supervisor) (i : Nat) :
    ¬ c.Starts sup i := by
  cases c with
  | startAll | startOne => cases h
  | pump | stopOne | exit | signalReady => exact id

/-! ## What a call does to one entry -/

/-- **What a call that does not start service `i` can do to it**: pump it, stop its process, or
handle the exit of its process. -/
theorem SupCall.perform_cases (hc : ¬ c.Starts sup i) : let s := sup.table.svc i
    let s' := (c.perform sup).1.table.svc i
    let n := (attempted (c.perform sup).2).count i
    Pumped s s' n ∨
      n = 0 ∧ (s.pid ≠ 0 ∧ s' = { s with state := .stopped, pid := 0 } ∨
        ∃ e, c = .exit e ∧ serviceFindByPid sup.table e.pid = some i ∧ s' = s.exited e) := by
  cases c with
  | startAll env => exact absurd trivial hc
  | startOne name env =>
    left
    simp only [perform, supervisorStartOne]
    rcases hf : serviceFind sup.table name with - | j
    · exact .refl _
    · have hij : i ≠ j := by
        rintro rfl
        exact hc hf
      dsimp only
      split_ifs
      · exact .refl _
      · have hpump := supervisorPump_pumped env
          { sup with table := sup.table.set j { sup.table.svc j with
            state := .pending, restartCount := 0, scheduledStartMs := 0 } } i
        rwa [Table.set_svc_of_ne hij] at hpump
  | pump env => exact .inl (supervisorPump_pumped env sup i)
  | stopOne name =>
    simp only [perform, supervisorStopOne]
    rcases hf : serviceFind sup.table name with - | j
    · exact .inl (.refl _)
    · dsimp only
      split_ifs with hpid
      · exact .inl (.refl _)
      · rcases eq_or_ne i j with rfl | hij
        · exact .inr ⟨rfl, .inl ⟨hpid, Table.set_svc_self⟩⟩
        · rw [Table.set_svc_of_ne hij]
          exact .inl (.refl _)
  | exit e =>
    simp only [perform, reaperOnExit]
    rcases hf : serviceFindByPid sup.table e.pid with - | j
    · exact .inl (.refl _)
    · rcases eq_or_ne i j with rfl | hij
      · exact .inr ⟨rfl, .inr ⟨e, rfl, hf, Table.set_svc_self⟩⟩
      · rw [Table.set_svc_of_ne hij]
        exact .inl (.refl _)
  | signalReady pid =>
    simp only [perform, supervisorSignalReady_table]
    exact .inl (.refl _)

/-- An exit by what it does: the service stays down, runs out of attempts, or is to be restarted. -/
theorem Service.exited_eq (s : Service) (e : ChildExit) : s.exited e =
    if s.state = .stopping ∨ s.state = .stopped ∨ s.shouldRestart e = false then
      { s with pid := 0, stopTimeMs := e.now, state := .stopped }
    else if s.restartAttempts < (s.restartCount : Int) + 1 then
      { s with
        pid := 0, stopTimeMs := e.now, restartCount := s.restartCount + 1, state := .degraded }
    else
      { s with
        pid := 0, stopTimeMs := e.now, restartCount := s.restartCount + 1, state := .pending,
        scheduledStartMs := e.now + s.restartDelayMs } := by
  have hpolicy : ({ s with pid := 0, stopTimeMs := e.now } : Service).shouldRestart e =
      s.shouldRestart e := rfl
  rw [Service.exited]
  rw [hpolicy]
  by_cases hstopping : s.state = .stopping
  · simp [hstopping]
  · by_cases hstopped : s.state = .stopped
    · simp [hstopped]
    · rcases s.shouldRestart e with - | -
      · simp [hstopping, hstopped]
      · simp [hstopping, hstopped]

/-! ## The restart budget -/

/-- `INT_MAX`. -/
def intMax : Int := 2147483647

/-- The restart attempts a service has: none if the declared number is negative. -/
def Service.allowance (s : Service) : Int := max 0 s.restartAttempts

/-- The exit is counted as a restart and there are no attempts left for it. -/
def Service.Exhausts (s : Service) (e : ChildExit) : Prop :=
  s.state ≠ .stopping ∧ s.state ≠ .stopped ∧ s.shouldRestart e = true ∧
    s.restartAttempts < (s.restartCount : Int) + 1

instance (s : Service) (e : ChildExit) : Decidable (s.Exhausts e) :=
  inferInstanceAs (Decidable (_ ∧ _ ∧ _ ∧ _))

/-- The attempts are used up: the service is `DEGRADED` without a process. -/
structure Service.Spent (s : Service) : Prop where
  state : s.state = .degraded
  pid : s.pid = 0

/-- After `n` spawns the service is waiting for the next one, which is paid for; it has been
spawned and may still have attempts; or it has none left. -/
inductive Budget (s : Service) (n : Nat) : Prop
  | waiting (hstate : s.state = .pending) (hpid : s.pid = 0) (hn : n ≤ s.restartCount)
      (hcount : (s.restartCount : Int) ≤ s.allowance)
  | used (hstate : s.state ≠ .pending) (hn : n ≤ s.restartCount + 1)
      (hcount : (s.restartCount : Int) ≤ s.allowance)
  | spent (h : s.Spent) (hn : n ≤ s.restartCount)
      (hcount : (s.restartCount : Int) ≤ s.allowance + 1)

section

variable {s s' : Service} {n k : Nat}

/-- A service with a process has been spawned and is not spent. -/
theorem Budget.bounds (h : Budget s n) :
    (n : Int) ≤ 1 + s.allowance ∧ (s.restartCount : Int) ≤ s.allowance + 1 := by
  cases h with
  | waiting _ _ hn hcount | used _ hn hcount | spent _ hn hcount => omega

theorem Budget.of_pid (h : Budget s n) (hpid : s.pid ≠ 0) :
    n ≤ s.restartCount + 1 ∧ (s.restartCount : Int) ≤ s.allowance := by
  cases h with
  | waiting _ h0 => exact absurd h0 hpid
  | used _ hn hcount => exact ⟨hn, hcount⟩
  | spent h => exact absurd h.pid hpid

theorem Budget.pump (h : Budget s n) (hp : Pumped s s' k) : Budget s' (n + k) := by
  obtain ⟨hadv, hk, hidle, hstill⟩ := hp
  cases hadv with
  | same =>
    have hk0 : k = 0 := by
      by_cases hs : s.state = .pending
      · exact hstill hs
      · exact hidle hs
    rw [hk0]
    exact h
  | ready hs | timeout hs =>
    rw [hidle (by simp [hs])]
    cases h with
    | waiting hstate => simp [hs] at hstate
    | used _ hn hcount => exact .used (by simp) hn hcount
    | spent hspent => exact absurd (hspent.state.symm.trans hs) (by simp)
  | failed hs | spawned hs =>
    cases h with
    | waiting _ _ hn hcount => exact .used (by simp) (Nat.add_le_add hn hk) hcount
    | used hstate => exact absurd hs hstate
    | spent hspent => exact absurd (hspent.state.symm.trans hs) (by simp)

theorem Budget.stop (h : Budget s n) (hpid : s.pid ≠ 0) :
    Budget { s with state := .stopped, pid := 0 } n := by
  obtain ⟨hn, hcount⟩ := h.of_pid hpid
  exact .used (by simp) hn hcount

/-- An exit ends one spawn, and the restart it is counted as pays for the next. -/
theorem Budget.exit (h : Budget s n) (hpid : s.pid ≠ 0) (e : ChildExit) :
    Budget (s.exited e) n := by
  obtain ⟨hn, hcount⟩ := h.of_pid hpid
  rw [Service.exited_eq]
  split_ifs with hdown hover
  · exact .used (by simp) hn hcount
  · refine .spent ⟨rfl, rfl⟩ hn ?_
    simp only [Service.allowance] at hcount ⊢
    omega
  · refine .waiting rfl rfl hn ?_
    simp only [Service.allowance]
    omega

end

/-- **One call keeps the budget**, counting the spawns it makes. -/
theorem Budget.call (h : Budget (st.sup.table.svc i) ((attempted st.log).count i))
    (hc : ¬ c.Starts st.sup i) :
    Budget ((st.call c).sup.table.svc i) ((attempted (st.call c).log).count i) := by
  simp only [BootRun.call, attempted_append, count_append]
  rcases SupCall.perform_cases hc with hp | ⟨hn, ⟨hpid, hs⟩ | ⟨e, -, hf, hs⟩⟩
  · exact h.pump hp
  · rw [hn, hs]
    exact h.stop hpid
  · obtain ⟨hne, -, hpid⟩ := serviceFindByPid_eq_some hf
    rw [hn, hs]
    exact h.exit (hpid ▸ hne) e

/-! ### Once the attempts are used up -/

/-- A service without a process that does not wait is at most advanced, and is not spawned. -/
theorem call_no_process (hpid : (st.sup.table.svc i).pid = 0)
    (hstate : (st.sup.table.svc i).state ≠ .pending) (hc : ¬ c.Starts st.sup i) :
    Advance (st.sup.table.svc i) ((st.call c).sup.table.svc i) ∧
      (attempted (st.call c).log).count i = (attempted st.log).count i := by
  simp only [BootRun.call, attempted_append, count_append, Nat.add_eq_left]
  rcases SupCall.perform_cases hc with hp | ⟨-, ⟨hrun, -⟩ | ⟨e, -, hf, -⟩⟩
  · exact ⟨hp.advance, hp.idle hstate⟩
  · exact absurd hpid hrun
  · obtain ⟨hne, -, hpid'⟩ := serviceFindByPid_eq_some hf
    exact absurd (hpid'.symm.trans hpid) hne

theorem Service.Spent.call (h : (st.sup.table.svc i).Spent) (hc : ¬ c.Starts st.sup i) :
    ((st.call c).sup.table.svc i).Spent ∧
      (attempted (st.call c).log).count i = (attempted st.log).count i := by
  obtain ⟨hadv, hcount⟩ := call_no_process h.pid (by simp [h.state]) hc
  refine ⟨?_, hcount⟩
  generalize (st.call c).sup.table.svc i = s' at hadv ⊢
  cases hadv with
  | same => exact h
  | ready hs | timeout hs | failed hs | spawned hs =>
    exact absurd (h.state.symm.trans hs) (by simp)

/-! ### Whole runs -/

theorem along_not_starts (hcs : ∀ c ∈ cs, c.isStart = false) (st : BootRun) (i : Nat) :
    Run.Along BootRun.call (fun st c => ¬ c.Starts st.sup i) st cs := by
  induction cs generalizing st with
  | nil => trivial
  | cons c cs ih =>
    rw [forall_mem_cons] at hcs
    exact ⟨SupCall.not_starts hcs.1 st.sup i, ih hcs.2 (st.call c)⟩

/-- What every call keeps of a service while it does not spawn it, a run keeps. -/
theorem not_spawned_run {P : Service → Prop} {H : BootRun → SupCall → Prop}
    (hstep : ∀ {st c}, P (st.sup.table.svc i) → H st c → P ((st.call c).sup.table.svc i) ∧
      (attempted (st.call c).log).count i = (attempted st.log).count i)
    (h : P (st.sup.table.svc i)) (hcs : Run.Along BootRun.call H st cs) :
    P ((run BootRun.call st cs).sup.table.svc i) ∧
      (attempted (run BootRun.call st cs).log).count i = (attempted st.log).count i := by
  refine inv_run (I := fun st' => P (st'.sup.table.svc i) ∧
    (attempted st'.log).count i = (attempted st.log).count i) ?_ ⟨h, rfl⟩ hcs
  rintro st' c ⟨hP, hcount⟩ hc
  obtain ⟨hP', hcount'⟩ := hstep hP hc
  exact ⟨hP', hcount'.trans hcount⟩

theorem BootRun.call_declaration (hc : ¬ c.Starts st.sup i) :
    ((st.call c).sup.table.svc i).toServiceDef = (st.sup.table.svc i).toServiceDef := by
  simp only [BootRun.call]
  rcases SupCall.perform_cases hc with hp | ⟨-, ⟨-, hs⟩ | ⟨e, -, -, hs⟩⟩
  · exact hp.advance.static.1
  · rw [hs]
  · rw [hs]
    exact (Service.exited_static _ e).1

theorem Budget.run (h : Budget (st.sup.table.svc i) ((attempted st.log).count i))
    (hcs : Run.Along BootRun.call (fun st c => ¬ c.Starts st.sup i) st cs) :
    Budget ((run BootRun.call st cs).sup.table.svc i)
        ((attempted (run BootRun.call st cs).log).count i) ∧
      ((run BootRun.call st cs).sup.table.svc i).toServiceDef =
        (st.sup.table.svc i).toServiceDef := by
  refine inv_run (I := fun st' =>
    Budget (st'.sup.table.svc i) ((attempted st'.log).count i) ∧
      (st'.sup.table.svc i).toServiceDef = (st.sup.table.svc i).toServiceDef) ?_ ⟨h, rfl⟩ hcs
  rintro st' c ⟨hbudget, hdecl⟩ hc
  exact ⟨hbudget.call hc, (BootRun.call_declaration hc).trans hdecl⟩

/-- The state after `supervisor_start_all` on a directory that has just been loaded. -/
def BootRun.fresh (dir : List DirEntry) (sup : Supervisor) (env : PumpEnv) : BootRun :=
  BootRun.call ⟨(loadServices (some dir) sup).1, []⟩ (.startAll env)

/-- The first pump spawns every service at most once. -/
theorem Budget.fresh (hi : i < (loadServices (some dir) sup).1.table.count) (env : PumpEnv) :
    Budget ((BootRun.fresh dir sup env).sup.table.svc i)
      ((attempted (BootRun.fresh dir sup env).log).count i) := by
  obtain ⟨hstate, hpid, hcount⟩ := loadServices_untouched hi
  have hmarked : Budget ((marked (loadServices (some dir) sup).1).table.svc i) 0 := by
    have hle : (((loadServices (some dir) sup).1.table.svc i).restartCount : Int) ≤
        ((loadServices (some dir) sup).1.table.svc i).allowance := by
      rw [hcount, Service.allowance]
      exact le_max_left _ _
    simp only [marked, if_pos hi, Service.startAll]
    split_ifs with hcomp hdeg
    · exact .used (by simp) (Nat.zero_le _) hle
    · exact .waiting rfl hpid (Nat.zero_le _) hle
    · exact .waiting hstate hpid (Nat.zero_le _) hle
  have hpump := hmarked.pump (supervisorPump_pumped env _ i)
  rwa [Nat.zero_add] at hpump

/-- **A service is spawned at most once more than it has restart attempts.**  After
`supervisor_start_all` on a loaded table, and in any run of pumps, stops, exits and readiness
signals, every service is spawned at most `1 + max 0 restart_attempts` times and its restart counter
does not overflow.  An exit that uses the last attempt up leaves it `DEGRADED` without a process,
and from then on it is not spawned again. -/
theorem spawns_bounded (dir : List DirEntry) (sup : Supervisor) (env : PumpEnv)
    (cs : List SupCall) (hcs : ∀ c ∈ cs, c.isStart = false) {i : Nat}
    (hi : i < (loadServices (some dir) sup).1.table.count)
    (hmax : ((loadServices (some dir) sup).1.table.svc i).restartAttempts < intMax) :
    let st := Run.run BootRun.call (BootRun.fresh dir sup env) cs
    let allowed := max 0 ((loadServices (some dir) sup).1.table.svc i).restartAttempts
    ((attempted st.log).count i : Int) ≤ 1 + allowed ∧
    ((st.sup.table.svc i).restartCount : Int) ≤ intMax ∧
    ∀ pre e post, cs = pre ++ .exit e :: post →
      let before := Run.run BootRun.call (BootRun.fresh dir sup env) pre
      serviceFindByPid before.sup.table e.pid = some i → (before.sup.table.svc i).Exhausts e →
      (st.sup.table.svc i).state = .degraded ∧ (st.sup.table.svc i).pid = 0 ∧
        (attempted st.log).count i = (attempted before.log).count i := by
  obtain ⟨hbudget, hsame⟩ := (Budget.fresh hi env).run (along_not_starts hcs _ i)
  have hallow : ((run .call (BootRun.fresh dir sup env) cs).sup.table.svc i).allowance =
      max 0 ((loadServices (some dir) sup).1.table.svc i).restartAttempts := by
    rw [Service.allowance, hsame]
    exact congrArg (fun s : ServiceDef => max 0 s.restartAttempts)
      (((supervisorPump_advance i).static.1).trans (marked_static.entry i).1)
  refine ⟨hallow ▸ hbudget.bounds.1, ?_, ?_⟩
  · have hle := hbudget.bounds.2
    simp only [intMax] at hmax ⊢
    omega
  · rintro pre e post rfl before hfind hex
    rw [forall_mem_append, forall_mem_cons] at hcs
    have hspent : ((before.call (.exit e)).sup.table.svc i).Spent := by
      simp only [BootRun.call, SupCall.perform, reaperOnExit, hfind, Table.set_svc_self]
      obtain ⟨hstopping, hstopped, hrestart, hover⟩ := hex
      rw [Service.exited_eq, if_neg (by simp [hstopping, hstopped, hrestart]), if_pos hover]
      exact ⟨rfl, rfl⟩
    obtain ⟨hend, hcount⟩ :=
      not_spawned_run Service.Spent.call hspent (along_not_starts hcs.2.2 _ i)
    rw [run_append]
    refine ⟨hend.state, hend.pid, hcount.trans ?_⟩
    simp [BootRun.call, SupCall.perform]

def sampleFlaky : List DirEntry :=
  [⟨"cupsd.toml", some { name := "cupsd", binary := "/usr/sbin/cupsd", restartAttempts := 1 }⟩]

/-- It dies twice: the second exit uses its attempt up, and the last pump does not spawn it. -/
theorem spawns_bounded_flaky :
    let st := Run.run BootRun.call (BootRun.fresh sampleFlaky Supervisor.zero (forkingEnv 100 41))
      [.exit ⟨41, 1, false, 200⟩, .pump (forkingEnv 2000 42), .exit ⟨42, 1, false, 2100⟩,
        .pump (forkingEnv 9000 43)]
    attempted st.log = [0, 0] ∧ ((attempted st.log).count 0 : Int) ≤ 1 + max 0 1 ∧
      (st.sup.table.svc 0).state = .degraded ∧ (st.sup.table.svc 0).pid = 0 := by
  obtain ⟨hle, -, hend⟩ := spawns_bounded sampleFlaky .zero (forkingEnv 100 41)
    [.exit ⟨41, 1, false, 200⟩, .pump (forkingEnv 2000 42), .exit ⟨42, 1, false, 2100⟩,
      .pump (forkingEnv 9000 43)] (by decide) (i := 0) (by decide +kernel) (by decide +kernel)
  obtain ⟨hstate, hpid, -⟩ := hend [.exit ⟨41, 1, false, 200⟩, .pump (forkingEnv 2000 42)]
    ⟨42, 1, false, 2100⟩ [.pump (forkingEnv 9000 43)] rfl (by decide +kernel) (by decide +kernel)
  exact ⟨by decide +kernel, hle, hstate, hpid⟩

/-! ## `DEGRADED` services -/

/-- The service is not running and not waiting to be started. -/
def Service.Down (s : Service) : Prop := s.state = .degraded ∨ s.state = .stopped

/-- The exit of a process that a `DEGRADED` service still has is counted as a restart, and there are
attempts left for it. -/
def SupCall.Revives (sup : Supervisor) (i : Nat) : SupCall → Prop
  | .exit e => serviceFindByPid sup.table e.pid = some i ∧ (sup.table.svc i).state = .degraded ∧
      (sup.table.svc i).shouldRestart e = true ∧
      ((sup.table.svc i).restartCount : Int) + 1 ≤ (sup.table.svc i).restartAttempts
  | .startAll _ | .startOne _ _ | .pump _ | .stopOne _ | .signalReady _ => False

instance (sup : Supervisor) (i : Nat) (c : SupCall) : Decidable (c.Revives sup i) := by
  unfold SupCall.Revives
  split <;> infer_instance

section

variable {st : BootRun} {i : Nat} {c : SupCall}

theorem Service.Down.not_pending {s : Service} (h : s.Down) : s.state ≠ .pending := by
  rcases h with h | h <;> simp [h]

/-- An exit that revives a service schedules it. -/
theorem SupCall.Revives.pending (h : c.Revives st.sup i) :
    ((st.call c).sup.table.svc i).state = .pending := by
  cases c with
  | exit e =>
    obtain ⟨hfind, hdeg, hrestart, hleft⟩ := h
    simp only [BootRun.call, SupCall.perform, reaperOnExit, hfind, Table.set_svc_self]
    rw [Service.exited_eq, if_neg (by simp [hdeg, hrestart]), if_neg (by omega)]
  | startAll | startOne | pump | stopOne | signalReady => exact h.elim

/-- Any other call leaves a service down, and does not spawn it. -/
theorem Service.Down.call (h : (st.sup.table.svc i).Down) (hc : ¬ c.Starts st.sup i)
    (hr : ¬ c.Revives st.sup i) :
    ((st.call c).sup.table.svc i).Down ∧
      (attempted (st.call c).log).count i = (attempted st.log).count i := by
  simp only [BootRun.call, attempted_append, count_append, Nat.add_eq_left]
  rcases SupCall.perform_cases hc with hp | ⟨hn, ⟨-, hs⟩ | ⟨e, rfl, hf, hs⟩⟩
  · refine ⟨?_, hp.idle h.not_pending⟩
    have hadv := hp.advance
    generalize (c.perform st.sup).1.table.svc i = s' at hadv ⊢
    cases hadv with
    | same => exact h
    | ready hs | timeout hs | failed hs | spawned hs => rcases h with h | h <;> simp [hs] at h
  · rw [hs]
    exact ⟨.inr rfl, hn⟩
  · refine ⟨?_, hn⟩
    rw [hs, Service.exited_eq]
    split_ifs with hdown hover
    · exact .inr rfl
    · exact .inl rfl
    · -- the policy asks for a restart and there are attempts left
      simp only [not_or, Bool.not_eq_false] at hdown
      rcases h with hdeg | hstopped
      · exact absurd ⟨hf, hdeg, hdown.2.2, by omega⟩ hr
      · exact absurd hstopped hdown.2.1

end

/-- **A `DEGRADED` service stays down until it is started**, in every run in which no exit revives
it: it is not spawned.  The condition is exact for the service not being scheduled again: an exit
that revives it makes it `PENDING`, and the next pump that finds its dependencies up after the
restart delay spawns it. -/
theorem degraded_stays_down {st : BootRun} {i : Nat}
    (hdeg : (st.sup.table.svc i).state = .degraded) {cs : List SupCall}
    (hcs : Run.Along BootRun.call (fun st c => ¬ c.Starts st.sup i) st cs) :
    (Run.Along BootRun.call (fun st c => ((st.call c).sup.table.svc i).state ≠ .pending) st cs ↔
      Run.Along BootRun.call (fun st c => ¬ c.Revives st.sup i) st cs) ∧
    (Run.Along BootRun.call (fun st c => ¬ c.Revives st.sup i) st cs →
      (attempted (Run.run BootRun.call st cs).log).count i = (attempted st.log).count i) := by
  refine ⟨?_, fun hr => ?_⟩
  · refine along_iff (I := fun st => (st.sup.table.svc i).Down)
      (H := fun st c => ¬ c.Starts st.sup i) (fun st c h hc hr => (h.call hc hr).1) ?_
      (.inl hdeg) hcs
    intro st c h hc
    refine ⟨fun hp hr => hp hr.pending, fun hr => (h.call hc hr).1.not_pending⟩
  · exact (not_spawned_run (P := Service.Down) (fun h hc => h.call hc.1 hc.2) (.inl hdeg)
      (hcs.and hr)).2

/-- The state in which a service has missed its readiness timeout. -/
def sampleTimedOut : BootRun :=
  Run.run BootRun.call ⟨sampleSlow, []⟩ [.startAll (forkingEnv 100 41), .pump (forkingEnv 6000 0)]

/-- Its process is stopped by hand, and no pump brings the service back. -/
theorem degraded_stays_down_stopped :
    (sampleTimedOut.sup.table.svc 0).state = .degraded ∧
    (attempted (Run.run BootRun.call sampleTimedOut
      [.stopOne "ollama", .exit ⟨41, 1, false, 6100⟩, .pump (forkingEnv 8000 42)]).log).count 0 =
        (attempted sampleTimedOut.log).count 0 :=
  have hdeg : (sampleTimedOut.sup.table.svc 0).state = .degraded := by decide +kernel
  ⟨hdeg, (degraded_stays_down hdeg (by decide +kernel)).2 (by decide +kernel)⟩

/-- Its process dies, and the next pump spawns the `DEGRADED` service again. -/
theorem degraded_respawned :
    let calls := [SupCall.exit ⟨41, 1, false, 6100⟩, .pump (forkingEnv 8000 42)]
    (sampleTimedOut.sup.table.svc 0).state = .degraded ∧ attempted sampleTimedOut.log = [0] ∧
    (∀ c ∈ calls, c.isStart = false) ∧
    attempted (Run.run BootRun.call sampleTimedOut calls).log = [0, 0] := by
  decide +kernel

end LunaInit
