import MahinaOS.LunaInit.Supervisor

/-!
# luna-init: reloading the service directory

On SIGHUP, and whenever inotify reports a change in the service directory, the main loop calls
`service_load_all` and then `depgraph_build` while services are running.  The comment in the main
loop says that running pids are preserved.  `Keeps` is that promise: every service whose file is
still there has its pid, its state and its restart count after the reload.

* **`reload_keeps_iff`**: when the promise is kept.  Then later pumps spawn no service that was not
  `PENDING`.
* `reload_respawns`: a service that is running is forgotten by the reload, and the next pump starts
  a second process for it.
-/

namespace LunaInit

/-- SIGHUP or inotify: the result of the build is ignored. -/
def reload (dir : Option (List DirEntry)) (sup : Supervisor) : Supervisor :=
  (loadServices dir sup).1

/-- The directory has a service file that parses and declares the name.  Nothing is known of a
directory that cannot be opened. -/
def FilePresent (dir : Option (List DirEntry)) (name : String) : Prop :=
  match dir with
  | none => True
  | some es => ∃ e ∈ es, e.isToml = true ∧ ∃ d, e.parsed = some d ∧ d.name = name

/-- The runtime state that a reload should keep. -/
def Service.SameProcess (s s' : Service) : Prop :=
  s'.pid = s.pid ∧ s'.state = s.state ∧ s'.restartCount = s.restartCount

/-- Every service whose file is still there keeps its runtime state in the reload. -/
def Keeps (dir : Option (List DirEntry)) (sup : Supervisor) : Prop :=
  ∀ i < sup.table.count, FilePresent dir (sup.table.svc i).name →
    ∃ j, serviceFind (reload dir sup).table (sup.table.svc i).name = some j ∧
      (sup.table.svc i).SameProcess ((reload dir sup).table.svc j)

variable {dir : Option (List DirEntry)} {sup : Supervisor}

/-- The build only writes the resolved dependencies. -/
theorem reload_serviceFind (name : String) :
    serviceFind (reload dir sup).table name = serviceFind (serviceLoadAll dir sup.table) name :=
  serviceFind_congr rfl (fun _ => rfl) name

/-- Every entry that a reload finds in the directory is a new one. -/
theorem reload_untouched {es : List DirEntry} {name : String} {j : Nat}
    (h : serviceFind (reload (some es) sup).table name = some j) :
    ((reload (some es) sup).table.svc j).Untouched := by
  obtain ⟨d, hd⟩ := serviceLoadAll_fresh es sup.table j (serviceFind_eq_some h).1
  have hnew : ((serviceLoadAll (some es) sup.table).svc j).Untouched := by
    rw [hd]
    exact ServiceDef.fresh_untouched
  exact hnew

/-- **When a reload keeps the running services.**  A table is reloaded without loss exactly if the
directory could not be opened or each service that is still there was untouched and has its file
before the array is full.  If nothing is lost, no later sequence of pumps spawns a service that was
not `PENDING`. -/
theorem reload_keeps_iff {sup : Supervisor} (hd : sup.table.Distinct)
    (dir : Option (List DirEntry)) :
    (Keeps dir sup ↔ ∀ es, dir = some es →
      ∀ i < sup.table.count, FilePresent dir (sup.table.svc i).name →
        (sup.table.svc i).Untouched ∧ HasPlace ∅ es (sup.table.svc i).name) ∧
    (Keeps dir sup → ∀ i < sup.table.count, FilePresent dir (sup.table.svc i).name →
      (sup.table.svc i).state ≠ .pending → ∀ envs, ∀ a ∈ pumps envs (reload dir sup),
        some a.service ≠ serviceFind (reload dir sup).table (sup.table.svc i).name) := by
  constructor
  · rcases dir with - | es
    · exact ⟨fun _ => nofun, fun _ i hi _ => ⟨i, hd.serviceFind_name hi, rfl, rfl, rfl⟩⟩
    · simp only [Option.some.injEq, forall_eq']
      refine forall₃_congr fun i hi hf => ?_
      rw [← serviceFind_serviceLoadAll (t := sup.table), Option.isSome_iff_exists]
      constructor
      · rintro ⟨j, hj, hpid, hstate, hrestart⟩
        obtain ⟨hnstate, hnpid, hnrestart⟩ :=
          reload_untouched ((reload_serviceFind _).trans hj)
        exact ⟨⟨hstate ▸ hnstate, hpid ▸ hnpid, hrestart ▸ hnrestart⟩, j, hj⟩
      · rintro ⟨⟨hstate, hpid, hrestart⟩, j, hj⟩
        obtain ⟨hnstate, hnpid, hnrestart⟩ :=
          reload_untouched ((reload_serviceFind _).trans hj)
        exact ⟨j, hj, hnpid.trans hpid.symm, hnstate.trans hstate.symm,
          hnrestart.trans hrestart.symm⟩
  · intro hkeep i hi hf hstate envs a ha
    obtain ⟨j, hj, -, hsame, -⟩ := hkeep i hi hf
    rw [hj, ne_eq, Option.some.injEq]
    exact pumps_not_pending (hsame ▸ hstate) a ha

/-! ## A running service -/

/-- A directory with one service that is ready at once. -/
def sampleDir : List DirEntry :=
  [⟨"dbus.toml", some { name := "dbus", binary := "/usr/bin/dbus-daemon" }⟩]

/-- Boot the service, and pump until it is running. -/
def sampleRunning : Supervisor :=
  (supervisorPump (forkingEnv 200 0)
    (supervisorStartAll (forkingEnv 100 41) (loadServices (some sampleDir) Supervisor.zero).1).1).1

/-- The service runs as pid 41.  The directory is reloaded unchanged; the entry is `PENDING` without
a pid, and the next pump starts a second process for it. -/
theorem reload_respawns :
    (sampleRunning.table.svc 0).state = .running ∧ (sampleRunning.table.svc 0).pid = 41 ∧
    ¬ Keeps (some sampleDir) sampleRunning ∧
    ((pumps [forkingEnv 300 42] (reload (some sampleDir) sampleRunning)).map fun a =>
      (a.service, a.outcome)) = [(0, .forked 42 300)] := by
  refine ⟨by decide +kernel, by decide +kernel, fun hkeep => ?_, by decide +kernel⟩
  obtain ⟨j, hj, hpid, -⟩ := hkeep 0 (by decide +kernel)
    ⟨_, List.mem_singleton.2 rfl, by decide +kernel, _, rfl, by decide +kernel⟩
  have hfound : serviceFind (reload (some sampleDir) sampleRunning).table
      (sampleRunning.table.svc 0).name = some 0 := by decide +kernel
  obtain rfl : j = 0 := Option.some.inj (hj.symm.trans hfound)
  exact absurd hpid (by decide +kernel)

/-- The theorem applies to the table of the boot: before anything was started, a reload of the same
directory loses nothing. -/
theorem reload_keeps_iff_sample :
    Keeps (some sampleDir) (loadServices (some sampleDir) Supervisor.zero).1 := by
  refine (reload_keeps_iff ?_ _).1.2 ?_
  · rw [Table.Distinct]
    decide +kernel
  · rintro es hes i hi -
    obtain rfl := Option.some.inj hes
    obtain rfl : i = 0 := Nat.lt_one_iff.1 hi
    exact ⟨by decide +kernel, [], _, [], rfl, by decide +kernel, by decide +kernel⟩

end LunaInit
