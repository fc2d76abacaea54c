import MahinaOS.Compositor.Routing
import MahinaOS.Shell.Desktop

/-!
# Input while the screen is locked

The shell and the compositor are two processes.  `System` puts them together: the compositor serves
any number of other clients, which may send it any bytes, the shell sends its requests and receives
what the compositor writes to it, each at its own pace.  A step of the system is one turn of either.

Nothing tells the compositor that the screen is locked.  Locking sets a flag in the shell, and the
compositor goes on to pass input to whoever has the keyboard focus or is under the pointer.

* **`locked_input_iff`**: when the input that arrives while the screen is locked reaches nobody
  else.
* `typed_into_application`: a window that opens while the screen is locked takes the focus, and the
  next key with it.
-/

namespace Shell

open Compositor

/-- The compositor, and the shell if it is running. -/
structure System (ρ : Type) where
  comp : State := {}
  shell : Option (Process ρ) := none

/-- What can happen next. -/
inductive SystemEvent where
  | compositor (e : Event)
  | startShell (fd : Nat)
  /-- The compositor reads the next request of the shell. -/
  | serveShell (env : Nat → MsgEnv)
  | shellReceives (env : ShellEnv)
  | shellTicks
  | shellDies

namespace System

section

variable {ρ : Type}

/-- The compositor's descriptor for the shell's connection. -/
def shellFd (sys : System ρ) : Option Nat := sys.shell.bind Process.conn

/-- A shell can start on a free descriptor when none is running. -/
def CanStart (sys : System ρ) (fd : Nat) : Prop :=
  sys.shell.isNone ∧ fd ∉ sys.comp.clients.list.map Client.fd

instance (sys : System ρ) (fd : Nat) : Decidable (sys.CanStart fd) :=
  inferInstanceAs (Decidable (_ ∧ _))

/-- What an event is for the compositor.  It reads from the shell only what the shell has sent, and
the shell's connection ends with the shell. -/
def compositorEvent (sys : System ρ) : SystemEvent → Option Event
  | .compositor (.read fd r env) => if sys.shellFd = some fd then none else some (.read fd r env)
  | .compositor (.hangup fd) => if sys.shellFd = some fd then none else some (.hangup fd)
  | .compositor e => some e
  | .startShell fd => if sys.CanStart fd then some (.accept fd 0 true) else none
  | .serveShell env => do
    let p ← sys.shell
    let fd ← p.conn
    let r ← p.outbox.head?
    some (.read fd ⟨r.msg.encode, r.fds, false⟩ env)
  | .shellReceives _ => none
  | .shellTicks => none
  | .shellDies => none

/-- The compositor after an event. -/
def compositorStep (mode : Mode) (sys : System ρ) (e : SystemEvent) : State :=
  match sys.compositorEvent e with
  | some ce => step mode sys.comp ce
  | none => { sys.comp with sent := [] }

/-- The shell after an event, before it is sent what the compositor writes. -/
def shellStep (d : Desktop ρ) (sys : System ρ) : SystemEvent → Option (Process ρ)
  | .compositor _ => sys.shell
  | .startShell fd => if sys.CanStart fd then some (.start fd) else sys.shell
  | .serveShell _ => sys.shell.map fun p => { p with outbox := p.outbox.tail }
  | .shellReceives env =>
    sys.shell.bind fun p =>
      match p.inbox with
      | [] => some p
      | msg :: inbox => { p with inbox := inbox }.receive d env msg
  | .shellTicks => sys.shell.map (Process.tick d)
  | .shellDies => none

/-- The shell gets what the compositor wrote to it, and notices if its connection was closed. -/
def deliver (comp : State) (p : Process ρ) : Process ρ :=
  match p.conn with
  | none => p
  | some fd =>
    { p with
      inbox := p.inbox ++ (comp.sent.filter (·.fd = fd)).map Sent.msg
      conn := if fd ∈ comp.clients.list.map Client.fd then some fd else none }

/-- One event: both processes take their step, and the shell is sent what the compositor writes. -/
def step (d : Desktop ρ) (mode : Mode) (sys : System ρ) (e : SystemEvent) : System ρ where
  comp := sys.compositorStep mode e
  shell := (sys.shellStep d e).map (deliver (sys.compositorStep mode e))

/-- The screen is locked. -/
def locked (sys : System ρ) : Bool := sys.shell.any Process.locked

/-- Input that arrives while the screen is locked reaches nobody but the window manager. -/
def Secure (d : Desktop ρ) (mode : Mode) (sys : System ρ) (e : SystemEvent) : Prop :=
  sys.locked = true → Contained sys.comp (sys.step d mode e).comp

/-- While the screen is locked, input arrives only where it stays with the window manager. -/
def Quiet (sys : System ρ) (e : SystemEvent) : Prop :=
  sys.locked = true → ∀ ce ∈ sys.compositorEvent e, StaysWithWm sys.comp ce

/-- The session counter has not come back to 0 when a client is accepted. -/
def NoWrap (sys : System ρ) (e : SystemEvent) : Prop :=
  ∀ ce ∈ sys.compositorEvent e, Compositor.NoWrap sys.comp ce

instance (st : State) (e : Event) : Decidable (StaysWithWm st e) := by
  unfold StaysWithWm Uncovered
  split <;> infer_instance

instance (st : Compositor.State) (e : Compositor.Event) : Decidable (Compositor.NoWrap st e) := by
  unfold Compositor.NoWrap
  rcases e <;> infer_instance

instance (sys : System ρ) (e : SystemEvent) : Decidable (sys.Quiet e) :=
  inferInstanceAs (Decidable (_ → ∀ _ ∈ _, _))

instance (sys : System ρ) (e : SystemEvent) : Decidable (sys.NoWrap e) :=
  inferInstanceAs (Decidable (∀ _ ∈ _, _))

/-! ## Runs -/

variable {d : Desktop ρ} {sys : System ρ} {e : SystemEvent}

theorem sound_step {mode : Mode} (h : Sound sys.comp) (hwrap : sys.NoWrap e) :
    Sound (sys.step d mode e).comp := by
  show Sound (sys.compositorStep mode e)
  rw [compositorStep]
  rcases hce : sys.compositorEvent e with - | ce
  · exact { h with }
  · exact h.step (hwrap ce hce)

theorem secure_iff {mode : Mode} (h : Sound sys.comp) : sys.Secure d mode e ↔ sys.Quiet e := by
  refine imp_congr_right fun _ => ?_
  show Contained sys.comp (sys.compositorStep mode e) ↔ _
  rw [compositorStep]
  rcases hce : sys.compositorEvent e with - | ce
  · exact iff_of_true (fun w hw => by cases hw) (by simp)
  · refine (contained_step_iff h).trans ⟨fun hstay ce' hce' => ?_, fun hquiet => hquiet ce rfl⟩
    cases hce'
    exact hstay

/-- **Input while the screen is locked.**  For every desktop, display and run: the input that
arrives while the screen is locked is written to nobody but the registered window manager, if and
only if, each time, the key is grabbed or no other client has the keyboard focus, and no visible
window of another client is under the pointer. -/
theorem locked_input_iff (d : Desktop ρ) (mode : Mode) {run : List SystemEvent}
    (hwrap : Run.Along (step d mode) NoWrap {} run) :
    Run.Along (step d mode) (Secure d mode) {} run ↔ Run.Along (step d mode) Quiet {} run :=
  Run.along_iff (I := fun sys => Sound sys.comp) (fun _ _ h hwrap _ => sound_step h hwrap)
    (fun _ _ h _ => secure_iff h) sound_init hwrap

end

/-! ## A window opens while the screen is locked -/

/-- A desktop without any parts; the runs below end before any would act. -/
def bareDesktop : Desktop Unit where
  new _ _ := ()
  notify _ _ := ()
  launcherVisible _ := false
  launcherKey _ _ _ := ((), [])
  act _ _ := ((), [])
  setCursor _ _ _ := ()
  pointerMotion _ := ((), [])
  pointerButton _ _ _ := ((), [])
  surfaceCreated _ _ _ _ _ := ((), [])
  surfaceDestroyed _ _ := ((), [])
  tick _ := ((), [])

def smallMode : Mode := ⟨1024, 768⟩

def serve : SystemEvent := .serveShell fun _ => {}

def receive : SystemEvent := .shellReceives ⟨⟨none, none, fun _ _ => none⟩, none, true⟩

/-- The shell starts: it is registered, grabs its keys, creates its two surfaces and takes the
focus. -/
def startup : List SystemEvent :=
  [.startShell 7, serve, receive, receive] ++ List.replicate 141 serve ++
    [receive, serve, receive, serve]

/-- The shell as the compositor knows it then. -/
def shellClient : Client :=
  { fd := 7, uid := 0, sessionId := 1, helloDone := true, capsGranted := capsNegotiate 0 shellCaps }

/-- A request arrives in one piece. -/
def sends (fd : Nat) (r : Request) : Event := .read fd ⟨r.msg.encode, [], false⟩ fun _ => {}

/-- An application of user 1000 connects and opens a window. -/
def appWindow (width height : UInt32) : List Event :=
  [.accept 8 1000 true, sends 8 (helloRequest 0), sends 8 (createSurface
    ⟨SurfaceType.applicationWindow, 0, 0, width, height, Layer.application⟩)]

def openWindow : List SystemEvent := (appWindow 400 300).map .compositor

/-- The key `a`, which is not one of those that the shell grabs. -/
def keyA : SystemEvent := .compositor (.key 30 1 0)

theorem locked_input_iff_sample :
    Run.Along (step bareDesktop smallMode) NoWrap {} (startup ++ [keyA]) ∧
      Run.Along (step bareDesktop smallMode) (Secure bareDesktop smallMode) {}
        (startup ++ [keyA]) :=
  have h : Run.Along (step bareDesktop smallMode) NoWrap {} (startup ++ [keyA]) ∧
      Run.Along (step bareDesktop smallMode) Quiet {} (startup ++ [keyA]) := by
    decide +kernel
  ⟨h.1, (locked_input_iff bareDesktop smallMode h.1).2 h.2⟩

/-- The screen is locked, the window manager is the shell, and the key goes to the application. -/
theorem typed_into_application :
    let sys := Run.run (step bareDesktop smallMode) {} (startup ++ openWindow)
    sys.locked = true ∧ sys.comp.wmClient = some 7 ∧
      (sys.step bareDesktop smallMode keyA).comp.sent = [⟨8, encodeKeyboardKey 30 1 0⟩] ∧
      ¬ sys.Secure bareDesktop smallMode keyA := by
  intro sys
  have h : sys.locked = true ∧ sys.comp.wmClient = some 7 ∧
      (sys.step bareDesktop smallMode keyA).comp.sent = [⟨8, encodeKeyboardKey 30 1 0⟩] := by
    decide +kernel
  obtain ⟨hlocked, hwm, hsent⟩ := h
  refine ⟨hlocked, hwm, hsent, fun hsecure => ?_⟩
  have hfd := hsecure hlocked ⟨8, encodeKeyboardKey 30 1 0⟩ (hsent ▸ List.mem_singleton_self _) rfl
  rw [hwm] at hfd
  cases hfd

end System

end Shell
