import MahinaOS.Compositor.Surface
import MahinaOS.Shell.LockScreen

/-!
# The desktop shell as a process

`luna-shell-rs` is the window manager and draws the lock screen.  It connects to the compositor,
grabs the keys of its shortcuts, creates its two surfaces, asks for the keyboard focus and then
reacts to the messages it receives (`main.rs`, `shell.rs`, `keybinds.rs`).

The lock screen comes first in every handler, and that part is modelled in full.  What the windows,
the launcher, the dock and the widgets do is behind an interface, `Desktop`: they may answer any
event with any requests to the compositor.  A `Process` is the shell in one of the stages of `main`,
with the messages that wait for it and the requests that wait for the compositor.
-/

namespace Shell

open Compositor

/-! ## Shortcuts -/

/-- `ShellAction`. -/
inductive ShellAction where
  | switchWorkspace (idx : Nat)
  | moveWindowToWorkspace (idx : Nat)
  | openTerminal
  | openLauncher
  | closeWindow
  | toggleFloating
  | toggleFullscreen
  | focusNext
  | focusPrev
  | snapLeft
  | snapRight
  | snapUp
  | snapDown
  | resizeShrink
  | resizeGrow
  | lockScreen
  | quit
  | none
  deriving DecidableEq, Repr

namespace Key

def key1 : UInt32 := 0x02
def key2 : UInt32 := 0x03
def key3 : UInt32 := 0x04
def key4 : UInt32 := 0x05
def key5 : UInt32 := 0x06
def key6 : UInt32 := 0x07
def key7 : UInt32 := 0x08
def key8 : UInt32 := 0x09
def key9 : UInt32 := 0x0A
def key0 : UInt32 := 0x0B
def q : UInt32 := 0x10
def w : UInt32 := 0x11
def e : UInt32 := 0x12
def t : UInt32 := 0x14
def f : UInt32 := 0x21
def j : UInt32 := 0x24
def k : UInt32 := 0x25
def l : UInt32 := 0x26
def v : UInt32 := 0x2F
def up : UInt32 := 0x67
def down : UInt32 := 0x6C
def left : UInt32 := 0x69
def right : UInt32 := 0x6A
def tab : UInt32 := 0x0F
def enter : UInt32 := 0x1C
def space : UInt32 := 0x39
def esc : UInt32 := 0x01
def backspace : UInt32 := 0x0E

end Key

def modCtrl : UInt32 := 2

def modAlt : UInt32 := 4

def modSuper : UInt32 := 8

/-- Super+1..6. -/
def switchKeys : List (UInt32 × ShellAction) :=
  [(Key.key1, .switchWorkspace 0), (Key.key2, .switchWorkspace 1), (Key.key3, .switchWorkspace 2),
    (Key.key4, .switchWorkspace 3), (Key.key5, .switchWorkspace 4), (Key.key6, .switchWorkspace 5)]

/-- Super+Shift. -/
def moveKeys : List (UInt32 × ShellAction) :=
  [(Key.key1, .moveWindowToWorkspace 0), (Key.key2, .moveWindowToWorkspace 1),
    (Key.key3, .moveWindowToWorkspace 2), (Key.key4, .moveWindowToWorkspace 3),
    (Key.key5, .moveWindowToWorkspace 4), (Key.key6, .moveWindowToWorkspace 5), (Key.q, .quit)]

/-- Super alone. -/
def superKeys : List (UInt32 × ShellAction) :=
  [(Key.enter, .openTerminal), (Key.space, .openLauncher), (Key.q, .closeWindow),
    (Key.v, .toggleFloating), (Key.f, .toggleFullscreen), (Key.j, .focusPrev), (Key.k, .focusNext),
    (Key.l, .lockScreen), (Key.left, .snapLeft), (Key.right, .snapRight), (Key.up, .snapUp),
    (Key.down, .snapDown)]

/-- Super+Ctrl. -/
def resizeKeys : List (UInt32 × ShellAction) :=
  [(Key.left, .resizeShrink), (Key.down, .resizeShrink), (Key.right, .resizeGrow),
    (Key.up, .resizeGrow)]

/-- `dispatch`: the first table that applies and has the key. -/
def dispatch (key modifiers : UInt32) : ShellAction :=
  let super := modifiers &&& modSuper != 0
  let shift := modifiers &&& modShift != 0
  let ctrl := modifiers &&& modCtrl != 0
  let alt := modifiers &&& modAlt != 0
  let tables :=
    [(super && !shift && !ctrl, switchKeys), (super && shift && !ctrl, moveKeys),
      (super && !shift && !ctrl && !alt, superKeys), (super && ctrl && !shift, resizeKeys),
      (alt, [(Key.tab, .focusNext)])]
  (tables.findSome? fun (applies, table) => if applies then table.lookup key else Option.none).getD
    .none

/-! ## Requests to the compositor -/

/-- A request.  The shell sends no message with more than 24 bytes of payload, and a descriptor only
with a commit. -/
structure Request where
  msg : Msg
  fds : List Nat := []
  short : msg.payload.length ≤ 24

/-- `LgpConnection::do_hello`. -/
def helloRequest (caps : UInt32) : Request where
  msg := ⟨MsgType.hello, writeU16Le versionMajor ++ writeU16Le versionMinor ++ writeU32Le caps⟩
  short := by simp [writeU16Le, writeU32Le]

/-- `WmState::grab_key`. -/
def grabKey (key modifiers : UInt32) : Request where
  msg := ⟨MsgType.wmGrabKey, writeU32Le key ++ writeU32Le modifiers⟩
  short := by simp [writeU32Le]

/-- `WmState::set_focus`. -/
def setFocus (surfaceId : UInt32) : Request where
  msg := ⟨MsgType.wmSetFocus, writeU32Le surfaceId⟩
  short := by simp [writeU32Le]

/-- The request of `LgpSurface::create`. -/
def createSurface (p : CreatePayload) : Request where
  msg := ⟨MsgType.createSurface, writeU32Le p.surfaceType ++ writeU32Le p.x.toUInt32 ++
    writeU32Le p.y.toUInt32 ++ writeU32Le p.width ++ writeU32Le p.height ++ writeU32Le p.layer⟩
  short := by simp [writeU32Le]

/-- The capabilities that the shell asks for; the last two are for keyboard and pointer, which the
compositor does not know. -/
def shellCaps : UInt32 :=
  Cap.layerShell ||| Cap.canvasSurface ||| (1 : UInt32) <<< 8 ||| (1 : UInt32) <<< 9 |||
    Cap.windowManager

/-- `grab_wm_keys`. -/
def grabWmKeys : List Request :=
  [Key.key1, Key.key2, Key.key3, Key.key4, Key.key5, Key.key6, Key.q, Key.w, Key.e, Key.t, Key.f,
    Key.j, Key.k, Key.l, Key.v, Key.up, Key.down, Key.left, Key.right, Key.tab, Key.enter,
    Key.space, Key.esc, Key.backspace, Key.key0, Key.key9, Key.key8, Key.key7].flatMap fun key =>
    [0, modSuper, modSuper ||| modShift, modSuper ||| modCtrl, modAlt].map fun modifiers =>
      grabKey key modifiers

/-! ## The shell -/

/-- The parts of the shell besides the lock screen.  Each handler gives the new state and the
requests it sends. -/
structure Desktop (ρ : Type) where
  new : UInt32 → UInt32 → ρ
  notify : ρ → String → ρ
  launcherVisible : ρ → Bool
  /-- A key in the launcher. -/
  launcherKey : ρ → UInt32 → Bool → ρ × List Request
  /-- Any action but locking and quitting. -/
  act : ρ → ShellAction → ρ × List Request
  setCursor : ρ → UInt32 → UInt32 → ρ
  pointerMotion : ρ → ρ × List Request
  pointerButton : ρ → UInt8 → Bool → ρ × List Request
  surfaceCreated : ρ → UInt32 → UInt32 → UInt32 → UInt32 → ρ × List Request
  surfaceDestroyed : ρ → UInt32 → ρ × List Request
  /-- The other ticks, and the commits of the two surfaces. -/
  tick : ρ → ρ × List Request

/-- `ShellState`. -/
structure ShellState (ρ : Type) where
  lockscreen : LockScreen
  desktop : ρ

section

variable {ρ : Type} (d : Desktop ρ)

/-- The state with new desktop parts, and their requests. -/
def ShellState.withDesktop (s : ShellState ρ) (r : ρ × List Request) :
    ShellState ρ × List Request :=
  ({ s with desktop := r.1 }, r.2)

/-- `ShellState::handle_keyboard`; `none` is `std::process::exit`. -/
def ShellState.handleKeyboard (env : AuthEnv) (s : ShellState ρ) (key modifiers : UInt32)
    (pressed : Bool) : Option (ShellState ρ × List Request) :=
  let s := { s with lockscreen := s.lockscreen.resetIdle }
  if s.lockscreen.locked then
    match s.lockscreen.onKey env key pressed modifiers with
    | (ls, true) => some (⟨ls, d.notify s.desktop "Session Unlocked via PAM"⟩, [])
    | (ls, false) => some (⟨ls, s.desktop⟩, [])
  else if d.launcherVisible s.desktop then
    some (s.withDesktop (d.launcherKey s.desktop key pressed))
  else
    match dispatch key modifiers with
    | .lockScreen => some (⟨s.lockscreen.lock, d.notify s.desktop "Session Locked"⟩, [])
    | .quit => none
    | action => some (s.withDesktop (d.act s.desktop action))

/-- `ShellState::handle_pointer_motion`. -/
def ShellState.handlePointerMotion (s : ShellState ρ) (x y : UInt32) :
    ShellState ρ × List Request :=
  let s : ShellState ρ := ⟨s.lockscreen.resetIdle, d.setCursor s.desktop x y⟩
  if s.lockscreen.locked then (s, []) else s.withDesktop (d.pointerMotion s.desktop)

/-- `ShellState::handle_pointer_button`. -/
def ShellState.handlePointerButton (s : ShellState ρ) (button : UInt8) (pressed : Bool) :
    ShellState ρ × List Request :=
  let s := { s with lockscreen := s.lockscreen.resetIdle }
  if s.lockscreen.locked then (s, []) else s.withDesktop (d.pointerButton s.desktop button pressed)

/-- `ShellState::tick`. -/
def ShellState.tick (s : ShellState ρ) : ShellState ρ × List Request :=
  { s with lockscreen := s.lockscreen.tick }.withDesktop (d.tick s.desktop)

/-- A message in the event loop of `main`; those that do not parse are skipped. -/
def ShellState.handle (env : AuthEnv) (s : ShellState ρ) (msg : Msg) :
    Option (ShellState ρ × List Request) :=
  if msg.type = MsgType.keyboardKey ∧ msg.payload.length ≥ 12 then
    s.handleKeyboard d env (readU32Le msg.payload 0) (readU32Le msg.payload 8)
      (readU32Le msg.payload 4 ≠ 0)
  else if msg.type = MsgType.pointerMotion ∧ msg.payload.length ≥ 8 then
    some (s.handlePointerMotion d (readU32Le msg.payload 0) (readU32Le msg.payload 4))
  else if msg.type = MsgType.pointerButton ∧ msg.payload.length ≥ 2 then
    some (s.handlePointerButton d (msg.payload.getD 0 0) (msg.payload.getD 1 0 ≠ 0))
  else if msg.type = MsgType.wmSurfaceCreated ∧ msg.payload.length ≥ 16 then
    some (s.withDesktop (d.surfaceCreated s.desktop (readU32Le msg.payload 0)
      (readU32Le msg.payload 4) (readU32Le msg.payload 8) (readU32Le msg.payload 12)))
  else if msg.type = MsgType.wmSurfaceDestroyed ∧ msg.payload.length ≥ 4 then
    some (s.withDesktop (d.surfaceDestroyed s.desktop (readU32Le msg.payload 0)))
  else some (s, [])

/-! ## The stages of `main` -/

/-- What `main` waits for; a surface is created in the size of the display. -/
inductive Stage (ρ : Type) where
  | hello
  | geometry
  | wallpaper (sw sh : UInt32)
  | overlay (sw sh : UInt32)
  | running (state : ShellState ρ)

/-- The shell process.  `conn` is the compositor's descriptor for its connection. -/
structure Process (ρ : Type) where
  conn : Option Nat
  stage : Stage ρ
  inbox : List Msg := []
  outbox : List Request := []

/-- What the system decides for the shell: the password files, and whether the memory of a new
surface can be had. -/
structure ShellEnv where
  auth : AuthEnv
  passwd : Option (List Char)
  bufferOk : Bool

/-- The id in the reply to `CREATE_SURFACE`, if the surface was created. -/
def createdId (env : ShellEnv) (msg : Msg) : Option UInt32 :=
  if msg.type = MsgType.createSurfaceReply ∧ msg.payload.length ≥ 8 ∧ readU32Le msg.payload 0 = 0 ∧
      env.bufferOk then
    some (readU32Le msg.payload 4)
  else none

/-- The request for one of the two surfaces, which cover the display. -/
def fullSurface (surfaceType layer sw sh : UInt32) : Request :=
  createSurface ⟨surfaceType, 0, 0, sw, sh, layer⟩

/-- `LgpConnection::connect`, up to its first wait. -/
def Process.start (fd : Nat) : Process ρ where
  conn := some fd
  stage := .hello
  outbox := [helloRequest shellCaps]

/-- The process in its next stage, with the requests it sends on the way. -/
def Process.next (p : Process ρ) (stage : Stage ρ) (requests : List Request) : Process ρ :=
  { p with stage := stage, outbox := p.outbox ++ requests }

/-- What the process does with a message; `none` if it exits. -/
def Process.receive (env : ShellEnv) (p : Process ρ) (msg : Msg) : Option (Process ρ) :=
  match p.stage with
  | .hello => if msg.type = MsgType.helloReply then some (p.next .geometry []) else none
  | .geometry =>
    let known : Bool := msg.type = MsgType.outputGeometry ∧ msg.payload.length ≥ 8
    let sw := if known then readU32Le msg.payload 0 else 0
    let sh := if known then readU32Le msg.payload 4 else 0
    some (p.next (.wallpaper sw sh) (grabWmKeys ++
      [fullSurface SurfaceType.canvasSurface Layer.wallpaper sw sh]))
  | .wallpaper sw sh =>
    (createdId env msg).map fun _ =>
      p.next (.overlay sw sh) [fullSurface SurfaceType.shellSurface Layer.shell sw sh]
  | .overlay sw sh =>
    (createdId env msg).map fun id =>
      p.next (.running ⟨LockScreen.new env.passwd, d.new sw sh⟩) [setFocus id]
  | .running s => (s.handle d env.auth msg).map fun (s, requests) => p.next (.running s) requests

/-- One round of the event loop without a message. -/
def Process.tick (p : Process ρ) : Process ρ :=
  match p.stage with
  | .running s =>
    let (s, requests) := s.tick d
    p.next (.running s) requests
  | _ => p

/-- `lockscreen.locked`, once there is a lock screen. -/
def Process.locked (p : Process ρ) : Bool :=
  match p.stage with
  | .running s => s.lockscreen.locked
  | _ => false

end

end Shell
