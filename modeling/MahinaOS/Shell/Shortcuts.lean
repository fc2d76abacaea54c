import Mathlib.Data.List.Infix
import MahinaOS.Shell.Workspaces

/-!
# Shortcuts

`ShellState::handle_keyboard` gets every press and every release of a key.  The lock screen and the
launcher only look at presses; a shortcut does not look.  This file has the parts of the shell that
the shortcuts act on, besides the window manager: the launcher (`launcher.rs`), the dock (`dock.rs`)
and the notifications (`notifications.rs`).

* `Parts.act` is what each `ShellAction` does, and `Parts.desktop` puts the parts behind the
  interface of `MahinaOS.Shell.Desktop`.  A panic is a desktop without parts.
* `pressRelease` is a press followed by the release with the same modifiers, and `performed` the
  actions the two bring about.
* **`shortcut_once_iff`**: which actions are performed once; any other is performed twice.
* `fullscreen_undone`: Super+F leaves a window as it was.
-/

namespace Shell

open Option

/-! ## Notifications -/

/-- `Notification`. -/
structure Notification where
  message : String
  ticksLeft : Nat
  color : UInt32
  deriving DecidableEq, Repr

def maxNotifications : Nat := 5

def notificationLifetimeTicks : Nat := 150

/-- `NotificationManager::push`. -/
def pushNotification (queue : List Notification) (message : String) (color : UInt32) :
    List Notification :=
  (if queue.length ≥ maxNotifications then queue.tail else queue) ++
    [⟨message, notificationLifetimeTicks, color⟩]

/-- `push_info`. -/
def pushInfo (queue : List Notification) (message : String) : List Notification :=
  pushNotification queue message 0xFF6B7FD4

/-- `push_error`. -/
def pushError (queue : List Notification) (message : String) : List Notification :=
  pushNotification queue message 0xFFE03E3E

/-- `push_success`. -/
def pushSuccess (queue : List Notification) (message : String) : List Notification :=
  pushNotification queue message 0xFF3EE09A

/-! ## The launcher -/

/-- `LauncherItem`, without the color of its icon. -/
structure LauncherItem where
  name : String
  desc : String
  binary : String
  deriving DecidableEq, Repr

structure Launcher where
  visible : Bool
  items : List LauncherItem
  searchQuery : List Char
  selectedIdx : Nat
  hoverIdx : Option Nat
  deriving DecidableEq, Repr

/-- The characters that can be searched for, by evdev code. -/
def searchKeys : List (UInt32 × Char) :=
  [(16, 'q'), (17, 'w'), (18, 'e'), (19, 'r'), (20, 't'), (21, 'y'), (22, 'u'), (23, 'i'),
    (24, 'o'), (25, 'p'), (30, 'a'), (31, 's'), (32, 'd'), (33, 'f'), (34, 'g'), (35, 'h'),
    (36, 'j'), (37, 'k'), (38, 'l'), (44, 'z'), (45, 'x'), (46, 'c'), (47, 'v'), (48, 'b'),
    (49, 'n'), (50, 'm'), (57, ' ')]

namespace Launcher

/-- `Launcher::new`. -/
def new : Launcher where
  visible := false
  items :=
    [⟨"Terminal", "Mahina System Console", "/usr/bin/luna-terminal"⟩,
      ⟨"Files", "File Navigator", "/usr/bin/files-rs"⟩,
      ⟨"Settings", "System Configuration", "/usr/bin/settings-rs"⟩,
      ⟨"Calculator", "Simple Calculator", "/usr/bin/calc-rs"⟩,
      ⟨"Text Editor", "Write and view text", "/usr/bin/text-rs"⟩,
      ⟨"Tasks", "Process Manager", "/usr/bin/tasks-rs"⟩,
      ⟨"About", "About MahinaOS", "/usr/bin/about-rs"⟩]
  searchQuery := []
  selectedIdx := 0
  hoverIdx := none

/-- `Launcher::reset`. -/
def reset (l : Launcher) : Launcher :=
  { l with searchQuery := [], selectedIdx := 0, hoverIdx := none }

/-- `str::contains`, with both sides in lower case; all these texts are ASCII. -/
def matchesQuery (query : List Char) (text : String) : Bool :=
  query.map Char.toLower <:+: text.toList.map Char.toLower

/-- `Launcher::filtered_items`. -/
def filteredItems (l : Launcher) : List LauncherItem :=
  if l.searchQuery.isEmpty then l.items
  else
    l.items.filter fun item =>
      matchesQuery l.searchQuery item.name || matchesQuery l.searchQuery item.desc

/-- `Launcher::on_key`: the item that is to be started, if any. -/
def onKey (l : Launcher) (key : UInt32) (pressed : Bool) : Launcher × Option LauncherItem :=
  if !l.visible || !pressed then (l, none)
  else if key = 28 then
    match l.filteredItems[l.selectedIdx]? with
    | some item => ({ l with visible := false }.reset, some item)
    | none => (l, none)
  else if key = 103 then
    let count := l.filteredItems.length
    if count > 0 then
      ({ l with selectedIdx := if l.selectedIdx = 0 then count - 1 else l.selectedIdx - 1 }, none)
    else (l, none)
  else if key = 108 then
    let count := l.filteredItems.length
    if count > 0 then ({ l with selectedIdx := (l.selectedIdx + 1) % count }, none) else (l, none)
  else if key = 1 then ({ l with visible := false }.reset, none)
  else if key = 14 then
    ({ l with searchQuery := l.searchQuery.dropLast, selectedIdx := 0 }, none)
  else
    match searchKeys.lookup key with
    | some ch =>
      if l.searchQuery.length < 32 then
        ({ l with searchQuery := l.searchQuery ++ [ch], selectedIdx := 0 }, none)
      else (l, none)
    | none => (l, none)

end Launcher

/-! ## The dock -/

/-- `DockApp`, without the color of its icon. -/
structure DockApp where
  name : String
  binary : String
  running : Bool := false
  pid : Option Nat := none
  deriving DecidableEq, Repr

/-- `Dock::new`. -/
def dockApps : List DockApp :=
  [{ name := "Terminal", binary := "/usr/bin/luna-terminal" },
    { name := "Files", binary := "/usr/bin/files-rs" },
    { name := "Settings", binary := "/usr/bin/settings-rs" },
    { name := "Calc", binary := "/usr/bin/calc-rs" },
    { name := "Text", binary := "/usr/bin/text-rs" },
    { name := "Tasks", binary := "/usr/bin/tasks-rs" },
    { name := "About", binary := "/usr/bin/about-rs" }]

/-! ## The parts together -/

/-- `ShellState` without the lock screen and what the keyboard does not reach. -/
structure Parts (ρ : Type) where
  wm : WmManager ρ
  launcher : Launcher
  dock : List DockApp
  notifications : List Notification

namespace Parts

variable {ρ : Type}

/-- `ShellState::new`. -/
def new (sw sh : UInt32) : Parts ρ := ⟨.new sw sh, .new, dockApps, []⟩

/-- `ShellState::launch_app_by_binary`, with the process that `fork` gives, if it can.  An entry of
the dock remembers it. -/
def launchAppByBinary (fork : Option Nat) (p : Parts ρ) (name binary : String) : Parts ρ :=
  match p.dock.findIdx? (·.binary == binary) with
  | some idx =>
    let name := ((p.dock[idx]?).map DockApp.name).getD name
    match fork with
    | some pid =>
      { p with
        dock := p.dock.modify idx fun app => { app with running := true, pid := some pid }
        notifications := pushSuccess p.notifications ("Launching " ++ name) }
    | none => { p with notifications := pushError p.notifications ("Failed to launch " ++ name) }
  | none =>
    match fork with
    | some _ => { p with notifications := pushSuccess p.notifications ("Launching " ++ name) }
    | none => { p with notifications := pushError p.notifications ("Failed to launch " ++ name) }

/-- The parts after an operation of the window manager, which may panic, and a notification. -/
def withWm (p : Parts ρ) (notes : List String) (r : Option (WmManager ρ × List Request)) :
    Option (Parts ρ × List Request) :=
  r.map fun (wm, requests) =>
    ({ p with wm := wm, notifications := notes.foldl pushInfo p.notifications }, requests)

/-- The actions of `ShellState::handle_keyboard`, without locking and quitting. -/
def act (R : Ratios ρ) (fork : Option Nat) (p : Parts ρ) :
    ShellAction → Option (Parts ρ × List Request)
  | .switchWorkspace idx =>
    p.withWm ["Workspace " ++ toString (idx + 1)] (p.wm.switchWorkspace R idx)
  | .moveWindowToWorkspace idx =>
    p.withWm ["Window moved to Workspace " ++ toString (idx + 1)]
      (p.wm.moveFocusedToWorkspace R idx)
  | .openTerminal => some (p.launchAppByBinary fork "Terminal" "/usr/bin/luna-terminal", [])
  | .openLauncher =>
    let launcher := { p.launcher with visible := !p.launcher.visible }
    some ({ p with launcher := if launcher.visible then launcher.reset else launcher }, [])
  | .closeWindow =>
    match p.wm.focusedSurface with
    | some sid =>
      (p.withWm ["Window closed"] (p.wm.onSurfaceDestroyed R sid)).map fun (p, requests) =>
        (p, setState sid Compositor.WmState.hidden :: requests)
    | none => some (p, [])
  | .toggleFloating => p.withWm [] (p.wm.toggleFloating R)
  | .toggleFullscreen => p.withWm [] (p.wm.toggleFullscreen R)
  | .focusNext => p.withWm [] (some p.wm.focusNext)
  | .focusPrev => p.withWm [] (some p.wm.focusPrev)
  | .snapLeft => p.withWm [] (some (p.wm.snap .left))
  | .snapRight => p.withWm [] (some (p.wm.snap .right))
  | .snapUp => p.withWm [] (some (p.wm.snap .up))
  | .snapDown => p.withWm [] (some (p.wm.snap .down))
  | .resizeShrink => p.withWm [] (p.wm.resizeSplit R false)
  | .resizeGrow => p.withWm [] (p.wm.resizeSplit R true)
  | .lockScreen => some (p, [])
  | .quit => some (p, [])
  | .none => some (p, [])

/-- A handler of the parts as one of a desktop: nothing happens after a panic. -/
def lift (p : Option (Parts ρ)) (f : Parts ρ → Option (Parts ρ × List Request)) :
    Option (Parts ρ) × List Request :=
  match p.bind f with
  | some (p, requests) => (some p, requests)
  | none => (none, [])

/-- The two notifications about the lock screen; only the one about its end is a success. -/
def notify (p : Parts ρ) (message : String) : Parts ρ :=
  if message = "Session Locked" then
    { p with notifications := pushInfo p.notifications message }
  else { p with notifications := pushSuccess p.notifications message }

/-- A key while the launcher is visible. -/
def launcherKey (fork : Option Nat) (p : Parts ρ) (key : UInt32) (pressed : Bool) : Parts ρ :=
  match p.launcher.onKey key pressed with
  | (launcher, some item) =>
    { p with launcher := launcher }.launchAppByBinary fork item.name item.binary
  | (launcher, none) => { p with launcher := launcher }

/-- The parts as the desktop of the shell.  The handlers that are not for keys are those of
`rest`. -/
def desktop (R : Ratios ρ) (fork : Option Nat) (rest : Desktop (Option (Parts ρ))) :
    Desktop (Option (Parts ρ)) :=
  { rest with
    notify := fun p message => p.map (·.notify message)
    launcherVisible := fun p => p.any (·.launcher.visible)
    launcherKey := fun p key pressed => lift p fun p => some (p.launcherKey fork key pressed, [])
    act := fun p action => lift p fun p => p.act R fork action }

end Parts

/-! ## A press and its release -/

/-- What the system decides while one key event is handled. -/
structure KeyEnv (ρ : Type) where
  auth : AuthEnv
  fork : Option Nat
  rest : Desktop (Option (Parts ρ))

/-- The shell with its parts. -/
abbrev KeyShell (ρ : Type) := ShellState (Option (Parts ρ))

namespace KeyShell

section

variable {ρ : Type} (R : Ratios ρ)

/-- `ShellState::handle_keyboard`, with the parts. -/
def key (env : KeyEnv ρ) (s : KeyShell ρ) (key modifiers : UInt32) (pressed : Bool) :
    Option (KeyShell ρ × List Request) :=
  s.handleKeyboard (Parts.desktop R env.fork env.rest) env.auth key modifiers pressed

/-- The shortcut that a key event comes to, if nothing else takes it. -/
def shortcut (s : KeyShell ρ) (key modifiers : UInt32) : List ShellAction :=
  if s.lockscreen.locked ∨ s.desktop.any (·.launcher.visible) ∨ s.desktop.isNone ∨
      dispatch key modifiers = .none then []
  else [dispatch key modifiers]

/-- The state and the requests after a press and the release with the same modifiers. -/
def pressRelease (press release : KeyEnv ρ) (s : KeyShell ρ) (key modifiers : UInt32) :
    Option (KeyShell ρ × List Request) :=
  (s.key R press key modifiers true).bind fun (s', requests) =>
    (s'.key R release key modifiers false).map fun (s'', more) => (s'', requests ++ more)

/-- The actions that the two bring about. -/
def performed (press : KeyEnv ρ) (s : KeyShell ρ) (key modifiers : UInt32) : List ShellAction :=
  s.shortcut key modifiers ++
    match s.key R press key modifiers true with
    | some (s', _) => s'.shortcut key modifiers
    | none => []

def perform (env : KeyEnv ρ) (s : KeyShell ρ) : ShellAction → Option (KeyShell ρ × List Request)
  | .lockScreen => some (⟨s.lockscreen.lock, s.desktop.map (·.notify "Session Locked")⟩, [])
  | .quit => none
  | action =>
    let (desktop, requests) := Parts.lift s.desktop fun p => p.act R env.fork action
    some (⟨s.lockscreen, desktop⟩, requests)

/-- The effect of a shortcut that is performed a second time. -/
def performTwice (press release : KeyEnv ρ) (s : KeyShell ρ) (action : ShellAction) :
    Option (KeyShell ρ × List Request) :=
  (s.perform R press action).bind fun (s', requests) =>
    (s'.perform R release action).map fun (s'', more) => (s'', requests ++ more)

def active (s : KeyShell ρ) : KeyShell ρ := { s with lockscreen := s.lockscreen.resetIdle }

/-- Something else takes the next key event after one of these. -/
def takesOver : ShellAction → Bool
  | .openLauncher | .lockScreen | .quit | .none => true
  | _ => false

end

/-! ## One event -/

section

variable {ρ : Type} {R : Ratios ρ} {env : KeyEnv ρ} {s : KeyShell ρ}

/-- Without a lock screen and a launcher, a key event is a shortcut, pressed or not. -/
theorem key_eq_perform (hunlocked : s.lockscreen.locked = false)
    (hhidden : s.desktop.any (·.launcher.visible) = false) (key modifiers : UInt32)
    (pressed : Bool) :
    s.key R env key modifiers pressed = s.active.perform R env (dispatch key modifiers) := by
  have hunlocked' : ¬s.lockscreen.resetIdle.locked = true :=
    fun h => Bool.false_ne_true (hunlocked.symm.trans h)
  have hhidden' : ¬(Parts.desktop R env.fork env.rest).launcherVisible s.desktop = true :=
    fun h => Bool.false_ne_true (hhidden.symm.trans h)
  rw [KeyShell.key, ShellState.handleKeyboard]
  rw [if_neg hunlocked', if_neg hhidden']
  cases dispatch key modifiers <;> rfl

theorem key_released_of_locked (hlocked : s.lockscreen.locked = true) (key modifiers : UInt32) :
    s.key R env key modifiers false = some (s.active, []) := by
  have hlocked' : s.lockscreen.resetIdle.locked = true := hlocked
  rw [KeyShell.key, ShellState.handleKeyboard]
  rw [if_pos hlocked', LockScreen.onKey, if_pos (by simp)]
  rfl

theorem key_released_of_visible (hunlocked : s.lockscreen.locked = false)
    (hvisible : s.desktop.any (·.launcher.visible) = true) (key modifiers : UInt32) :
    s.key R env key modifiers false = some (s.active, []) := by
  obtain ⟨ls, _ | p⟩ := s
  · cases hvisible
  · have hunlocked' : ¬ls.resetIdle.locked = true :=
      fun h => Bool.false_ne_true (hunlocked.symm.trans h)
    have hvisible' : (Parts.desktop R env.fork env.rest).launcherVisible (some p) = true := hvisible
    have hkey : p.launcherKey env.fork key false = p := by
      rw [Parts.launcherKey, Launcher.onKey, if_pos (by simp)]
    have hlauncher : (Parts.desktop R env.fork env.rest).launcherKey (some p) key false =
        (some p, []) := by
      change Parts.lift (some p) (fun p => some (p.launcherKey env.fork key false, [])) = _
      rw [Parts.lift, bind_some, hkey]
    rw [KeyShell.key, ShellState.handleKeyboard]
    rw [if_neg hunlocked', if_pos hvisible', hlauncher]
    rfl

/-! ## What an action leaves -/

variable {p : Parts ρ} {requests : List Request} {fork : Option Nat} {action : ShellAction}

theorem launcher_withWm {p' : Parts ρ} {notes : List String}
    {r : Option (WmManager ρ × List Request)} (h : p.withWm notes r = some (p', requests)) :
    p'.launcher = p.launcher := by
  obtain ⟨⟨wm, requests'⟩, -, hp⟩ := map_eq_some_iff.1 h
  cases hp
  rfl

/-- No action but its own touches the launcher. -/
theorem launcher_act {p' : Parts ρ} (hne : action ≠ .openLauncher)
    (h : p.act R fork action = some (p', requests)) : p'.launcher = p.launcher := by
  cases action with
  | openLauncher => exact absurd rfl hne
  | openTerminal =>
    cases h
    unfold Parts.launchAppByBinary
    split <;> split <;> rfl
  | closeWindow =>
    rw [Parts.act] at h
    split at h
    · obtain ⟨⟨p'', requests'⟩, hwm, hp⟩ := map_eq_some_iff.1 h
      cases hp
      exact launcher_withWm hwm
    · cases h
      rfl
  | lockScreen | quit | none =>
    cases h
    rfl
  | _ => exact launcher_withWm h

theorem perform_eq (hlock : action ≠ .lockScreen) (hquit : action ≠ .quit) :
    s.perform R env action =
      some (⟨s.lockscreen, (Parts.lift s.desktop fun p => p.act R env.fork action).1⟩,
        (Parts.lift s.desktop fun p => p.act R env.fork action).2) := by
  cases action with
  | lockScreen => exact absurd rfl hlock
  | quit => exact absurd rfl hquit
  | _ => rfl

/-- An action that does not take over leaves the launcher hidden. -/
theorem hidden_act (hhidden : p.launcher.visible = false) (hne : action ≠ .openLauncher) :
    (Parts.lift (some p) fun p => p.act R fork action).1.any (·.launcher.visible) = false := by
  rw [Parts.lift]
  split
  · next p' requests hact =>
    rw [any_some, launcher_act hne hact]
    exact hhidden
  · rfl

theorem isNone_lift (f : Parts ρ → Option (Parts ρ × List Request)) :
    (Parts.lift (some p) f).1.isNone = (f p).isNone := by
  rw [Parts.lift, bind_some]
  split
  · next h => rw [h]; rfl
  · next h => rw [h]; rfl

end

/-! ## Once or twice -/

section

variable {ρ : Type} (R : Ratios ρ) (press release : KeyEnv ρ)

theorem of_not_takesOver {action : ShellAction} (h : takesOver action = false) :
    action ≠ .openLauncher ∧ action ≠ .lockScreen ∧ action ≠ .quit ∧ action ≠ .none := by
  refine ⟨?_, ?_, ?_, ?_⟩ <;> rintro rfl <;> cases h

variable {ls : LockScreen} {p : Parts ρ} {key modifiers : UInt32}

/-- If the release comes to nothing, all was done by the press. -/
theorem once_of_absorbed {s s' : KeyShell ρ} {requests : List Request}
    (hpress : s.key R press key modifiers true = some (s', requests))
    (hrelease : s'.key R release key modifiers false = some (s', []))
    (hnone : s'.shortcut key modifiers = []) :
    s.performed R press key modifiers = s.shortcut key modifiers ∧
      s.pressRelease R press release key modifiers = some (s', requests) := by
  constructor
  · rw [performed, hpress]
    dsimp only
    rw [hnone, List.append_nil]
  · rw [pressRelease, hpress, bind_some]
    dsimp only
    rw [hrelease, map_some, List.append_nil]

/-- After an action that takes over, the release comes to nothing. -/
theorem once_of_takesOver (hunlocked : ls.locked = false) (hhidden : p.launcher.visible = false)
    (h : takesOver (dispatch key modifiers) = true) :
    performed R press ⟨ls, some p⟩ key modifiers = shortcut ⟨ls, some p⟩ key modifiers ∧
      pressRelease R press release ⟨ls, some p⟩ key modifiers =
        perform R press (active ⟨ls, some p⟩) (dispatch key modifiers) := by
  have hpress : KeyShell.key R press ⟨ls, some p⟩ key modifiers true = _ :=
    key_eq_perform (s := ⟨ls, some p⟩) hunlocked hhidden key modifiers true
  cases ha : dispatch key modifiers with
  | openLauncher =>
    have hopen : perform R press (active ⟨ls, some p⟩) .openLauncher = some (⟨ls.resetIdle,
          some { p with launcher := { p.launcher with visible := true }.reset }⟩, []) := by
      have hdesktop : (active ⟨ls, some p⟩ : KeyShell ρ).desktop = some p := rfl
      rw [perform_eq (by decide) (by decide), hdesktop, Parts.lift, bind_some, Parts.act]
      rw [hhidden]
      rfl
    rw [ha, hopen] at hpress
    rw [hopen]
    refine once_of_absorbed R press release hpress (key_released_of_visible ?_ rfl _ _) ?_
    · exact hunlocked
    · rw [shortcut, if_pos (.inr (.inl rfl))]
  | lockScreen =>
    rw [ha] at hpress
    refine once_of_absorbed R press release hpress (key_released_of_locked rfl _ _) ?_
    rw [shortcut, if_pos (.inl rfl)]
  | quit =>
    rw [ha] at hpress
    constructor
    · rw [performed, hpress]
      exact List.append_nil _
    · rw [pressRelease, hpress]
      rfl
  | none =>
    rw [ha] at hpress
    refine once_of_absorbed R press release hpress ?_ ?_
    · exact (key_eq_perform (s := active ⟨ls, some p⟩) hunlocked hhidden _ _ _).trans
        (by rw [ha]; rfl)
    · rw [shortcut, ha, if_pos (.inr (.inr (.inr rfl)))]
  | _ =>
    rw [ha] at h
    cases h

/-- Any other action is performed by the release, too. -/
theorem twice_of_not_takesOver (hunlocked : ls.locked = false)
    (hhidden : p.launcher.visible = false) (h : takesOver (dispatch key modifiers) = false) :
    performed R press ⟨ls, some p⟩ key modifiers =
        (if (p.act R press.fork (dispatch key modifiers)).isNone then [dispatch key modifiers]
        else [dispatch key modifiers, dispatch key modifiers]) ∧
      pressRelease R press release ⟨ls, some p⟩ key modifiers =
        performTwice R press release (active ⟨ls, some p⟩) (dispatch key modifiers) := by
  obtain ⟨hlauncher, hlock, hquit, hnone⟩ := of_not_takesOver h
  have hpress : KeyShell.key R press ⟨ls, some p⟩ key modifiers true = _ :=
    key_eq_perform (s := ⟨ls, some p⟩) hunlocked hhidden key modifiers true
  generalize hlift : (Parts.lift (some p) fun p => p.act R press.fork (dispatch key modifiers)) = r
  have hperform : perform R press (active ⟨ls, some p⟩) (dispatch key modifiers) =
      some (⟨ls.resetIdle, r.1⟩, r.2) := by
    rw [← hlift]
    exact perform_eq hlock hquit
  have hhidden' : r.1.any (·.launcher.visible) = false := by
    rw [← hlift]
    exact hidden_act hhidden hlauncher
  have hpanic : r.1.isNone = (p.act R press.fork (dispatch key modifiers)).isNone := by
    rw [← hlift]
    exact isNone_lift _
  rw [hperform] at hpress
  constructor
  · have hfirst : shortcut ⟨ls, some p⟩ key modifiers = [dispatch key modifiers] := by
      rw [shortcut]
      simp [hunlocked, hhidden, hnone]
    have hsecond : shortcut ⟨ls.resetIdle, r.1⟩ key modifiers =
        if r.1.isNone then [] else [dispatch key modifiers] := by
      have hunlocked' : ls.resetIdle.locked = false := hunlocked
      rw [shortcut]
      simp [hunlocked', hhidden', hnone]
    rw [performed, hpress]
    dsimp only
    rw [hfirst, hsecond, hpanic]
    split <;> rfl
  · have hrelease : KeyShell.key R release ⟨ls.resetIdle, r.1⟩ key modifiers false =
        perform R release ⟨ls.resetIdle, r.1⟩ (dispatch key modifiers) :=
      key_eq_perform (s := ⟨ls.resetIdle, r.1⟩) hunlocked hhidden' key modifiers false
    rw [pressRelease, performTwice, hpress, hperform, bind_some, bind_some]
    dsimp only
    rw [hrelease]

/-- What a press and its release should bring about: the bound action, once. -/
def bound (action : ShellAction) : List ShellAction := if action = .none then [] else [action]

/-- **A shortcut is performed once** by a press and its release, if and only if it opens the
launcher, locks the screen or ends the shell, or the shell panics; and then the two do what the
action does.  Otherwise they do it twice. -/
theorem shortcut_once_iff (hunlocked : ls.locked = false) (hhidden : p.launcher.visible = false)
    (key modifiers : UInt32) :
    (performed R press ⟨ls, some p⟩ key modifiers = bound (dispatch key modifiers) ↔
      takesOver (dispatch key modifiers) = true ∨
        p.act R press.fork (dispatch key modifiers) = none) ∧
    pressRelease R press release ⟨ls, some p⟩ key modifiers =
      if takesOver (dispatch key modifiers) then
        perform R press (active ⟨ls, some p⟩) (dispatch key modifiers)
      else performTwice R press release (active ⟨ls, some p⟩) (dispatch key modifiers) := by
  cases htakes : takesOver (dispatch key modifiers) with
  | true =>
    obtain ⟨honce, hstate⟩ := once_of_takesOver R press release hunlocked hhidden htakes
    refine ⟨iff_of_true (honce.trans ?_) (.inl rfl), ?_⟩
    · simp [shortcut, bound, hunlocked, hhidden]
    rw [hstate, if_pos rfl]
  | false =>
    obtain ⟨htwice, hstate⟩ := twice_of_not_takesOver R press release hunlocked hhidden htakes
    obtain ⟨-, -, -, hnone⟩ := of_not_takesOver htakes
    rw [htwice, hstate, bound, if_neg hnone, ← isNone_iff_eq_none]
    refine ⟨?_, rfl⟩
    cases (p.act R press.fork (dispatch key modifiers)).isNone <;> simp

end

/-! ## Super+F -/

/-- The other handlers do nothing, and the next process gets a number. -/
def quietEnv (pid : Nat) : KeyEnv Int32 where
  auth := ⟨none, none, fun _ _ => none⟩
  fork := some pid
  rest :=
    { new := fun sw sh => some (.new sw sh)
      notify := fun p _ => p
      launcherVisible := fun _ => false
      launcherKey := fun p _ _ => (p, [])
      act := fun p _ => (p, [])
      setCursor := fun p _ _ => p
      pointerMotion := fun p => (p, [])
      pointerButton := fun p _ _ => (p, [])
      surfaceCreated := fun p _ _ _ _ => (p, [])
      surfaceDestroyed := fun p _ => (p, [])
      tick := fun p => (p, []) }

def unlockedScreen : LockScreen := { LockScreen.new none with locked := false }

def oneWindow : Option (Parts Int32) :=
  let parts : Parts Int32 := .new 1920 1080
  (parts.wm.onSurfaceCreated WmManager.percent 7 640 480).map fun (wm, _) => { parts with wm := wm }

def windowStates (r : Option (KeyShell Int32 × List Request)) : List WmWindowState :=
  ((r.bind fun (s, _) => s.desktop).map fun p => p.wm.windows.list.map (·.state)).getD []

/-- Super+L is performed once. -/
theorem shortcut_once_lock :
    performed WmManager.percent (quietEnv 1) ⟨unlockedScreen, some (.new 1920 1080)⟩ Key.l
      modSuper = [.lockScreen] :=
  (shortcut_once_iff WmManager.percent (quietEnv 1) (quietEnv 2) rfl rfl Key.l modSuper).1.2
    (.inl rfl)

/-- **Super+F does nothing**: the press makes the window fullscreen, and the release undoes it. -/
theorem fullscreen_undone :
    performed WmManager.percent (quietEnv 1) ⟨unlockedScreen, oneWindow⟩ Key.f modSuper =
        [.toggleFullscreen, .toggleFullscreen] ∧
      windowStates (perform WmManager.percent (quietEnv 1) ⟨unlockedScreen, oneWindow⟩
        .toggleFullscreen) = [.fullscreen] ∧
      windowStates (pressRelease WmManager.percent (quietEnv 1) (quietEnv 2)
        ⟨unlockedScreen, oneWindow⟩ Key.f modSuper) = [.normal] := by
  decide +kernel

end KeyShell

end Shell
