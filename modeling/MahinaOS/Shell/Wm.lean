import MahinaOS.Lib.Keyed
import MahinaOS.Shell.Bsp
import MahinaOS.Shell.Desktop

/-!
# The window manager of the shell

`WmManager` in `luna-shell-rs/src/wm.rs` knows the windows, puts each on one of six workspaces, and
tells the compositor where they are, which are hidden and which has the focus.  This file has all
its operations; each returns the new state and the requests it sends, or `none` where the code
panics.  The crate is built in release mode, so that integers wrap.

The map of windows has no order: the requests of one operation for several windows are in the order
of the list here.  Where several title bars are under the pointer the code takes the last one it
comes across: `onPointerButton` gets that choice as an argument.

`WmOp` are the operations the rest of the shell uses, and `WmManager.step` is the window manager as
a state machine, in which a panic is the end.
-/

namespace Shell

open Compositor

def numWorkspaces : Nat := 6

def taskbarH : UInt32 := 32

/-- The dock and its bottom margin. -/
def dockH : UInt32 := 64 + 8

/-- `WmWindowState`. -/
inductive WmWindowState where
  | normal
  | maximized
  | fullscreen
  | minimized
  | hidden
  deriving DecidableEq, Repr

/-- `WindowInfo`, without the title. -/
structure WindowInfo where
  surfaceId : UInt32
  workspace : Fin numWorkspaces
  floating : Bool
  x : Int32
  y : Int32
  w : UInt32
  h : UInt32
  state : WmWindowState
  savedTiledX : Int32
  savedTiledY : Int32
  savedTiledW : UInt32
  savedTiledH : UInt32
  deriving DecidableEq, Repr

/-- `WindowInfo::set_position`. -/
def WindowInfo.setPosition (win : WindowInfo) : Request where
  msg := ⟨MsgType.wmSetSurfacePosition,
    writeU32Le win.surfaceId ++ writeU32Le win.x.toUInt32 ++ writeU32Le win.y.toUInt32⟩
  short := by simp [writeU32Le]

/-- `WmState::set_state` of the client library. -/
def setState (surfaceId wmState : UInt32) : Request where
  msg := ⟨MsgType.wmSetState, writeU32Le surfaceId ++ writeU32Le wmState⟩
  short := by simp [writeU32Le]

/-- `WmManager`. -/
structure WmManager (ρ : Type) where
  workspaces : Fin numWorkspaces → Workspace ρ
  activeWorkspace : Fin numWorkspaces
  windows : Keyed WindowInfo.surfaceId
  screenW : UInt32
  screenH : UInt32
  focusedSurface : Option UInt32
  dragOffset : Option (Int32 × Int32)
  dragSurface : Option UInt32

inductive SnapDir where
  | left
  | right
  | up
  | down
  deriving DecidableEq, Repr

namespace WmManager

variable {ρ : Type}

/-- `WmManager::new`. -/
def new (screenW screenH : UInt32) : WmManager ρ where
  workspaces _ := {}
  activeWorkspace := ⟨0, by decide⟩
  windows := .empty
  screenW := screenW
  screenH := screenH
  focusedSurface := none
  dragOffset := none
  dragSurface := none

variable (R : Ratios ρ) (wm : WmManager ρ)

/-- `self.screen_h - TASKBAR_H - DOCK_H`. -/
def workH : UInt32 := wm.screenH - taskbarH - dockH

def active : Workspace ρ := wm.workspaces wm.activeWorkspace

def modifyWorkspace (i : Fin numWorkspaces) (f : Workspace ρ → Workspace ρ) : WmManager ρ :=
  { wm with workspaces := Function.update wm.workspaces i (f (wm.workspaces i)) }

/-- A write through `self.windows.get_mut`. -/
def modifyWindow (sid : UInt32) (f : WindowInfo → WindowInfo) : WmManager ρ :=
  { wm with
    windows := wm.windows.map
      (fun win =>
        if win.surfaceId = sid then { f win with surfaceId := win.surfaceId } else win)
      (fun win => by split <;> rfl) }

/-! ## The layout -/

/-- `apply_layout` does not pass over the window. -/
def isLaidOut (win : WindowInfo) : Bool :=
  win.workspace == wm.activeWorkspace && win.state != .hidden && win.state != .minimized &&
    win.state != .fullscreen

def tile (rects : UInt32 → Option Rect) (win : WindowInfo) : WindowInfo :=
  if win.floating then win
  else
    match rects win.surfaceId with
    | none => win
    | some r =>
      { win with
        x := r.x
        y := r.y
        w := r.w
        h := r.h
        savedTiledX := r.x
        savedTiledY := r.y
        savedTiledW := r.w
        savedTiledH := r.h }

theorem surfaceId_tile (rects : UInt32 → Option Rect) (win : WindowInfo) :
    (tile rects win).surfaceId = win.surfaceId := by
  rw [tile]
  split
  · rfl
  · split <;> rfl

/-- The rectangles of the tiled windows, in the area between the taskbar and the dock. -/
def layoutRects : Option (UInt32 → Option Rect) :=
  match wm.active.root with
  | some root =>
    layoutBsp R root 0 taskbarH.toInt32 wm.screenW.toInt32 wm.workH.toInt32 fun _ => none
  | none => some fun _ => none

/-- What `apply_layout` does to a window. -/
def place (rects : UInt32 → Option Rect) (win : WindowInfo) : WindowInfo :=
  if wm.isLaidOut win then tile rects win else win

theorem surfaceId_place (rects : UInt32 → Option Rect) (win : WindowInfo) :
    (wm.place rects win).surfaceId = win.surfaceId := by
  rw [place]
  split
  · exact surfaceId_tile rects win
  · rfl

/-- `WmManager::apply_layout`. -/
def applyLayout : Option (WmManager ρ × List Request) :=
  (wm.layoutRects R).map fun rects =>
    let windows := wm.windows.map (wm.place rects) (wm.surfaceId_place rects)
    ({ wm with windows := windows }, (windows.list.filter wm.isLaidOut).map (·.setPosition))

/-- `apply_layout` with requests sent before it. -/
def layoutAfter (requests : List Request) : Option (WmManager ρ × List Request) :=
  (wm.applyLayout R).map fun (wm, more) => (wm, requests ++ more)

/-! ## Operations -/

/-- The entry of a new window, which floats in the middle of the active workspace. -/
def newWindow (surfaceId width height : UInt32) : WindowInfo :=
  let fw := min width wm.screenW
  let fh := min height wm.workH
  { surfaceId := surfaceId
    workspace := wm.activeWorkspace
    floating := true
    x := ((wm.screenW - fw) / 2).toInt32
    y := taskbarH.toInt32 + ((wm.workH - fh) / 2).toInt32
    w := fw
    h := fh
    state := .normal
    savedTiledX := 0
    savedTiledY := 0
    savedTiledW := wm.screenW
    savedTiledH := wm.workH }

/-- The tables with a new window, which has the focus. -/
def addWindow (surfaceId width height : UInt32) : WmManager ρ :=
  { wm with
    windows := wm.windows.insert (wm.newWindow surfaceId width height)
    focusedSurface := some surfaceId }.modifyWorkspace wm.activeWorkspace (·.insert R surfaceId)

/-- `WmManager::on_surface_created`; the type is not used. -/
def onSurfaceCreated (surfaceId width height : UInt32) : Option (WmManager ρ × List Request) :=
  ((wm.addWindow R surfaceId width height).applyLayout R).map fun (wm, requests) =>
    (wm, requests ++ [setFocus surfaceId])

/-- `WmManager::on_surface_destroyed`. -/
def onSurfaceDestroyed (surfaceId : UInt32) : Option (WmManager ρ × List Request) :=
  let wm := match wm.windows.get surfaceId with
    | some win =>
      { wm with windows := wm.windows.erase surfaceId }.modifyWorkspace win.workspace
        (·.remove surfaceId)
    | none => wm
  if wm.focusedSurface = some surfaceId then
    let newFocus := wm.active.leaves.head?
    { wm with focusedSurface := newFocus }.layoutAfter R (newFocus.map setFocus).toList
  else wm.layoutAfter R []

/-- The request of `switch_workspace` for a window. -/
def switchRequest (oldWs newWs : Fin numWorkspaces) (win : WindowInfo) : Option Request :=
  if win.workspace = oldWs then some (setState win.surfaceId WmState.hidden)
  else if win.workspace = newWs then some (setState win.surfaceId WmState.normal)
  else none

/-- `WmManager::switch_workspace`. -/
def switchWorkspace (idx : Nat) : Option (WmManager ρ × List Request) :=
  if h : idx < numWorkspaces then
    let newWs : Fin numWorkspaces := ⟨idx, h⟩
    if newWs = wm.activeWorkspace then some (wm, [])
    else
      let requests := wm.windows.list.filterMap (switchRequest wm.activeWorkspace newWs)
      let focus := (wm.workspaces newWs).focused
      { wm with activeWorkspace := newWs, focusedSurface := focus }.layoutAfter R
        (requests ++ (focus.map setFocus).toList)
  else some (wm, [])

/-- `WmManager::move_focused_to_workspace`. -/
def moveFocusedToWorkspace (idx : Nat) : Option (WmManager ρ × List Request) :=
  match wm.focusedSurface with
  | none => some (wm, [])
  | some sid =>
    if h : idx < numWorkspaces then
      let newWs : Fin numWorkspaces := ⟨idx, h⟩
      match wm.windows.get sid with
      | none => some (wm, [])
      | some win =>
        if win.workspace = newWs then some (wm, [])
        else
          let wm := wm.modifyWorkspace win.workspace (·.remove sid)
          let wm := wm.modifyWindow sid ({ · with workspace := newWs })
          let wm := wm.modifyWorkspace newWs (·.insert R sid)
          { wm with focusedSurface := wm.active.leaves.head? }.layoutAfter R
            [setState sid WmState.hidden]
    else some (wm, [])

/-- A window that starts or stops to float. -/
def toggleFloat (win : WindowInfo) : WindowInfo :=
  if !win.floating then
    let fw := wm.screenW * 2 / 3
    let fh := wm.workH * 2 / 3
    { win with
      floating := true
      savedTiledX := win.x
      savedTiledY := win.y
      savedTiledW := win.w
      savedTiledH := win.h
      x := ((wm.screenW - fw) / 2).toInt32
      y := taskbarH.toInt32 + ((wm.workH - fh) / 2).toInt32
      w := fw
      h := fh }
  else
    { win with
      floating := false
      x := win.savedTiledX
      y := win.savedTiledY
      w := win.savedTiledW
      h := win.savedTiledH }

/-- `WmManager::toggle_floating`. -/
def toggleFloating : Option (WmManager ρ × List Request) :=
  match wm.focusedSurface with
  | none => some (wm, [])
  | some sid => (wm.modifyWindow sid wm.toggleFloat).applyLayout R

/-- `WmManager::toggle_fullscreen`; there is no new layout when a window becomes fullscreen. -/
def toggleFullscreen : Option (WmManager ρ × List Request) :=
  match wm.focusedSurface with
  | none => some (wm, [])
  | some sid =>
    match wm.windows.get sid with
    | none => wm.applyLayout R
    | some win =>
      if win.state = .fullscreen then
        (wm.modifyWindow sid ({ · with state := .normal })).layoutAfter R
          [setState sid WmState.normal]
      else
        let full : WindowInfo :=
          { win with state := .fullscreen, x := 0, y := 0, w := wm.screenW, h := wm.screenH }
        some (wm.modifyWindow sid fun _ => full,
          [setState sid WmState.fullscreen, full.setPosition])

/-- The window gets the focus, of the shell and of the active workspace. -/
def giveFocus (f : UInt32) : WmManager ρ × List Request :=
  ({ wm with focusedSurface := some f }.modifyWorkspace wm.activeWorkspace
    ({ · with focused := some f }), [setFocus f])

/-- `WmManager::focus_next`. -/
def focusNext : WmManager ρ × List Request :=
  match (wm.focusedSurface.bind wm.active.nextAfter).or wm.active.leaves.head? with
  | some f => wm.giveFocus f
  | none => (wm, [])

/-- `WmManager::focus_prev`. -/
def focusPrev : WmManager ρ × List Request :=
  match (wm.focusedSurface.bind wm.active.prevBefore).or wm.active.leaves.getLast? with
  | some f => wm.giveFocus f
  | none => (wm, [])

/-- `WmManager::focus_surface`. -/
def focusSurface (surfaceId : UInt32) : WmManager ρ × List Request :=
  if (wm.windows.get surfaceId).isSome then wm.giveFocus surfaceId else (wm, [])

/-- Where a window goes that is snapped. -/
def snapped (direction : SnapDir) (win : WindowInfo) : WindowInfo :=
  let workY := taskbarH.toInt32
  let workH := wm.workH.toInt32
  let workW := wm.screenW.toInt32
  let halfW := workW / 2
  let win := { win with floating := true }
  match direction with
  | .left => { win with x := 0, y := workY, w := halfW.toUInt32, h := workH.toUInt32 }
  | .right => { win with x := halfW, y := workY, w := halfW.toUInt32, h := workH.toUInt32 }
  | .up => { win with x := 0, y := workY, w := workW.toUInt32, h := workH.toUInt32 }
  | .down =>
    let fw := (workW * 2 / 3).toUInt32
    let fh := (workH * 2 / 3).toUInt32
    { win with
      x := (workW.toUInt32 - fw).toInt32 / 2
      y := workY + (workH.toUInt32 - fh).toInt32 / 2
      w := fw
      h := fh }

/-- `WmManager::snap`. -/
def snap (direction : SnapDir) : WmManager ρ × List Request :=
  match wm.focusedSurface with
  | none => (wm, [])
  | some sid =>
    let wm := wm.modifyWindow sid (wm.snapped direction)
    (wm, (wm.windows.get sid).toList.map (·.setPosition))

/-- `WmManager::resize_split`. -/
def resizeSplit (grow : Bool) : Option (WmManager ρ × List Request) :=
  match wm.focusedSurface with
  | none => some (wm, [])
  | some sid =>
    (wm.modifyWorkspace wm.activeWorkspace fun ws =>
      { ws with root := ws.root.map (adjustRatio R sid grow) }).applyLayout R

/-- `WmManager::on_pointer_motion`, at a position already cast to integers. -/
def onPointerMotion (x y : Int32) : WmManager ρ × List Request :=
  match wm.dragSurface, wm.dragOffset with
  | some sid, some (dx, dy) =>
    match wm.windows.get sid with
    | some win =>
      if win.floating then
        let moved := { win with x := x - dx, y := y - dy }
        (wm.modifyWindow sid fun _ => moved, [moved.setPosition])
      else (wm, [])
    | none => (wm, [])
  | _, _ => (wm, [])

/-- The point is on the title bar of a floating window of the active workspace. -/
def titleHit (x y : Int32) (win : WindowInfo) : Bool :=
  win.workspace == wm.activeWorkspace && win.floating && x ≥ win.x && x < win.x + win.w.toInt32 &&
    y ≥ win.y - 24 && y < win.y

/-- `WmManager::on_pointer_button`.  Of the title bars under the pointer, `choice` says which one is
the last. -/
def onPointerButton (x y : Int32) (pressed : Bool) (choice : Nat) : WmManager ρ × List Request :=
  if !pressed then ({ wm with dragSurface := none, dragOffset := none }, [])
  else
    let hits := wm.windows.list.filter (wm.titleHit x y)
    match hits[choice % hits.length]? with
    | some win =>
      { wm with
        dragSurface := some win.surfaceId
        dragOffset := some (x - win.x, y - (win.y - 24)) }.focusSurface win.surfaceId
    | none => (wm, [])

end WmManager

/-! ## The state machine -/

/-- What the rest of the shell asks of the window manager. -/
inductive WmOp where
  | surfaceCreated (surfaceId width height : UInt32)
  | surfaceDestroyed (surfaceId : UInt32)
  | switchWorkspace (idx : Nat)
  | moveFocusedToWorkspace (idx : Nat)
  | toggleFloating
  | toggleFullscreen
  | focusNext
  | focusPrev
  | snap (direction : SnapDir)
  | resizeSplit (grow : Bool)
  | pointerMotion (x y : Int32)
  | pointerButton (x y : Int32) (pressed : Bool) (choice : Nat)
  deriving DecidableEq, Repr

variable {ρ : Type}

def WmManager.apply (R : Ratios ρ) (wm : WmManager ρ) : WmOp → Option (WmManager ρ × List Request)
  | .surfaceCreated surfaceId width height => wm.onSurfaceCreated R surfaceId width height
  | .surfaceDestroyed surfaceId => wm.onSurfaceDestroyed R surfaceId
  | .switchWorkspace idx => wm.switchWorkspace R idx
  | .moveFocusedToWorkspace idx => wm.moveFocusedToWorkspace R idx
  | .toggleFloating => wm.toggleFloating R
  | .toggleFullscreen => wm.toggleFullscreen R
  | .focusNext => some wm.focusNext
  | .focusPrev => some wm.focusPrev
  | .snap direction => some (wm.snap direction)
  | .resizeSplit grow => wm.resizeSplit R grow
  | .pointerMotion x y => some (wm.onPointerMotion x y)
  | .pointerButton x y pressed choice => some (wm.onPointerButton x y pressed choice)

/-- The window manager as a state machine; `none` is the shell after a panic. -/
def WmManager.step (R : Ratios ρ) (s : Option (WmManager ρ)) (op : WmOp) : Option (WmManager ρ) :=
  s.bind fun wm => (wm.apply R op).map Prod.fst

end Shell
