import MahinaOS.Shell.Wm

/-!
# Every window is on its workspace

The window manager has three records of where a window is: the workspace in its entry, the tree of
that workspace, and the two places where the focus is kept.  This file shows that they agree in
every run of the operations of `MahinaOS.Shell.Wm`.

* `Placed`: the trees and the table of windows agree.  A window enters and leaves both together
  (`Placed.insert`, `Placed.erase`), and a move is to leave and to enter again.
* `WmManager.Agrees` adds that the focus of the shell is on a window of the active workspace.  The
  insertion into a tree needs the focus of its workspace, which is part of `Workspace.Sound`.
* **`WmManager.agrees_run`**: they agree after any operations.
-/

namespace Shell

open Run List Function Option

variable {ρ : Type}

/-! ## Trees and the table of windows -/

/-- The table has the window on this workspace. -/
def OnWorkspace (windows : Keyed WindowInfo.surfaceId) (sid : UInt32) (i : Fin numWorkspaces) :
    Prop :=
  ∃ win ∈ windows.list, win.surfaceId = sid ∧ win.workspace = i

/-- The windows in the tree of a workspace are those that the table has there. -/
structure Placed (workspaces : Fin numWorkspaces → Workspace ρ)
    (windows : Keyed WindowInfo.surfaceId) : Prop where
  sound : ∀ i, (workspaces i).Sound
  leaves : ∀ i sid, sid ∈ (workspaces i).leaves ↔ OnWorkspace windows sid i

section

variable {windows : Keyed WindowInfo.surfaceId} {sid : UInt32} {i : Fin numWorkspaces}
  {win : WindowInfo}

/-- A change of the windows that leaves them on their workspaces. -/
theorem onWorkspace_map {f : WindowInfo → WindowInfo}
    (hf : ∀ win, (f win).surfaceId = win.surfaceId)
    (hws : ∀ win, (f win).workspace = win.workspace) (sid : UInt32) (i : Fin numWorkspaces) :
    OnWorkspace (windows.map f hf) sid i ↔ OnWorkspace windows sid i := by
  constructor
  · rintro ⟨_, hmem, hid, hi⟩
    obtain ⟨win, hwin, rfl⟩ := Keyed.mem_map.1 hmem
    exact ⟨win, hwin, (hf win).symm.trans hid, (hws win).symm.trans hi⟩
  · rintro ⟨win, hwin, hid, hi⟩
    exact ⟨f win, Keyed.mem_map.2 ⟨win, hwin, rfl⟩, (hf win).trans hid, (hws win).trans hi⟩

theorem onWorkspace_erase {gone : UInt32} :
    OnWorkspace (windows.erase gone) sid i ↔ OnWorkspace windows sid i ∧ sid ≠ gone := by
  constructor
  · rintro ⟨win, hwin, rfl, hi⟩
    obtain ⟨hmem, hne⟩ := Keyed.mem_erase.1 hwin
    exact ⟨⟨win, hmem, rfl, hi⟩, hne⟩
  · rintro ⟨⟨win, hwin, rfl, hi⟩, hne⟩
    exact ⟨win, Keyed.mem_erase.2 ⟨hwin, hne⟩, rfl, hi⟩

theorem onWorkspace_insert :
    OnWorkspace (windows.insert win) sid i ↔
      sid = win.surfaceId ∧ win.workspace = i ∨
        OnWorkspace windows sid i ∧ sid ≠ win.surfaceId := by
  constructor
  · rintro ⟨win', hwin, rfl, hi⟩
    rcases Keyed.mem_insert.1 hwin with rfl | ⟨hmem, hne⟩
    · exact .inl ⟨rfl, hi⟩
    · exact .inr ⟨⟨win', hmem, rfl, hi⟩, hne⟩
  · rintro (⟨rfl, hi⟩ | ⟨⟨win', hwin, rfl, hi⟩, hne⟩)
    · exact ⟨win, Keyed.mem_insert.2 (.inl rfl), rfl, hi⟩
    · exact ⟨win', Keyed.mem_insert.2 (.inr ⟨hwin, hne⟩), rfl, hi⟩

theorem OnWorkspace.eq (hget : windows.get sid = some win) (h : OnWorkspace windows sid i) :
    i = win.workspace := by
  obtain ⟨hmem, hid⟩ := Keyed.get_eq_some.1 hget
  obtain ⟨win', hmem', hid', rfl⟩ := h
  rw [inj_on_of_nodup_map windows.nodup hmem' hmem (hid'.trans hid.symm)]

end

namespace Placed

variable {workspaces : Fin numWorkspaces → Workspace ρ} {windows : Keyed WindowInfo.surfaceId}
  {windows' : Keyed WindowInfo.surfaceId}

section

variable (h : Placed workspaces windows)

include h

theorem congr (hon : ∀ sid i, OnWorkspace windows' sid i ↔ OnWorkspace windows sid i) :
    Placed workspaces windows' :=
  ⟨h.sound, fun i sid => (h.leaves i sid).trans (hon sid i).symm⟩

/-- A write to a workspace, and what the table has there afterwards. -/
theorem update {i : Fin numWorkspaces} {ws : Workspace ρ}
    (hsound : ws.Sound) (hi : ∀ sid, sid ∈ ws.leaves ↔ OnWorkspace windows' sid i)
    (hother : ∀ j sid, j ≠ i → (OnWorkspace windows' sid j ↔ OnWorkspace windows sid j)) :
    Placed (update workspaces i ws) windows' := by
  refine ⟨fun j => ?_, fun j sid => ?_⟩
  · by_cases hj : j = i
    · rw [hj, update_self]
      exact hsound
    · rw [update_of_ne hj]
      exact h.sound j
  · by_cases hj : j = i
    · rw [hj, update_self]
      exact hi sid
    · rw [update_of_ne hj, hother j sid hj]
      exact h.leaves j sid

/-- A window leaves the table and the tree of its workspace. -/
theorem erase {win : WindowInfo} {sid : UInt32} (hget : windows.get sid = some win) :
    Placed (Function.update workspaces win.workspace ((workspaces win.workspace).remove sid))
      (windows.erase sid) := by
  refine h.update ((h.sound _).remove sid) (fun f => ?_) fun j f hj => ?_
  · rw [Workspace.mem_leaves_remove, onWorkspace_erase, h.leaves]
  · rw [onWorkspace_erase]
    refine and_iff_left_of_imp fun hon heq => hj ?_
    subst heq
    exact OnWorkspace.eq hget hon

/-- A new window enters the table and the tree of its workspace. -/
theorem insert (R : Ratios ρ) (win : WindowInfo) (hnew : windows.get win.surfaceId = none) :
    Placed (Function.update workspaces win.workspace
        ((workspaces win.workspace).insert R win.surfaceId))
      (windows.insert win) := by
  have hne : ∀ {f j}, OnWorkspace windows f j → f ≠ win.surfaceId := by
    rintro f j ⟨win', hmem, rfl, -⟩
    exact Keyed.get_eq_none.1 hnew win' hmem
  refine h.update ?_ (fun f => ?_) fun j f hj => ?_
  · exact (h.sound _).insert R fun hmem => hne ((h.leaves _ _).1 hmem) rfl
  · rw [(Workspace.leaves_insert R (h.sound _) _).mem_iff, mem_cons, h.leaves,
      onWorkspace_insert, and_iff_left rfl, and_iff_left_of_imp hne]
  · rw [onWorkspace_insert, and_iff_left_of_imp hne]
    exact or_iff_right fun hwin => hj hwin.2.symm

end

end Placed

/-! ## The focus -/

namespace WmManager

/-- All records of where a window is agree. -/
structure Agrees (wm : WmManager ρ) : Prop where
  placed : Placed wm.workspaces wm.windows
  focused : ∀ f, wm.focusedSurface = some f → f ∈ wm.active.leaves

theorem agrees_new (screenW screenH : UInt32) : (new screenW screenH : WmManager ρ).Agrees where
  placed := by
    refine ⟨fun _ => Workspace.sound_new, fun i sid => iff_of_false not_mem_nil ?_⟩
    rintro ⟨win, hwin, -⟩
    exact not_mem_nil hwin
  focused f hf := by cases hf

/-- What an operation returns, if it does not panic, agrees. -/
def Keeps (result : Option (WmManager ρ × List Request)) : Prop := ∀ r ∈ result, r.1.Agrees

theorem keeps_some {r : WmManager ρ × List Request} (h : r.1.Agrees) : Keeps (some r) := by
  intro r' hr
  cases hr
  exact h

variable {wm : WmManager ρ} {f : WindowInfo → WindowInfo} {sid surfaceId : UInt32}
  {i : Fin numWorkspaces} {win : WindowInfo}

theorem Agrees.windows (h : wm.Agrees) (hf : ∀ win, (f win).surfaceId = win.surfaceId)
    (hws : ∀ win, (f win).workspace = win.workspace) :
    Agrees { wm with windows := wm.windows.map f hf } :=
  ⟨h.placed.congr (onWorkspace_map hf hws), h.focused⟩

theorem onWorkspace_modifyWindow {id : UInt32} :
    OnWorkspace (wm.modifyWindow sid f).windows id i ↔
      ∃ win ∈ wm.windows.list, win.surfaceId = id ∧
        (if win.surfaceId = sid then (f win).workspace else win.workspace) = i := by
  constructor
  · rintro ⟨_, hmem, rfl, rfl⟩
    obtain ⟨win, hwin, rfl⟩ := mem_map.1 hmem
    refine ⟨win, hwin, ?_⟩
    split
    · exact ⟨rfl, rfl⟩
    · exact ⟨rfl, rfl⟩
  · rintro ⟨win, hwin, rfl, rfl⟩
    refine ⟨_, mem_map_of_mem hwin, ?_⟩
    split
    · exact ⟨rfl, rfl⟩
    · exact ⟨rfl, rfl⟩

theorem Agrees.modifyWindow (h : wm.Agrees) (sid : UInt32)
    (hf : ∀ win, wm.windows.get sid = some win → (f win).workspace = win.workspace) :
    (wm.modifyWindow sid f).Agrees := by
  refine ⟨h.placed.congr fun id i => ?_, h.focused⟩
  rw [onWorkspace_modifyWindow]
  refine exists_congr fun win => and_congr_right fun hwin => and_congr_right fun _ => ?_
  split
  · next hsid => rw [hf win (Keyed.get_eq_some.2 ⟨hwin, hsid⟩)]
  · rfl

theorem Agrees.replaceWindow (h : wm.Agrees) {win' : WindowInfo}
    (hget : wm.windows.get sid = some win) (hws : win'.workspace = win.workspace) :
    (wm.modifyWindow sid fun _ => win').Agrees := by
  refine h.modifyWindow sid fun other hother => ?_
  rw [hget] at hother
  cases hother
  exact hws

theorem Agrees.modifyWorkspace (h : wm.Agrees) {f : Workspace ρ → Workspace ρ}
    (hsound : (f (wm.workspaces i)).Sound)
    (hleaves : (f (wm.workspaces i)).leaves = (wm.workspaces i).leaves) :
    (wm.modifyWorkspace i f).Agrees := by
  refine ⟨h.placed.update hsound (fun sid => ?_) fun _ _ _ => Iff.rfl, fun g hg => ?_⟩
  · rw [hleaves]
    exact h.placed.leaves i sid
  · have hmem : g ∈ (wm.workspaces wm.activeWorkspace).leaves := h.focused g hg
    show g ∈ (update wm.workspaces i _ wm.activeWorkspace).leaves
    by_cases hi : wm.activeWorkspace = i
    · rw [hi, update_self, hleaves, ← hi]
      exact hmem
    · rw [update_of_ne hi]
      exact hmem

theorem workspace_place (rects : UInt32 → Option Rect) (win : WindowInfo) :
    (wm.place rects win).workspace = win.workspace := by
  rw [place, tile]
  split
  · split
    · rfl
    · split <;> rfl
  · rfl

section

variable (R : Ratios ρ) (h : wm.Agrees)

include h

theorem Agrees.applyLayout : Keeps (wm.applyLayout R) := by
  intro r hr
  obtain ⟨rects, -, rfl⟩ := map_eq_some_iff.1 hr
  exact h.windows _ (workspace_place rects)

theorem Agrees.layoutAfter (requests : List Request) : Keeps (wm.layoutAfter R requests) := by
  intro r hr
  obtain ⟨r', hr', rfl⟩ := map_eq_some_iff.1 hr
  exact h.applyLayout R r' hr'

theorem Agrees.giveFocus {f : UInt32} (hf : f ∈ wm.active.leaves) : (wm.giveFocus f).1.Agrees := by
  have hfocus : Agrees { wm with focusedSurface := some f } := by
    refine ⟨h.placed, fun g hg => ?_⟩
    cases hg
    exact hf
  have hsound := (h.placed.sound wm.activeWorkspace).focus hf
  exact hfocus.modifyWorkspace (f := ({ · with focused := some f })) hsound rfl

/-! ## The operations -/

theorem Agrees.addWindow (hnew : wm.windows.get surfaceId = none) (width height : UInt32) :
    (wm.addWindow R surfaceId width height).Agrees := by
  have hplaced := h.placed.insert R (wm.newWindow surfaceId width height) hnew
  refine ⟨hplaced, fun f hf => ?_⟩
  cases hf
  exact (hplaced.leaves _ surfaceId).2 (onWorkspace_insert.2 (.inl ⟨rfl, rfl⟩))

theorem Agrees.onSurfaceCreated (hnew : wm.windows.get surfaceId = none) (width height : UInt32) :
    Keeps (wm.onSurfaceCreated R surfaceId width height) := by
  intro r hr
  obtain ⟨r', hr', rfl⟩ := map_eq_some_iff.1 hr
  exact (h.addWindow R hnew width height).applyLayout R r' hr'

omit h in
/-- The focus of the shell goes to the first window of the active workspace. -/
theorem Agrees.refocus (hplaced : Placed wm.workspaces wm.windows) :
    Agrees { wm with focusedSurface := wm.active.leaves.head? } :=
  ⟨hplaced, fun _ hf => mem_of_head? hf⟩

theorem Agrees.onSurfaceDestroyed (surfaceId : UInt32) :
    Keeps (wm.onSurfaceDestroyed R surfaceId) := by
  rw [WmManager.onSurfaceDestroyed]
  rcases hget : wm.windows.get surfaceId with - | win
  · dsimp only
    split
    · exact (Agrees.refocus h.placed).layoutAfter R _
    · exact h.layoutAfter R _
  · have hplaced := h.placed.erase hget
    dsimp only
    split
    · exact Agrees.layoutAfter R (Agrees.refocus hplaced) _
    · next hother =>
      refine Agrees.layoutAfter R ⟨hplaced, fun f hf => ?_⟩ _
      -- the window in focus is another one, and it is still in the table
      have hon : OnWorkspace wm.windows f wm.activeWorkspace :=
        (h.placed.leaves _ f).1 (h.focused f hf)
      exact (hplaced.leaves _ f).2 (onWorkspace_erase.2 ⟨hon, fun heq => hother (heq ▸ hf)⟩)

theorem Agrees.switchWorkspace (idx : Nat) : Keeps (wm.switchWorkspace R idx) := by
  rw [WmManager.switchWorkspace]
  split
  · next hidx =>
    dsimp only
    split
    · exact keeps_some h
    · have hswitched : Agrees { wm with
          activeWorkspace := ⟨idx, hidx⟩
          focusedSurface := (wm.workspaces ⟨idx, hidx⟩).focused } :=
        ⟨h.placed, (h.placed.sound ⟨idx, hidx⟩).focused⟩
      exact hswitched.layoutAfter R _
  · exact keeps_some h

omit h in
theorem onWorkspace_move (hget : wm.windows.get sid = some win) (newWs : Fin numWorkspaces)
    (f : UInt32) (i : Fin numWorkspaces) :
    OnWorkspace (wm.modifyWindow sid ({ · with workspace := newWs })).windows f i ↔
      OnWorkspace ((wm.windows.erase sid).insert { win with workspace := newWs }) f i := by
  obtain ⟨hwin, hid⟩ := Keyed.get_eq_some.1 hget
  rw [onWorkspace_modifyWindow, onWorkspace_insert, onWorkspace_erase]
  constructor
  · rintro ⟨win', hwin', rfl, rfl⟩
    split
    · next hsid => exact .inl ⟨hsid.trans hid.symm, rfl⟩
    · next hsid => exact .inr ⟨⟨⟨win', hwin', rfl, rfl⟩, hsid⟩, fun heq => hsid (heq.trans hid)⟩
  · rintro (⟨rfl, rfl⟩ | ⟨⟨⟨win', hwin', rfl, rfl⟩, hne⟩, -⟩)
    · exact ⟨win, hwin, rfl, if_pos hid⟩
    · exact ⟨win', hwin', rfl, if_neg hne⟩

theorem Agrees.placed_move (hget : wm.windows.get sid = some win) (newWs : Fin numWorkspaces) :
    Placed
      ((wm.modifyWorkspace win.workspace (·.remove sid)).modifyWorkspace newWs
        (·.insert R sid)).workspaces
      (wm.modifyWindow sid ({ · with workspace := newWs })).windows := by
  have hid : win.surfaceId = sid := (Keyed.get_eq_some.1 hget).2
  have hgone : (wm.windows.erase sid).get win.surfaceId = none :=
    Keyed.get_eq_none.2 fun win' hmem => hid ▸ (Keyed.mem_erase.1 hmem).2
  have hplaced := (h.placed.erase hget).insert R { win with workspace := newWs } hgone
  subst hid
  exact hplaced.congr (onWorkspace_move hget newWs)

theorem Agrees.moveFocusedToWorkspace (idx : Nat) : Keeps (wm.moveFocusedToWorkspace R idx) := by
  rw [WmManager.moveFocusedToWorkspace]
  split
  · exact keeps_some h
  · next sid _ =>
    split
    · next hidx =>
      dsimp only
      split
      · exact keeps_some h
      · next win hget =>
        split
        · exact keeps_some h
        · exact Agrees.layoutAfter R (Agrees.refocus (h.placed_move R hget ⟨idx, hidx⟩)) _
    · exact keeps_some h

omit h in
theorem workspace_toggleFloat (win : WindowInfo) :
    (wm.toggleFloat win).workspace = win.workspace := by
  rw [toggleFloat]
  split <;> rfl

theorem Agrees.toggleFloating : Keeps (wm.toggleFloating R) := by
  rw [WmManager.toggleFloating]
  split
  · exact keeps_some h
  · next sid _ => exact (h.modifyWindow sid fun win _ => workspace_toggleFloat win).applyLayout R

theorem Agrees.toggleFullscreen : Keeps (wm.toggleFullscreen R) := by
  rw [WmManager.toggleFullscreen]
  split
  · exact keeps_some h
  · next sid _ =>
    split
    · exact h.applyLayout R
    · next win hget =>
      split
      · refine Agrees.layoutAfter R ?_ _
        exact h.modifyWindow sid fun _ _ => rfl
      · exact keeps_some (h.replaceWindow hget rfl)

omit h in
/-- The focus goes round the windows of the active workspace: from the one that has it, or else to
the end of the row. -/
theorem mem_of_neighbour {next : UInt32 → Option UInt32} {last : Option UInt32} {f : UInt32}
    (hnext : ∀ current f, next current = some f → f ∈ wm.active.leaves)
    (hlast : ∀ f, last = some f → f ∈ wm.active.leaves)
    (h : (wm.focusedSurface.bind next).or last = some f) : f ∈ wm.active.leaves := by
  rcases or_eq_some_iff.1 h with h | ⟨-, h⟩
  · obtain ⟨current, -, h⟩ := bind_eq_some_iff.1 h
    exact hnext current f h
  · exact hlast f h

theorem Agrees.focusNext : wm.focusNext.1.Agrees := by
  rw [WmManager.focusNext]
  split
  · next hf =>
    exact h.giveFocus (mem_of_neighbour (fun _ _ => Workspace.mem_of_nextAfter)
      (fun _ => mem_of_head?) hf)
  · exact h

theorem Agrees.focusPrev : wm.focusPrev.1.Agrees := by
  rw [WmManager.focusPrev]
  split
  · next hf =>
    exact h.giveFocus (mem_of_neighbour (fun _ _ => Workspace.mem_of_prevBefore)
      (fun _ => mem_of_getLast?) hf)
  · exact h

theorem Agrees.snap (direction : SnapDir) : (wm.snap direction).1.Agrees := by
  rw [WmManager.snap]
  split
  · exact h
  · next sid _ => exact h.modifyWindow sid fun win _ => by cases direction <;> rfl

theorem Agrees.resizeSplit (grow : Bool) : Keeps (wm.resizeSplit R grow) := by
  rw [WmManager.resizeSplit]
  split
  · exact keeps_some h
  · next sid _ =>
    have hadjust := (h.placed.sound wm.activeWorkspace).adjust R sid grow
    exact (h.modifyWorkspace hadjust (Workspace.leaves_adjust R _ sid grow)).applyLayout R

theorem Agrees.onPointerMotion (x y : Int32) : (wm.onPointerMotion x y).1.Agrees := by
  rw [WmManager.onPointerMotion]
  split
  · split
    · next hget =>
      split
      · exact h.replaceWindow hget rfl
      · exact h
    · exact h
  · exact h

/-- A click gives the focus to a window only where it can be seen. -/
theorem Agrees.onPointerButton (x y : Int32) (pressed : Bool) (choice : Nat) :
    (wm.onPointerButton x y pressed choice).1.Agrees := by
  rw [WmManager.onPointerButton]
  split
  · exact ⟨h.placed, h.focused⟩
  · dsimp only
    split
    · next win hwin =>
      obtain ⟨hmem, hhit⟩ := mem_filter.1 (mem_of_getElem? hwin)
      have hactive : win.workspace = wm.activeWorkspace := by
        simp only [titleHit, Bool.and_eq_true, beq_iff_eq] at hhit
        exact hhit.1.1.1.1.1
      have hdrag : Agrees { wm with
          dragSurface := some win.surfaceId
          dragOffset := some (x - win.x, y - (win.y - 24)) } := ⟨h.placed, h.focused⟩
      rw [focusSurface]
      split
      · exact hdrag.giveFocus ((h.placed.leaves _ _).2 ⟨win, hmem, rfl, hactive⟩)
      · exact hdrag
    · exact h

end

/-! ## Runs -/

/-- A window that is announced is not known yet. -/
def Announces (s : Option (WmManager ρ)) : WmOp → Prop
  | .surfaceCreated surfaceId _ _ => ∀ wm ∈ s, wm.windows.get surfaceId = none
  | _ => True

instance (s : Option (WmManager ρ)) (op : WmOp) : Decidable (Announces s op) := by
  unfold Announces
  split <;> infer_instance

theorem Agrees.apply (R : Ratios ρ) (h : wm.Agrees) (op : WmOp) (hnew : Announces (some wm) op) :
    Keeps (wm.apply R op) := by
  cases op with
  | surfaceCreated surfaceId width height =>
    exact h.onSurfaceCreated R (hnew wm rfl) width height
  | surfaceDestroyed surfaceId => exact h.onSurfaceDestroyed R surfaceId
  | switchWorkspace idx => exact h.switchWorkspace R idx
  | moveFocusedToWorkspace idx => exact h.moveFocusedToWorkspace R idx
  | toggleFloating => exact h.toggleFloating R
  | toggleFullscreen => exact h.toggleFullscreen R
  | focusNext => exact keeps_some h.focusNext
  | focusPrev => exact keeps_some h.focusPrev
  | snap direction => exact keeps_some (h.snap direction)
  | resizeSplit grow => exact h.resizeSplit R grow
  | pointerMotion x y => exact keeps_some (h.onPointerMotion x y)
  | pointerButton x y pressed choice => exact keeps_some (h.onPointerButton x y pressed choice)

theorem agrees_step (R : Ratios ρ) (s : Option (WmManager ρ)) (op : WmOp)
    (h : ∀ wm ∈ s, wm.Agrees) (hnew : Announces s op) : ∀ wm ∈ step R s op, wm.Agrees := by
  intro wm' hwm'
  obtain ⟨wm, rfl, happly⟩ := bind_eq_some_iff.1 hwm'
  obtain ⟨r, hr, rfl⟩ := map_eq_some_iff.1 happly
  exact (h wm rfl).apply R op hnew r hr

/-- **The records of where a window is agree in every run.**  Whatever ratios are, for every screen
and all operations: in the tree of a workspace are, once each, the windows that the table has there;
the focus of a workspace is one of them, if there is any; and the focus of the shell is on a window
of the active workspace or on none. -/
theorem agrees_run (R : Ratios ρ) (screenW screenH : UInt32) {ops : List WmOp}
    (hnew : Along (step R) Announces (some (new screenW screenH)) ops) {wm : WmManager ρ}
    (hwm : run (step R) (some (new screenW screenH)) ops = some wm) :
    (∀ i, (wm.workspaces i).leaves.Nodup ∧
      (∀ sid, sid ∈ (wm.workspaces i).leaves ↔
        ∃ win ∈ wm.windows.list, win.surfaceId = sid ∧ win.workspace = i) ∧
      ((wm.workspaces i).focused = none ↔ (wm.workspaces i).root = none) ∧
      ∀ f, (wm.workspaces i).focused = some f → f ∈ (wm.workspaces i).leaves) ∧
    ∀ f, wm.focusedSurface = some f → f ∈ (wm.workspaces wm.activeWorkspace).leaves := by
  have h0 : ∀ wm ∈ some (new screenW screenH : WmManager ρ), wm.Agrees := by
    intro wm hwm
    cases hwm
    exact agrees_new screenW screenH
  have h : wm.Agrees :=
    inv_run (I := fun s => ∀ wm ∈ s, wm.Agrees) (agrees_step R) h0 hnew wm hwm
  refine ⟨fun i => ?_, h.focused⟩
  have hsound := h.placed.sound i
  exact ⟨hsound.nodup, h.placed.leaves i, hsound.empty, hsound.focused⟩

def percent : Ratios Int32 where
  half := 50
  adjust ratio grow := max 15 (min 85 (if grow then ratio + 5 else ratio - 5))
  part len ratio := len * ratio / 100

/-- Of three windows one is tiled, one gets the focus by a click and is closed, and one is moved to
another workspace, which is then shown. -/
def sampleOps : List WmOp :=
  [.surfaceCreated 7 640 480, .surfaceCreated 8 640 480, .toggleFloating, .surfaceCreated 9 800 600,
    .resizeSplit true, .pointerButton 700 270 true 0, .focusNext, .focusPrev, .focusPrev,
    .toggleFullscreen, .moveFocusedToWorkspace 3, .surfaceDestroyed 7, .switchWorkspace 3]

theorem isSome_run_sampleOps :
    (run (step percent) (some (new 1920 1080)) sampleOps).isSome = true := by
  decide +kernel

theorem agrees_run_sample :
    ∃ wm, run (step percent) (some (new 1920 1080)) sampleOps = some wm ∧
      wm.focusedSurface = some 9 ∧ wm.windows.list.map (·.surfaceId) = [9, 8] ∧
      (∀ i, (wm.workspaces i).leaves.Nodup ∧
        (∀ sid, sid ∈ (wm.workspaces i).leaves ↔
          ∃ win ∈ wm.windows.list, win.surfaceId = sid ∧ win.workspace = i) ∧
        ((wm.workspaces i).focused = none ↔ (wm.workspaces i).root = none) ∧
        ∀ f, (wm.workspaces i).focused = some f → f ∈ (wm.workspaces i).leaves) ∧
      ∀ f, wm.focusedSurface = some f → f ∈ (wm.workspaces wm.activeWorkspace).leaves := by
  have hnew : Along (step percent) Announces (some (new 1920 1080)) sampleOps := by
    decide +kernel
  have hrun := (some_get isSome_run_sampleOps).symm
  exact ⟨_, hrun, by decide +kernel, by decide +kernel, agrees_run percent 1920 1080 hnew hrun⟩

end WmManager

end Shell
