import MahinaOS.Shell.Requests

/-!
# What the shell does to a window

The window manager has a table with the place and the workspace of every window.  `ShellOp` are its
operations together with those of the shell that take a window out of the table: a click on a button
of its title bar, and the key that closes it.

`Outcome` is what an operation does to one entry of the table, together with what its requests say
about the surface.

* **`outcome_perform`**: a window is opened, taken away, or kept; if it is kept it is told its place
  or has not moved, unless the operation is one that `Misplaces` it, and it is shown if it is on the
  active workspace.
* `Agrees.perform`, `calm_perform`: what holds of the table anyway is kept.
-/

namespace Shell

open Compositor List Option

variable {wmState : UInt32}

/-! ## The buttons of a title bar -/

/-- The buttons of a title bar. -/
inductive Decoration where
  | close
  | minimize
  deriving DecidableEq, Repr

/-- The button of the window that is at a point; the title bar is above the window. -/
def WindowInfo.decorationAt (win : WindowInfo) (x y : Int32) : Option Decoration :=
  let tx := win.x
  let ty := win.y - 24
  let tw := win.w.toInt32
  let th := 24
  if x ≥ tx ∧ x < tx + tw ∧ y ≥ ty ∧ y < ty + th then
    let closeX := tx + tw - 16 - 4
    let btnY := ty + (24 - 16) / 2
    if x ≥ closeX ∧ x < closeX + 16 ∧ y ≥ btnY ∧ y < btnY + 16 then some .close
    else
      let minX := closeX - 16 - 4
      if x ≥ minX ∧ x < minX + 16 ∧ y ≥ btnY ∧ y < btnY + 16 then some .minimize else none
  else none

/-- What the shell and its window manager do.  Other clicks end in `WmOp.switchWorkspace` or have
nothing to do with the windows. -/
inductive ShellOp where
  | wm (op : WmOp)
  | closeWindow
  | press (x y : Int32) (first last : Nat)
  deriving DecidableEq, Repr

/-- The window that is announced. -/
def ShellOp.opens : ShellOp → Option UInt32
  | .wm (.surfaceCreated surfaceId _ _) => some surfaceId
  | _ => none

namespace WmManager

variable {ρ : Type}

/-- `WmManager::active_windows`. -/
def activeWindows (wm : WmManager ρ) : List WindowInfo :=
  wm.windows.list.filter fun win =>
    win.workspace == wm.activeWorkspace && win.state != .minimized

/-- `ShellState::check_decorations_click`.  Of the windows with a button under the pointer, `choice`
says which one is the first. -/
def checkDecorationsClick (wm : WmManager ρ) (x y : Int32) (choice : Nat) :
    Option (UInt32 × Decoration) :=
  let hits := wm.activeWindows.filter fun win => (win.decorationAt x y).isSome
  hits[choice % hits.length]?.bind fun win =>
    (win.decorationAt x y).map fun button => (win.surfaceId, button)

/-- The shell hides a window and takes it out of its tables. -/
def forget (R : Ratios ρ) (wm : WmManager ρ) (surfaceId wmState : UInt32) :
    Option (WmManager ρ × List Request) :=
  (wm.onSurfaceDestroyed R surfaceId).map fun (wm, requests) =>
    (wm, setState surfaceId wmState :: requests)

/-- One operation.  A press is the end of `ShellState::handle_pointer_button`. -/
def perform (R : Ratios ρ) (wm : WmManager ρ) : ShellOp → Option (WmManager ρ × List Request)
  | .wm op => wm.apply R op
  | .closeWindow =>
    match wm.focusedSurface with
    | some sid => wm.forget R sid WmState.hidden
    | none => some (wm, [])
  | .press x y first last =>
    match wm.checkDecorationsClick x y first with
    | some (sid, .close) => wm.forget R sid WmState.hidden
    | some (sid, .minimize) => wm.forget R sid WmState.minimized
    | none => some (wm.onPointerButton x y true last)

/-- The window that the operation takes out of the tables. -/
def drops (wm : WmManager ρ) : ShellOp → Option UInt32
  | .wm (.surfaceDestroyed surfaceId) => some surfaceId
  | .wm _ => none
  | .closeWindow => wm.focusedSurface
  | .press x y first _ => (wm.checkDecorationsClick x y first).map Prod.fst

/-- A fullscreen window starts or stops to float, and is moved in the table only. -/
def Misplaces (wm : WmManager ρ) (op : ShellOp) (id : UInt32) : Prop :=
  op = .wm .toggleFloating ∧ wm.focusedSurface = some id ∧
    ∃ win, wm.windows.get id = some win ∧ win.state = .fullscreen

end WmManager

/-! ## What an operation does to one window -/

/-- A surface in this state is shown. -/
def Visible (wmState : UInt32) : Prop := wmState ≠ WmState.hidden ∧ wmState ≠ WmState.minimized

instance (wmState : UInt32) : Decidable (Visible wmState) := inferInstanceAs (Decidable (_ ∧ _))

theorem visible_normal : Visible WmState.normal := by decide

theorem not_visible_hidden : ¬Visible WmState.hidden := by decide

/-- The states that the window manager uses. -/
def WindowInfo.Calm (win : WindowInfo) : Prop := win.state = .normal ∨ win.state = .fullscreen

namespace WmManager

variable {ρ : Type} {R : Ratios ρ} {wm wm₁ wm' : WmManager ρ} {requests first : List Request}

/-- No window is hidden or minimized in the table. -/
def Calm (wm : WmManager ρ) : Prop := ∀ id win, wm.windows.get id = some win → win.Calm

/-- A window that stays: its place is told, or it has not moved unless `lost` is the reason; and if
it was shown as it should be, it still is. -/
structure Row (wm wm' : WmManager ρ) (requests : List Request) (id : UInt32) (lost : Prop)
    (win win' : WindowInfo) : Prop where
  told : positions id requests = [(win'.x, win'.y)] ∧ ¬lost ∨
    positions id requests = [] ∧ (win'.x = win.x ∧ win'.y = win.y ∨ lost)
  visible : ∀ st, (Visible st ↔ win.workspace = wm.activeWorkspace) →
    (Visible ((states id requests).getLastD st) ↔ win'.workspace = wm'.activeWorkspace)
  calm : win.Calm → win'.Calm

/-- What becomes of an id in the table. -/
inductive Outcome (wm : WmManager ρ) (opens drops : Option UInt32) (lost : Prop)
    (wm' : WmManager ρ) (requests : List Request) (id : UInt32) : Prop where
  | absent : wm.windows.get id = none → wm'.windows.get id = none → opens ≠ some id →
      Outcome wm opens drops lost wm' requests id
  | opened (win' : WindowInfo) : opens = some id → wm'.windows.get id = some win' →
      positions id requests = [(win'.x, win'.y)] → states id requests = [] →
      win'.workspace = wm'.activeWorkspace → win'.Calm →
      Outcome wm opens drops lost wm' requests id
  | dropped (win : WindowInfo) : drops = some id → wm.windows.get id = some win →
      wm'.windows.get id = none → Outcome wm opens drops lost wm' requests id
  | kept (win win' : WindowInfo) : opens ≠ some id → drops ≠ some id →
      wm.windows.get id = some win → wm'.windows.get id = some win' →
      Row wm wm' requests id lost win win' → Outcome wm opens drops lost wm' requests id

theorem positions_layout (windows : Keyed WindowInfo.surfaceId) (p : WindowInfo → Bool)
    (id : UInt32) :
    positions id ((windows.list.filter p).map (·.setPosition)) =
      (((windows.get id).filter p).map fun win => (win.x, win.y)).toList := by
  have hone (win : WindowInfo) : (if p win then win.setPosition.position? id else none) =
        if win.surfaceId = id then (if p win then some (win.x, win.y) else none) else none := by
    rw [position?_setPosition]
    split_ifs <;> rfl
  rw [positions, filterMap_map, filterMap_filter]
  simp only [Function.comp_apply, hone]
  rw [Keyed.filterMap_key windows]
  rcases windows.get id with - | win
  · rfl
  · rw [bind_some, filter_some]
    split_ifs <;> rfl

theorem states_layout (wins : List WindowInfo) (id : UInt32) :
    states id (wins.map (·.setPosition)) = [] := by
  induction wins with
  | nil => rfl
  | cons win wins ih =>
    have hone := states_setPosition win id
    rw [map_cons, ← singleton_append, states_append, hone, ih]
    rfl

theorem state_place (rects : UInt32 → Option Rect) (win : WindowInfo) :
    (wm.place rects win).state = win.state := by
  rw [place, tile]
  split_ifs
  · rfl
  · split <;> rfl
  · rfl

/-- A window before the layout and after it. -/
theorem get_layoutAfter (h : wm₁.layoutAfter R first = some (wm', requests)) {id : UInt32}
    (hfirst : positions id first = []) {win₁ : WindowInfo}
    (hget : wm₁.windows.get id = some win₁) :
    ∃ win', wm'.windows.get id = some win' ∧ win'.workspace = win₁.workspace ∧
      win'.state = win₁.state ∧
      (positions id requests = [(win'.x, win'.y)] ∧ wm₁.isLaidOut win₁ = true ∨
        positions id requests = [] ∧ wm₁.isLaidOut win₁ = false ∧ win' = win₁) := by
  obtain ⟨⟨wm₂, more⟩, hlayout, heq⟩ := map_eq_some_iff.1 h
  obtain ⟨rects, -, hrects⟩ := map_eq_some_iff.1 hlayout
  obtain ⟨⟩ := hrects
  obtain ⟨⟩ := heq
  refine ⟨wm₁.place rects win₁, ?_, workspace_place rects win₁, state_place rects win₁, ?_⟩
  · rw [Keyed.get_map, hget, map_some]
  · rw [positions_append, hfirst, positions_layout, Keyed.get_map, hget,
      map_some, filter_some, isLaidOut, state_place, workspace_place, ← isLaidOut]
    split_ifs with hlaid
    · exact .inl ⟨rfl, hlaid⟩
    · refine .inr ⟨rfl, by simpa using hlaid, ?_⟩
      rw [place, if_neg hlaid]

theorem layoutAfter_eq (h : wm₁.layoutAfter R first = some (wm', requests)) (id : UInt32) :
    wm'.activeWorkspace = wm₁.activeWorkspace ∧ states id requests = states id first ∧
      (wm₁.windows.get id = none → wm'.windows.get id = none) := by
  obtain ⟨⟨wm₂, more⟩, hlayout, heq⟩ := map_eq_some_iff.1 h
  obtain ⟨rects, -, hrects⟩ := map_eq_some_iff.1 hlayout
  obtain ⟨⟩ := hrects
  obtain ⟨⟩ := heq
  refine ⟨rfl, ?_, fun hnone => ?_⟩
  · rw [states_append, states_layout, append_nil]
  · rw [Keyed.get_map, hnone, map_none]

theorem layoutAfter_nil : wm.layoutAfter R [] = wm.applyLayout R := by
  rw [layoutAfter]
  rcases wm.applyLayout R with - | ⟨-, -⟩ <;> rfl

variable {win : WindowInfo}

theorem exists_row_of_layout (wm : WmManager ρ)
    (h : wm₁.layoutAfter R first = some (wm', requests)) {id : UInt32} {lost : Prop}
    {win₁ : WindowInfo} (hfirst : positions id first = []) (hget : wm₁.windows.get id = some win₁)
    (hvisible : ∀ st, (Visible st ↔ win.workspace = wm.activeWorkspace) →
      (Visible ((states id first).getLastD st) ↔ win₁.workspace = wm₁.activeWorkspace))
    (hcalm : win.Calm → win₁.Calm)
    (hmoved : win₁.x = win.x ∧ win₁.y = win.y ∨ wm₁.isLaidOut win₁ = true ∨ lost)
    (hlost : lost → wm₁.isLaidOut win₁ = false) :
    ∃ win', wm'.windows.get id = some win' ∧ Row wm wm' requests id lost win win' := by
  obtain ⟨win', hget', hws, hstate, hpos⟩ := get_layoutAfter h hfirst hget
  obtain ⟨hactive, hstates, -⟩ := layoutAfter_eq h id
  refine ⟨win', hget', ⟨?_, fun st hst => ?_, fun hwin => ?_⟩⟩
  · rcases hpos with ⟨hpos, hlaid⟩ | ⟨hpos, hlaid, rfl⟩
    · exact .inl ⟨hpos, fun h => Bool.false_ne_true ((hlost h).symm.trans hlaid)⟩
    · rcases hmoved with hmoved | hmoved | hmoved
      · exact .inr ⟨hpos, .inl hmoved⟩
      · rw [hmoved] at hlaid
        cases hlaid
      · exact .inr ⟨hpos, .inr hmoved⟩
  · rw [hstates, hws, hactive]
    exact hvisible st hst
  · rw [WindowInfo.Calm, hstate]
    exact hcalm hwin

/-! ### The operations -/

variable {id : UInt32} {lost : Prop}

theorem outcome_same (hwindows : wm'.windows = wm.windows)
    (hactive : wm'.activeWorkspace = wm.activeWorkspace) (hpos : positions id requests = [])
    (hstates : states id requests = []) : Outcome wm none none False wm' requests id := by
  rcases hget : wm.windows.get id with - | win
  · exact .absent hget (hwindows ▸ hget) nofun
  · refine .kept win win nofun nofun hget (hwindows ▸ hget)
      ⟨.inr ⟨hpos, .inl ⟨rfl, rfl⟩⟩, fun st hst => ?_, fun hwin => hwin⟩
    rw [hstates, hactive]
    exact hst

theorem outcome_self (h : (wm, []) = (wm', requests)) :
    Outcome wm none none False wm' requests id := by
  obtain ⟨⟩ := h
  exact outcome_same rfl rfl rfl rfl

theorem outcome_giveFocus {f : UInt32} (h : wm₁.giveFocus f = (wm', requests))
    (hwindows : wm₁.windows = wm.windows)
    (hactive : wm₁.activeWorkspace = wm.activeWorkspace) :
    Outcome wm none none False wm' requests id := by
  obtain ⟨⟩ := h
  exact outcome_same hwindows hactive (positions_setFocus f id) (states_setFocus f id)

theorem outcome_layout (h : wm₁.layoutAfter R first = some (wm', requests))
    (hfirst : positions id first = [])
    (hnone : wm.windows.get id = none → wm₁.windows.get id = none)
    (hsome : ∀ win, wm.windows.get id = some win → ∃ win₁, wm₁.windows.get id = some win₁ ∧
      (∀ st, (Visible st ↔ win.workspace = wm.activeWorkspace) →
        (Visible ((states id first).getLastD st) ↔ win₁.workspace = wm₁.activeWorkspace)) ∧
      (win.Calm → win₁.Calm) ∧
      (win₁.x = win.x ∧ win₁.y = win.y ∨ wm₁.isLaidOut win₁ = true ∨ lost) ∧
      (lost → wm₁.isLaidOut win₁ = false)) :
    Outcome wm none none lost wm' requests id := by
  rcases hget : wm.windows.get id with - | win
  · exact .absent hget ((layoutAfter_eq h id).2.2 (hnone hget)) nofun
  · obtain ⟨win₁, hget₁, hvisible, hcalm, hmoved, hlost⟩ := hsome win hget
    obtain ⟨win', hget', hrow⟩ :=
      exists_row_of_layout wm h hfirst hget₁ hvisible hcalm hmoved hlost
    exact .kept win win' nofun nofun hget hget' hrow

theorem outcome_applyLayout (h : wm₁.applyLayout R = some (wm', requests))
    (hwindows : wm₁.windows = wm.windows)
    (hactive : wm₁.activeWorkspace = wm.activeWorkspace) :
    Outcome wm none none False wm' requests id := by
  rw [← layoutAfter_nil] at h
  refine outcome_layout h rfl (fun hnone => hwindows ▸ hnone) fun win hget => ?_
  exact ⟨win, hwindows ▸ hget, fun st hst => hactive ▸ hst, fun hwin => hwin, .inl ⟨rfl, rfl⟩,
    False.elim⟩

variable {surfaceId : UInt32}

theorem outcome_created {width height : UInt32}
    (h : wm.onSurfaceCreated R surfaceId width height = some (wm', requests)) :
    Outcome wm (some surfaceId) none False wm' requests id := by
  obtain ⟨⟨wm₂, more⟩, hlayout, heq⟩ := map_eq_some_iff.1 h
  obtain ⟨⟩ := heq
  rw [← layoutAfter_nil] at hlayout
  have hget₁ : (wm.addWindow R surfaceId width height).windows.get id =
      if id = surfaceId then some (wm.newWindow surfaceId width height)
      else wm.windows.get id := Keyed.get_insert _ _
  have hpos : positions id (more ++ [setFocus surfaceId]) = positions id more := by
    rw [positions_append, positions_setFocus, append_nil]
  obtain ⟨hactive, hstates, habsent⟩ := layoutAfter_eq hlayout id
  have hst : states id (more ++ [setFocus surfaceId]) = [] := by
    rw [states_append, states_setFocus, hstates]
    rfl
  by_cases hid : id = surfaceId
  · rw [if_pos hid] at hget₁
    obtain ⟨win', hget', hws, hstate, hplace⟩ := get_layoutAfter hlayout rfl hget₁
    refine .opened win' (hid ▸ rfl) hget' ?_ hst (hws.trans hactive.symm) (.inl hstate)
    rcases hplace with ⟨hplace, -⟩ | ⟨-, hlaid, -⟩
    · rw [hpos, hplace]
    · -- a new window is on the active workspace
      have hnew : (wm.addWindow R surfaceId width height).isLaidOut
          (wm.newWindow surfaceId width height) = true := by
        simp [isLaidOut, newWindow, addWindow, modifyWorkspace]
      exact absurd (hnew.symm.trans hlaid) nofun
  · rw [if_neg hid] at hget₁
    have hne : some surfaceId ≠ some id := fun heq => hid (some.inj heq).symm
    rcases hget : wm.windows.get id with - | win
    · exact .absent hget (habsent (hget₁.trans hget)) hne
    · obtain ⟨win', hget', hrow⟩ := exists_row_of_layout wm hlayout rfl
        (hget₁.trans hget) (fun st hst => hst) (fun hwin => hwin) (.inl ⟨rfl, rfl⟩) False.elim
      refine .kept win win' hne nofun hget hget' ⟨hpos ▸ hrow.told, fun st hst' => ?_, hrow.calm⟩
      have hvisible := hrow.visible st hst'
      rw [hstates] at hvisible
      rw [hst]
      exact hvisible

theorem onSurfaceDestroyed_eq (h : wm.onSurfaceDestroyed R surfaceId = some (wm', requests)) :
    ∃ (wm₁ : WmManager ρ) (focus : Option UInt32),
      wm₁.layoutAfter R (focus.map setFocus).toList = some (wm', requests) ∧
      wm₁.activeWorkspace = wm.activeWorkspace ∧
      ∀ id, wm₁.windows.get id = if id = surfaceId then none else wm.windows.get id := by
  rw [onSurfaceDestroyed] at h
  rcases hget : wm.windows.get surfaceId with - | win
  · have hwindows (id : UInt32) :
        wm.windows.get id = if id = surfaceId then none else wm.windows.get id := by
      split_ifs with hid
      · rw [hid, hget]
      · rfl
    rw [hget] at h
    split_ifs at h
    · exact ⟨_, _, h, rfl, hwindows⟩
    · exact ⟨_, none, h, rfl, hwindows⟩
  · rw [hget] at h
    split_ifs at h
    · exact ⟨_, _, h, rfl, fun id => Keyed.get_erase id surfaceId⟩
    · exact ⟨_, none, h, rfl, fun id => Keyed.get_erase id surfaceId⟩

theorem outcome_destroyed (h : wm.onSurfaceDestroyed R surfaceId = some (wm', requests)) :
    Outcome wm none (some surfaceId) False wm' requests id := by
  obtain ⟨wm₁, focus, hlayout, hactive, hwindows⟩ := onSurfaceDestroyed_eq h
  obtain ⟨-, -, habsent⟩ := layoutAfter_eq hlayout id
  have hget₁ := hwindows id
  rcases hget : wm.windows.get id with - | win
  · refine .absent hget (habsent ?_) nofun
    rw [hget₁, hget]
    split_ifs <;> rfl
  · by_cases hid : id = surfaceId
    · rw [if_pos hid] at hget₁
      exact .dropped win (hid ▸ rfl) hget (habsent hget₁)
    · rw [if_neg hid] at hget₁
      obtain ⟨win', hget', hrow⟩ := exists_row_of_layout wm hlayout
        (positions_focus focus id) (hget₁.trans hget)
        (fun st hst => by rw [states_focus, hactive]; exact hst) (fun hwin => hwin)
        (.inl ⟨rfl, rfl⟩) False.elim
      exact .kept win win' nofun (fun heq => hid (some.inj heq).symm) hget hget' hrow

theorem outcome_forget
    (h : wm.forget R surfaceId wmState = some (wm', requests)) :
    Outcome wm none (some surfaceId) False wm' requests id := by
  obtain ⟨⟨wm₁, more⟩, hgone, heq⟩ := map_eq_some_iff.1 h
  obtain ⟨⟩ := heq
  have houtcome : Outcome wm none (some surfaceId) False wm' more id := outcome_destroyed hgone
  rcases houtcome with
    ⟨hget, hget', hne⟩ | ⟨win', hopens, -⟩ | ⟨win, hdrops, hget, hget'⟩ |
    ⟨win, win', hopens, hdrops, hget, hget', hrow⟩
  · exact .absent hget hget' hne
  · exact absurd hopens nofun
  · exact .dropped win hdrops hget hget'
  · have hid : surfaceId ≠ id := fun heq => hdrops (congrArg some heq)
    have hpos : positions id (setState surfaceId wmState :: more) = positions id more := by
      rw [← singleton_append, positions_append, positions_setState, nil_append]
    have hst : states id (setState surfaceId wmState :: more) = states id more := by
      rw [← singleton_append, states_append, states_setState, if_neg hid, nil_append]
    exact .kept win win' hopens hdrops hget hget' ⟨hpos ▸ hrow.told, hst ▸ hrow.visible, hrow.calm⟩

/-! ### Workspaces -/

theorem positions_switch (wins : List WindowInfo) (oldWs newWs : Fin numWorkspaces)
    (id : UInt32) : positions id (wins.filterMap (switchRequest oldWs newWs)) = [] := by
  have htype : MsgType.wmSetState ≠ MsgType.wmSetSurfacePosition := by decide
  refine filterMap_eq_nil_iff.2 fun r hr => Request.position?_of_type ?_ id
  obtain ⟨win, -, hwin⟩ := mem_filterMap.1 hr
  rw [switchRequest] at hwin
  split_ifs at hwin
  · obtain rfl := some.inj hwin
    exact htype
  · obtain rfl := some.inj hwin
    exact htype

/-- What a window is told when the workspace changes. -/
def switchState (oldWs newWs : Fin numWorkspaces) (win : WindowInfo) : Option UInt32 :=
  if win.workspace = oldWs then some WmState.hidden
  else if win.workspace = newWs then some WmState.normal
  else none

theorem states_switch (windows : Keyed WindowInfo.surfaceId) (oldWs newWs : Fin numWorkspaces)
    (id : UInt32) :
    states id (windows.list.filterMap (switchRequest oldWs newWs)) =
      ((windows.get id).bind (switchState oldWs newWs)).toList := by
  have hone (win : WindowInfo) : ((switchRequest oldWs newWs win).bind fun r => r.state? id) =
      if win.surfaceId = id then switchState oldWs newWs win else none := by
    rw [switchRequest, switchState]
    split_ifs <;> simp_all [state?_setState]
  rw [states, filterMap_filterMap]
  simp only [hone]
  exact Keyed.filterMap_key windows _ id

theorem visible_switch {oldWs newWs : Fin numWorkspaces} (hne : newWs ≠ oldWs) {st : UInt32}
    (h : Visible st ↔ win.workspace = oldWs) :
    Visible ((switchState oldWs newWs win).toList.getLastD st) ↔ win.workspace = newWs := by
  rw [switchState]
  split_ifs with hold hnew
  · rw [hold]
    exact iff_of_false not_visible_hidden hne.symm
  · exact iff_of_true visible_normal hnew
  · exact iff_of_false (fun hst => hold (h.1 hst)) hnew

theorem outcome_switched {idx : Nat} (h : wm.switchWorkspace R idx = some (wm', requests)) :
    Outcome wm none none False wm' requests id := by
  rw [switchWorkspace] at h
  split at h
  · dsimp only at h
    split at h
    · exact outcome_self (some.inj h)
    · next hne =>
      refine outcome_layout h ?_ (fun hnone => hnone) fun win hget => ?_
      · rw [positions_append, positions_switch, positions_focus, append_nil]
      · refine ⟨win, hget, fun st hst => ?_, fun hwin => hwin, .inl ⟨rfl, rfl⟩, False.elim⟩
        rw [states_append, states_focus, append_nil, states_switch, hget]
        exact visible_switch hne hst
  · exact outcome_self (some.inj h)

/-! ### The window in focus -/

variable {sid : UInt32} {f : WindowInfo → WindowInfo}

theorem get_modifyWindow (h : wm.windows.get id = some win) :
    (wm.modifyWindow sid f).windows.get id =
      some (if id = sid then { f win with surfaceId := win.surfaceId } else win) := by
  rw [modifyWindow, Keyed.get_map, h, map_some, Keyed.key_of_get h]

theorem get_modifyWindow_none (h : wm.windows.get id = none) :
    (wm.modifyWindow sid f).windows.get id = none := by
  rw [modifyWindow, Keyed.get_map, h, map_none]

theorem outcome_moved (hagrees : wm.Agrees) {idx : Nat}
    (h : wm.moveFocusedToWorkspace R idx = some (wm', requests)) :
    Outcome wm none none False wm' requests id := by
  rw [moveFocusedToWorkspace] at h
  split at h
  · exact outcome_self (some.inj h)
  · next sid hfocused =>
    split at h
    · next hidx =>
      dsimp only at h
      split at h
      · exact outcome_self (some.inj h)
      · next focused hgetFocused =>
        split at h
        · exact outcome_self (some.inj h)
        · next hne =>
          refine outcome_layout h (positions_setState _ _ _) get_modifyWindow_none
            fun win hget => ⟨_, get_modifyWindow hget, fun st hst => ?_, ?_⟩
          · rw [states_setState]
            split_ifs with hsid hid hid
            · obtain rfl := hsid
              obtain rfl := some.inj (hgetFocused.symm.trans hget)
              rw [hagrees.workspace_focused hfocused hget] at hne
              exact iff_of_false not_visible_hidden (Ne.symm hne)
            · exact absurd hsid.symm hid
            · exact absurd hid.symm hsid
            · exact hst
          · split_ifs
            · exact ⟨fun hwin => hwin, .inl ⟨rfl, rfl⟩, False.elim⟩
            · exact ⟨fun hwin => hwin, .inl ⟨rfl, rfl⟩, False.elim⟩
    · exact outcome_self (some.inj h)

theorem state_toggleFloat (win : WindowInfo) : (wm.toggleFloat win).state = win.state := by
  rw [toggleFloat]
  split_ifs <;> rfl

theorem outcome_toggleFloating (hagrees : wm.Agrees) (hcalm : wm.Calm)
    (h : wm.toggleFloating R = some (wm', requests)) :
    Outcome wm none none (wm.Misplaces (.wm .toggleFloating) id) wm' requests id := by
  rw [toggleFloating] at h
  split at h
  · next hfocused =>
    have hlost : ¬wm.Misplaces (.wm .toggleFloating) id := by
      rintro ⟨-, hid, -⟩
      exact some_ne_none id (hid.symm.trans hfocused)
    rw [eq_false hlost]
    exact outcome_self (some.inj h)
  · next sid hfocused =>
    rw [← layoutAfter_nil] at h
    refine outcome_layout h rfl get_modifyWindow_none fun win hget => ⟨_, get_modifyWindow hget, ?_⟩
    split_ifs with hid
    · obtain rfl := hid
      have hws : (wm.toggleFloat win).workspace = wm.activeWorkspace :=
        (workspace_toggleFloat win).trans (hagrees.workspace_focused hfocused hget)
      refine ⟨fun st hst => ?_, fun hwin => ?_, .inr ?_, ?_⟩
      · exact hst.trans (iff_of_true (hagrees.workspace_focused hfocused hget) hws)
      · exact hwin.imp (state_toggleFloat win).trans (state_toggleFloat win).trans
      · rcases hcalm id win hget with hstate | hstate
        · exact .inl (by simp [isLaidOut, hws, modifyWindow, state_toggleFloat, hstate])
        · exact .inr ⟨rfl, hfocused, win, hget, hstate⟩
      · rintro ⟨-, -, win₁, hget₁, hstate⟩
        obtain rfl := some.inj (hget.symm.trans hget₁)
        simp [isLaidOut, state_toggleFloat, hstate]
    · refine ⟨fun st hst => hst, fun hwin => hwin, .inl ⟨rfl, rfl⟩, ?_⟩
      rintro ⟨-, hfocused', -⟩
      exact absurd (some.inj (hfocused.symm.trans hfocused')).symm hid

theorem outcome_replaced (hpos : ∀ win, wm.windows.get id = some win →
      positions id requests = if id = sid then [((f win).x, (f win).y)] else [])
    (hrow : ∀ win, wm.windows.get id = some win → id = sid →
      (∀ st, (Visible st ↔ win.workspace = wm.activeWorkspace) →
        (Visible ((states id requests).getLastD st) ↔
          (f win).workspace = wm.activeWorkspace)) ∧ (win.Calm → (f win).Calm))
    (hother : id ≠ sid → states id requests = []) :
    Outcome wm none none False (wm.modifyWindow sid f) requests id := by
  rcases hget : wm.windows.get id with - | win
  · exact .absent hget (get_modifyWindow_none hget) nofun
  · refine .kept win _ nofun nofun hget (get_modifyWindow hget) ?_
    have hpos := hpos win hget
    split_ifs at hpos ⊢ with hid
    · obtain ⟨hvisible, hcalm⟩ := hrow win hget hid
      exact ⟨.inl ⟨hpos, not_false⟩, hvisible, hcalm⟩
    · refine ⟨.inr ⟨hpos, .inl ⟨rfl, rfl⟩⟩, fun st hst => ?_, fun hwin => hwin⟩
      rw [hother hid]
      exact hst

theorem outcome_toggleFullscreen (hagrees : wm.Agrees)
    (h : wm.toggleFullscreen R = some (wm', requests)) :
    Outcome wm none none False wm' requests id := by
  rw [toggleFullscreen] at h
  split at h
  · exact outcome_self (some.inj h)
  · next sid hfocused =>
    split at h
    · exact outcome_applyLayout h rfl rfl
    · next focused hgetFocused =>
      have hws := hagrees.workspace_focused hfocused hgetFocused
      split at h
      · refine outcome_layout h (positions_setState _ _ _) get_modifyWindow_none
          fun win hget => ⟨_, get_modifyWindow hget, ?_⟩
        rw [states_setState]
        split_ifs with hid hsid hsid
        · obtain rfl := hid
          obtain rfl := some.inj (hgetFocused.symm.trans hget)
          exact ⟨fun st _ => iff_of_true visible_normal hws, fun _ => .inl rfl,
            .inl ⟨rfl, rfl⟩, False.elim⟩
        · exact absurd hid.symm hsid
        · exact absurd hsid.symm hid
        · exact ⟨fun st hst => hst, fun hwin => hwin, .inl ⟨rfl, rfl⟩, False.elim⟩
      · obtain ⟨⟩ := h
        have hfull : focused.surfaceId = sid := Keyed.key_of_get hgetFocused
        refine outcome_replaced (fun win hget => ?_) (fun win hget hid => ?_) fun hid => ?_
        · rw [← singleton_append, positions_append, positions_setState, nil_append,
            positions_setPosition, hfull]
          simp only [eq_comm]
        · rw [← singleton_append, states_append, states_setState, if_pos hid.symm]
          exact ⟨fun st _ => iff_of_true (show Visible WmState.fullscreen by decide) hws,
            fun _ => .inr rfl⟩
        · rw [← singleton_append, states_append, states_setState, if_neg (Ne.symm hid)]
          rfl

theorem outcome_neighbour {focus : Option UInt32}
    (h : (match focus with
      | some f => wm.giveFocus f
      | none => (wm, [])) = (wm', requests)) : Outcome wm none none False wm' requests id := by
  split at h
  · exact outcome_giveFocus h rfl rfl
  · exact outcome_self h

theorem state_snapped (direction : SnapDir) (win : WindowInfo) :
    (wm.snapped direction win).state = win.state := by
  rcases direction with - | - | - | - <;> rfl

theorem outcome_snap {direction : SnapDir} (h : wm.snap direction = (wm', requests)) :
    Outcome wm none none False wm' requests id := by
  rw [snap] at h
  split at h
  · exact outcome_self h
  · next sid _ =>
    obtain ⟨⟩ := h
    refine outcome_replaced (fun win hget => ?_) (fun win hget hid => ?_) fun hid => ?_
    · split_ifs with hid
      · obtain rfl := hid
        rw [get_modifyWindow hget, if_pos rfl, toList_some, map_singleton, positions_setPosition]
        exact if_pos (Keyed.key_of_get hget)
      · rcases hgot : (wm.modifyWindow sid (wm.snapped direction)).windows.get sid with - | other
        · rfl
        · rw [toList_some, map_singleton, positions_setPosition,
            Keyed.key_of_get hgot, if_neg (Ne.symm hid)]
    · have hws : (wm.snapped direction win).workspace = win.workspace := by
        rcases direction with - | - | - | - <;> rfl
      rw [states_layout, hws]
      exact ⟨fun st hst => hst, fun hwin =>
        hwin.imp (state_snapped direction win).trans (state_snapped direction win).trans⟩
    · exact states_layout _ id

theorem outcome_resizeSplit {grow : Bool} (h : wm.resizeSplit R grow = some (wm', requests)) :
    Outcome wm none none False wm' requests id := by
  rw [resizeSplit] at h
  split at h
  · exact outcome_self (some.inj h)
  · exact outcome_applyLayout h rfl rfl

theorem outcome_motion {x y : Int32} (h : wm.onPointerMotion x y = (wm', requests)) :
    Outcome wm none none False wm' requests id := by
  rw [onPointerMotion] at h
  split at h
  · next sid dx dy hdrag hoffset =>
    split at h
    · next dragged hgetDragged =>
      split at h
      · obtain ⟨⟩ := h
        refine outcome_replaced (fun win hget => ?_) (fun win hget hid => ?_) fun hid => ?_
        · rw [positions_setPosition, Keyed.key_of_get hgetDragged]
          simp only [eq_comm]
        · obtain rfl := hid
          obtain rfl := some.inj (hgetDragged.symm.trans hget)
          exact ⟨fun st hst => hst, fun hwin => hwin⟩
        · exact states_setPosition _ id
      · exact outcome_self h
    · exact outcome_self h
  · exact outcome_self h

theorem outcome_button {x y : Int32} {pressed : Bool} {choice : Nat}
    (h : wm.onPointerButton x y pressed choice = (wm', requests)) :
    Outcome wm none none False wm' requests id := by
  rw [onPointerButton] at h
  split at h
  · obtain ⟨⟩ := h
    exact outcome_same rfl rfl rfl rfl
  · dsimp only at h
    split at h
    · rw [focusSurface] at h
      split at h
      · exact outcome_giveFocus h rfl rfl
      · obtain ⟨⟩ := h
        exact outcome_same rfl rfl rfl rfl
    · exact outcome_self h

theorem misplaces_eq_false (op : ShellOp) (hop : op ≠ .wm .toggleFloating) :
    wm.Misplaces op id = False := eq_false fun h => hop h.1

variable {op : ShellOp}

/-- **What an operation does to a window and says about it.** -/
theorem outcome_perform (hagrees : wm.Agrees) (hcalm : wm.Calm)
    (h : wm.perform R op = some (wm', requests)) (id : UInt32) :
    Outcome wm op.opens (wm.drops op) (wm.Misplaces op id) wm' requests id := by
  rcases op with op | - | ⟨x, y, hit, last⟩
  · by_cases hop : op = .toggleFloating
    · obtain rfl := hop
      exact outcome_toggleFloating hagrees hcalm h
    · rw [misplaces_eq_false _ fun heq => hop (ShellOp.wm.inj heq)]
      cases op with
      | surfaceCreated surfaceId width height => exact outcome_created h
      | surfaceDestroyed surfaceId => exact outcome_destroyed h
      | switchWorkspace idx => exact outcome_switched h
      | moveFocusedToWorkspace idx => exact outcome_moved hagrees h
      | toggleFloating => exact absurd rfl hop
      | toggleFullscreen => exact outcome_toggleFullscreen hagrees h
      | focusNext | focusPrev => exact outcome_neighbour (some.inj h)
      | snap direction => exact outcome_snap (some.inj h)
      | resizeSplit grow => exact outcome_resizeSplit h
      | pointerMotion x y => exact outcome_motion (some.inj h)
      | pointerButton x y pressed choice => exact outcome_button (some.inj h)
  · rw [misplaces_eq_false .closeWindow nofun]
    rw [perform] at h
    change Outcome wm none wm.focusedSurface False wm' requests id
    split at h
    · next sid hfocused =>
      rw [hfocused]
      exact outcome_forget h
    · next hfocused =>
      rw [hfocused]
      exact outcome_self (some.inj h)
  · rw [misplaces_eq_false (.press x y hit last) nofun]
    rw [perform] at h
    change Outcome wm none ((wm.checkDecorationsClick x y hit).map Prod.fst) False wm' requests id
    split at h
    · next sid hclick =>
      rw [hclick]
      exact outcome_forget h
    · next sid hclick =>
      rw [hclick]
      exact outcome_forget h
    · next hclick =>
      rw [hclick]
      exact outcome_button (some.inj h)

/-- A window that is announced is not known yet. -/
def Introduces (wm : WmManager ρ) (op : ShellOp) : Prop :=
  ∀ id ∈ op.opens, wm.windows.get id = none

theorem Agrees.forget (R : Ratios ρ) (h : wm.Agrees) : Keeps (wm.forget R sid wmState) := by
  intro r hr
  obtain ⟨r₁, hgone, rfl⟩ := map_eq_some_iff.1 hr
  exact h.onSurfaceDestroyed R sid r₁ hgone

theorem Agrees.perform (R : Ratios ρ) (h : wm.Agrees) (hnew : wm.Introduces op) :
    Keeps (wm.perform R op) := by
  rcases op with op | - | ⟨x, y, hit, last⟩
  · refine h.apply R op ?_
    rcases op with ⟨surfaceId, width, height⟩ | _ | _ | _ | _ | _ | _ | _ | _ | _ | _ | _
    · intro wm₁ hwm₁
      obtain rfl := some.inj hwm₁
      exact hnew surfaceId rfl
    all_goals exact trivial
  · rw [perform]
    split
    · exact h.forget R
    · exact keeps_some h
  · rw [perform]
    split
    · exact h.forget R
    · exact h.forget R
    · exact keeps_some (h.onPointerButton x y true last)

theorem calm_perform (hagrees : wm.Agrees) (hcalm : wm.Calm)
    (h : wm.perform R op = some (wm', requests)) : wm'.Calm := by
  intro id win hget
  rcases outcome_perform hagrees hcalm h id with
    ⟨-, hnone, -⟩ | ⟨win', -, hget', -, -, -, hwin⟩ | ⟨-, -, -, hnone⟩ |
    ⟨before, win', -, -, hbefore, hget', hrow⟩
  · exact absurd (hget.symm.trans hnone) nofun
  · rw [some.inj (hget.symm.trans hget')]
    exact hwin
  · exact absurd (hget.symm.trans hnone) nofun
  · rw [some.inj (hget.symm.trans hget')]
    exact hrow.calm (hcalm id before hbefore)

theorem isWm_apply {op : WmOp} (h : wm.apply R op = some (wm', requests)) :
    ∀ r ∈ requests, r.IsWm := by
  rcases focusChange_apply h with ⟨-, htells, -⟩ | ⟨f, -, htells, -⟩ | ⟨-, htells, -⟩
  all_goals exact htells.isWm

theorem isWm_forget (h : wm.forget R sid wmState = some (wm', requests)) :
    ∀ r ∈ requests, r.IsWm := by
  obtain ⟨⟨wm₁, more⟩, hgone, heq⟩ := map_eq_some_iff.1 h
  obtain ⟨⟩ := heq
  have happly : wm.apply R (.surfaceDestroyed sid) = some (wm', more) := hgone
  exact forall_mem_cons.2 ⟨.inl (plain_setState sid wmState), isWm_apply happly⟩

theorem isWm_perform (h : wm.perform R op = some (wm', requests)) : ∀ r ∈ requests, r.IsWm := by
  rcases op with op | - | ⟨x, y, hit, last⟩
  · exact isWm_apply h
  · rw [perform] at h
    split at h
    · exact isWm_forget h
    · obtain ⟨-, rfl⟩ := Prod.mk.inj (some.inj h)
      exact nofun
  · rw [perform] at h
    split at h
    · exact isWm_forget h
    · exact isWm_forget h
    · have happly : wm.apply R (.pointerButton x y true last) = some (wm', requests) := h
      exact isWm_apply happly

end WmManager

end Shell
