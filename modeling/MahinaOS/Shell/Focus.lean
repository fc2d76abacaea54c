import Mathlib.Data.List.Infix
import MahinaOS.Lgp.Codec
import MahinaOS.Shell.Workspaces
import MahinaOS.Shell.Session

/-!
# The focus in two processes

Which window has the focus is written down twice.  The window manager of the shell has
`focused_surface`; the compositor has `keyboard_focus_surface_id`, and sends the keys by it.  They
are kept together by messages: an operation that changes the record of the shell also sends
`LGP_WM_SET_FOCUS`, with 0 for no window.  `FocusPair` has both sides, and a `Turn` is one operation
of the window manager, with what the compositor does until it has read the requests.

* `focusChange_apply` says for each operation what it does to the record and what its requests say:
  `Asks` are the operations that ask for a focus, and `GivesAway` those by which a window loses it
  without a word;
* `focus_serve` says what the compositor makes of the requests;
* **`focus_agrees_iff`**: in every run from the start of the shell, the two agree after every
  operation if and only if none gives the focus away and those that do not ask for one come when
  the two agree;
* `keys_left_behind`: a window that is hidden on another workspace, or closed, still gets the keys.

A click moves the compositor's focus to the window under the pointer, but the shell looks for a
title bar.  And at its start the shell has the compositor focus its overlay, with no window in focus
of its own: they agree from the first operation on that asks for a focus.
-/

namespace Shell

open Compositor Run List Option

variable {f : UInt32}

/-! ## Requests and the focus -/

/-- A request that has nothing to do with the focus: the compositor reads it as a position or a
state. -/
def Request.Plain (r : Request) : Prop :=
  r.msg.type = MsgType.wmSetSurfacePosition ∧ (decodeSetPosition r.msg).isSome = true ∨
    r.msg.type = MsgType.wmSetState ∧ (decodeSetState r.msg).isSome = true

/-- What some requests say about the focus: nothing, or which window gets it. -/
def Tells (focus : Option UInt32) (requests : List Request) : Prop :=
  ∃ before after, requests = before ++ (focus.map setFocus).toList ++ after ∧
    ∀ r ∈ before ++ after, r.Plain

variable {requests : List Request} {focus : Option UInt32}

theorem tells_none (h : ∀ r ∈ requests, r.Plain) : Tells none requests :=
  ⟨requests, [], by simp, by simpa using h⟩

theorem tells_nil : Tells none [] := tells_none fun r hr => by cases hr

theorem tells_setFocus (focus : Option UInt32) : Tells focus (focus.map setFocus).toList :=
  ⟨[], [], by simp, fun r hr => by cases hr⟩

theorem Tells.append {more : List Request} (h : Tells focus requests)
    (hmore : ∀ r ∈ more, r.Plain) : Tells focus (requests ++ more) := by
  obtain ⟨before, after, rfl, hplain⟩ := h
  refine ⟨before, after ++ more, by simp, fun r hr => ?_⟩
  rw [← append_assoc] at hr
  exact (mem_append.1 hr).elim (hplain r) (hmore r)

theorem Tells.prepend {first : List Request} (h : Tells focus requests)
    (hfirst : ∀ r ∈ first, r.Plain) : Tells focus (first ++ requests) := by
  obtain ⟨before, after, rfl, hplain⟩ := h
  refine ⟨first ++ before, after, by simp, fun r hr => ?_⟩
  rw [append_assoc] at hr
  exact (mem_append.1 hr).elim (hfirst r) (hplain r)

theorem plain_setState (surfaceId wmState : UInt32) : (setState surfaceId wmState).Plain := by
  refine .inr ⟨rfl, ?_⟩
  rw [decodeSetState, if_neg (by rintro (h | h); exacts [h rfl, lt_irrefl _ h])]
  rfl

theorem plain_state (surfaceId wmState : UInt32) : ∀ r ∈ [setState surfaceId wmState], r.Plain :=
  forall_mem_singleton.2 (plain_setState surfaceId wmState)

theorem plain_setPosition (win : WindowInfo) : win.setPosition.Plain := by
  refine .inl ⟨rfl, ?_⟩
  rw [decodeSetPosition, if_neg (by rintro (h | h); exacts [h rfl, lt_irrefl _ h])]
  rfl

theorem plain_positions (wins : List WindowInfo) : ∀ r ∈ wins.map (·.setPosition), r.Plain := by
  intro r hr
  obtain ⟨win, -, rfl⟩ := mem_map.1 hr
  exact plain_setPosition win

/-! ## What an operation says about the focus -/

/-- The compositor may have moved its focus itself before it reports the event: a new window takes
it, and so does a window under a click. -/
def WmOp.Moves : WmOp → Prop
  | .surfaceCreated _ _ _ | .pointerButton _ _ _ _ => True
  | _ => False

namespace WmManager

variable {ρ : Type} {R : Ratios ρ} {wm wm' : WmManager ρ} {requests : List Request}

/-- A window has the focus and loses it, and no request says so: the next workspace has no window,
or the window goes to another workspace, or it was the last one of its workspace and is closed. -/
def GivesAway (wm : WmManager ρ) : WmOp → Prop
  | .switchWorkspace idx =>
    wm.focusedSurface ≠ none ∧ ∃ ws : Fin numWorkspaces, ws.val = idx ∧ ws ≠ wm.activeWorkspace ∧
      (wm.workspaces ws).focused = none
  | .moveFocusedToWorkspace idx =>
    wm.focusedSurface ≠ none ∧ idx < numWorkspaces ∧ idx ≠ wm.activeWorkspace.val
  | .surfaceDestroyed sid => wm.focusedSurface = some sid ∧ ∀ f ∈ wm.active.leaves, f = sid
  | _ => False

/-- The operation asks the compositor for a focus: a window is new, or the one in focus is closed
and there is another, or a workspace with windows is shown, or the focus goes round the windows, or
there is a title bar under a click. -/
def Asks (wm : WmManager ρ) : WmOp → Prop
  | .surfaceCreated _ _ _ => True
  | .surfaceDestroyed sid => wm.focusedSurface = some sid ∧ ∃ f ∈ wm.active.leaves, f ≠ sid
  | .switchWorkspace idx => ∃ ws : Fin numWorkspaces, ws.val = idx ∧ ws ≠ wm.activeWorkspace ∧
      (wm.workspaces ws).focused ≠ none
  | .focusNext | .focusPrev => wm.active.leaves ≠ []
  | .pointerButton x y pressed _ =>
    pressed = true ∧ ∃ win ∈ wm.windows.list, wm.titleHit x y win = true
  | _ => False

/-- The windows that the shell knows of once it has heard of the event. -/
def known (wm : WmManager ρ) : WmOp → List UInt32
  | .surfaceCreated sid _ _ => sid :: wm.windows.list.map (·.surfaceId)
  | .surfaceDestroyed sid => (wm.windows.list.map (·.surfaceId)).filter (· ≠ sid)
  | _ => wm.windows.list.map (·.surfaceId)

/-- What an operation does to the focus, in the record of the shell and with its requests. -/
inductive FocusChange (wm : WmManager ρ) (op : WmOp) (wm' : WmManager ρ) (requests : List Request) :
    Prop where
  | kept : wm'.focusedSurface = wm.focusedSurface → Tells none requests →
      (wm.Agrees → ¬wm.GivesAway op ∧ ¬wm.Asks op) → FocusChange wm op wm' requests
  | told (f : UInt32) : wm'.focusedSurface = some f → Tells (some f) requests →
      (wm.Agrees → ¬wm.GivesAway op ∧ wm.Asks op ∧ f ∈ wm.known op) →
      FocusChange wm op wm' requests
  | silent : ¬op.Moves → Tells none requests →
      (wm.Agrees → wm'.focusedSurface ≠ wm.focusedSurface ∧ wm.GivesAway op) →
      FocusChange wm op wm' requests

theorem GivesAway.focused_ne {op : WmOp} (h : wm.GivesAway op) : wm.focusedSurface ≠ none := by
  cases op with
  | switchWorkspace | moveFocusedToWorkspace => exact h.1
  | surfaceDestroyed sid =>
    rw [h.1]
    exact some_ne_none sid
  | surfaceCreated | toggleFloating | toggleFullscreen | focusNext | focusPrev | snap | resizeSplit
  | pointerMotion | pointerButton => exact h.elim

theorem Agrees.mem_windows (h : wm.Agrees) {i : Fin numWorkspaces}
    (hf : f ∈ (wm.workspaces i).leaves) : f ∈ wm.windows.list.map (·.surfaceId) := by
  obtain ⟨win, hmem, hid, -⟩ := (h.placed.leaves i f).1 hf
  exact mem_map.2 ⟨win, hmem, hid⟩

theorem layoutAfter_eq_some {first : List Request}
    (h : wm.layoutAfter R first = some (wm', requests)) :
    wm'.focusedSurface = wm.focusedSurface ∧ ∀ focus, Tells focus first → Tells focus requests := by
  obtain ⟨⟨wm₁, more⟩, hlayout, heq⟩ := map_eq_some_iff.1 h
  obtain ⟨rects, -, hrects⟩ := map_eq_some_iff.1 hlayout
  cases heq
  cases hrects
  exact ⟨rfl, fun focus hfirst => hfirst.append (plain_positions _)⟩

theorem applyLayout_eq_some (h : wm.applyLayout R = some (wm', requests)) :
    wm'.focusedSurface = wm.focusedSurface ∧ ∀ r ∈ requests, r.Plain := by
  obtain ⟨rects, -, hrects⟩ := map_eq_some_iff.1 h
  cases hrects
  exact ⟨rfl, plain_positions _⟩

variable {op : WmOp} {wm₁ : WmManager ρ} {sid : UInt32} {win : WindowInfo}

theorem focusChange_self (hop : wm.Agrees → ¬wm.GivesAway op ∧ ¬wm.Asks op)
    (h : some (wm, []) = some (wm', requests)) : FocusChange wm op wm' requests := by
  cases h
  exact .kept rfl tells_nil hop

theorem focusChange_giveFocus (hop : wm.Agrees → ¬wm.GivesAway op ∧ wm.Asks op ∧ f ∈ wm.known op)
    (h : wm₁.giveFocus f = (wm', requests)) : FocusChange wm op wm' requests := by
  cases h
  exact .told f rfl (tells_setFocus (some f)) hop

theorem focusChange_layout (hop : ¬wm.GivesAway op ∧ ¬wm.Asks op)
    (hfocus : wm₁.focusedSurface = wm.focusedSurface)
    (h : wm₁.applyLayout R = some (wm', requests)) : FocusChange wm op wm' requests := by
  obtain ⟨hnew, hplain⟩ := applyLayout_eq_some h
  exact .kept (hnew.trans hfocus) (tells_none hplain) fun _ => hop

theorem focusChange_created {surfaceId width height : UInt32}
    (h : wm.onSurfaceCreated R surfaceId width height = some (wm', requests)) :
    FocusChange wm (.surfaceCreated surfaceId width height) wm' requests := by
  obtain ⟨⟨wm₁, more⟩, hlayout, heq⟩ := map_eq_some_iff.1 h
  obtain ⟨hfocused, hplain⟩ := applyLayout_eq_some hlayout
  cases heq
  exact .told surfaceId hfocused ((tells_setFocus (some surfaceId)).prepend hplain)
    fun _ => ⟨id, trivial, mem_cons_self⟩

/-- The end of `on_surface_destroyed`, once the window is out of the tables. -/
theorem focusChange_refocus {gone : WmManager ρ}
    (hfocus : gone.focusedSurface = wm.focusedSurface)
    (hleaves : wm.Agrees → ∀ f, f ∈ gone.active.leaves ↔ f ∈ wm.active.leaves ∧ f ≠ sid)
    (h : (if gone.focusedSurface = some sid then
        { gone with focusedSurface := gone.active.leaves.head? }.layoutAfter R
          (gone.active.leaves.head?.map setFocus).toList
      else gone.layoutAfter R []) = some (wm', requests)) :
    FocusChange wm (.surfaceDestroyed sid) wm' requests := by
  split at h
  · next hfocused =>
    rw [hfocus] at hfocused
    obtain ⟨hnew, htells⟩ := layoutAfter_eq_some h
    have htells := htells _ (tells_setFocus _)
    rcases hhead : gone.active.leaves.head? with - | f
    · rw [hhead] at htells
      have hempty : gone.active.leaves = [] := head?_eq_none_iff.1 hhead
      refine .silent id htells fun hagrees => ⟨?_, hfocused, fun f hf => ?_⟩
      · rw [hnew.trans hhead, hfocused]
        exact (some_ne_none sid).symm
      · by_contra hne
        have hmem := (hleaves hagrees f).2 ⟨hf, hne⟩
        rw [hempty] at hmem
        cases hmem
    · rw [hhead] at htells
      refine .told f (hnew.trans hhead) htells fun hagrees => ?_
      obtain ⟨hmem, hne⟩ := (hleaves hagrees f).1 (mem_of_head? hhead)
      refine ⟨fun hop => hne (hop.2 f hmem), ⟨hfocused, f, hmem, hne⟩, ?_⟩
      exact mem_filter.2 ⟨hagrees.mem_windows hmem, by simpa using hne⟩
  · next hother =>
    obtain ⟨hnew, htells⟩ := layoutAfter_eq_some h
    rw [hfocus] at hother
    exact .kept (hnew.trans hfocus) (htells _ tells_nil)
      fun _ => ⟨fun hop => hother hop.1, fun hop => hother hop.1⟩

theorem focusChange_destroyed {surfaceId : UInt32}
    (h : wm.onSurfaceDestroyed R surfaceId = some (wm', requests)) :
    FocusChange wm (.surfaceDestroyed surfaceId) wm' requests := by
  rw [onSurfaceDestroyed] at h
  cases hget : wm.windows.get surfaceId with
  | some win =>
    rw [hget] at h
    refine focusChange_refocus ?_ (fun hagrees f => ?_) h
    · rfl
    · exact ((hagrees.placed.erase hget).leaves _ f).trans
        (onWorkspace_erase.trans (and_congr_left' (hagrees.placed.leaves _ f).symm))
  | none =>
    rw [hget] at h
    refine focusChange_refocus rfl (fun hagrees f => (and_iff_left_of_imp fun hf heq => ?_).symm) h
    obtain ⟨win, hmem, hid, -⟩ := (hagrees.placed.leaves _ f).1 hf
    exact Keyed.get_eq_none.1 hget win hmem (hid.trans heq)

theorem plain_switchRequests (wins : List WindowInfo) (oldWs newWs : Fin numWorkspaces) :
    ∀ r ∈ wins.filterMap (switchRequest oldWs newWs), r.Plain := by
  intro r hr
  obtain ⟨win, -, hwin⟩ := mem_filterMap.1 hr
  rw [switchRequest] at hwin
  split at hwin
  · cases hwin
    exact plain_setState _ _
  · split at hwin
    · cases hwin
      exact plain_setState _ _
    · cases hwin

theorem focusChange_switched {idx : Nat} (h : wm.switchWorkspace R idx = some (wm', requests)) :
    FocusChange wm (.switchWorkspace idx) wm' requests := by
  rw [switchWorkspace] at h
  split at h
  · next hidx =>
    dsimp only at h
    split at h
    · next hactive =>
      refine focusChange_self (fun _ => ⟨?_, ?_⟩) h
      · rintro ⟨-, ws, rfl, hne, -⟩
        exact hne hactive
      · rintro ⟨ws, rfl, hne, -⟩
        exact hne hactive
    · next hne =>
      obtain ⟨hnew, htells⟩ := layoutAfter_eq_some h
      have htells := htells _ ((tells_setFocus _).prepend (plain_switchRequests _ _ _))
      rcases hfocus : (wm.workspaces ⟨idx, hidx⟩).focused with - | f
      · rw [hfocus] at htells
        -- with no focus before there is nothing to lose
        by_cases hbefore : wm.focusedSurface = none
        · refine .kept ((hnew.trans hfocus).trans hbefore.symm) htells fun _ =>
            ⟨fun hop => hop.1 hbefore, ?_⟩
          rintro ⟨ws, rfl, -, hsome⟩
          exact hsome hfocus
        · refine .silent id htells fun _ => ⟨?_, hbefore, ⟨idx, hidx⟩, rfl, hne, hfocus⟩
          rw [hnew.trans hfocus]
          exact .symm hbefore
      · rw [hfocus] at htells
        refine .told f (hnew.trans hfocus) htells fun hagrees => ⟨?_, ?_, ?_⟩
        · rintro ⟨-, ws, rfl, -, hnone⟩
          cases hfocus.symm.trans hnone
        · exact ⟨⟨idx, hidx⟩, rfl, hne, hfocus ▸ some_ne_none f⟩
        · exact hagrees.mem_windows ((hagrees.placed.sound _).focused f hfocus)
  · next hidx =>
    refine focusChange_self (fun _ => ⟨?_, ?_⟩) h
    · rintro ⟨-, ws, rfl, -⟩
      exact hidx ws.isLt
    · rintro ⟨ws, rfl, -⟩
      exact hidx ws.isLt

theorem Agrees.workspace_focused (h : wm.Agrees) (hfocused : wm.focusedSurface = some sid)
    (hget : wm.windows.get sid = some win) : win.workspace = wm.activeWorkspace :=
  (((h.placed.leaves _ sid).1 (h.focused sid hfocused)).eq hget).symm

theorem Agrees.not_mem_active_move (h : wm.Agrees) (hget : wm.windows.get sid = some win)
    {newWs : Fin numWorkspaces} (hne : newWs ≠ wm.activeWorkspace) :
    sid ∉ ((wm.modifyWorkspace win.workspace (·.remove sid)).modifyWorkspace newWs
      (·.insert R sid)).active.leaves := by
  intro hmem
  have hon := ((h.placed_move R hget newWs).leaves wm.activeWorkspace sid).1 hmem
  have hid : win.surfaceId = sid := (Keyed.get_eq_some.1 hget).2
  rcases onWorkspace_insert.1 ((onWorkspace_move hget newWs _ _).1 hon) with ⟨-, heq⟩ | ⟨-, hother⟩
  · exact hne heq
  · exact hother hid.symm

theorem focusChange_moved {idx : Nat} (h : wm.moveFocusedToWorkspace R idx = some (wm', requests)) :
    FocusChange wm (.moveFocusedToWorkspace idx) wm' requests := by
  rw [moveFocusedToWorkspace] at h
  split at h
  · next hnone => exact focusChange_self (fun _ => ⟨fun hop => hop.1 hnone, id⟩) h
  · next sid hfocused =>
    split at h
    · next hidx =>
      dsimp only at h
      split at h
      · next hget =>
        refine focusChange_self (fun hagrees => ⟨fun hop => ?_, id⟩) h
        obtain ⟨win, hmem, hid, -⟩ := (hagrees.placed.leaves _ sid).1 (hagrees.focused sid hfocused)
        exact Keyed.get_eq_none.1 hget win hmem hid
      · next win hget =>
        split at h
        · next hsame =>
          refine focusChange_self (fun hagrees => ⟨fun hop => hop.2.2 ?_, id⟩) h
          rw [← hagrees.workspace_focused hfocused hget, hsame]
        · next hne =>
          obtain ⟨hnew, htells⟩ := layoutAfter_eq_some h
          refine .silent id (htells _ (tells_none (plain_state _ _))) fun hagrees => ?_
          have hactive := hagrees.workspace_focused hfocused hget
          have hidx' : (⟨idx, hidx⟩ : Fin numWorkspaces) ≠ wm.activeWorkspace := fun heq =>
            hne (hactive.trans heq.symm)
          refine ⟨fun heq => ?_, ?_, hidx, fun heq => hidx' (Fin.ext heq)⟩
          · rw [hfocused, hnew] at heq
            exact hagrees.not_mem_active_move hget hidx' (mem_of_head? heq)
          · rw [hfocused]
            exact some_ne_none sid
    · next hidx => exact focusChange_self (fun _ => ⟨fun hop => hidx hop.2.1, id⟩) h

theorem focusChange_focusNeighbour {next : UInt32 → Option UInt32} {last : Option UInt32}
    (hop : ¬wm.GivesAway op) (hasks : wm.Asks op ↔ wm.active.leaves ≠ [])
    (hknown : wm.known op = wm.windows.list.map (·.surfaceId))
    (hnext : ∀ current f, next current = some f → f ∈ wm.active.leaves)
    (hlast : ∀ f, last = some f → f ∈ wm.active.leaves)
    (hnone : last = none → wm.active.leaves = [])
    (h : (match (wm.focusedSurface.bind next).or last with
      | some f => wm.giveFocus f
      | none => (wm, [])) = (wm', requests)) : FocusChange wm op wm' requests := by
  split at h
  · next f hfocus =>
    have hmem := mem_of_neighbour hnext hlast hfocus
    refine focusChange_giveFocus (fun hagrees => ⟨hop, hasks.2 (ne_nil_of_mem hmem), ?_⟩) h
    rw [hknown]
    exact hagrees.mem_windows hmem
  · next hfocus =>
    have hempty := hnone (or_eq_none_iff.1 hfocus).2
    exact focusChange_self (fun _ => ⟨hop, fun hask => hasks.1 hask hempty⟩) (congrArg some h)

theorem focusChange_button {x y : Int32} {pressed : Bool} {choice : Nat}
    (h : wm.onPointerButton x y pressed choice = (wm', requests)) :
    FocusChange wm (.pointerButton x y pressed choice) wm' requests := by
  rw [onPointerButton] at h
  split at h
  · next hreleased =>
    cases h
    refine .kept rfl tells_nil fun _ => ⟨id, fun hask => ?_⟩
    rw [hask.1] at hreleased
    cases hreleased
  · next hpressed =>
    dsimp only at h
    split at h
    · next win hwin =>
      obtain ⟨hmem, hhit⟩ := mem_filter.1 (mem_of_getElem? hwin)
      have hget : (wm.windows.get win.surfaceId).isSome = true :=
        isSome_iff_exists.2 ⟨win, Keyed.get_eq_some.2 ⟨hmem, rfl⟩⟩
      rw [focusSurface, if_pos hget] at h
      exact focusChange_giveFocus (fun _ => ⟨id, ⟨by simpa using hpressed, win, hmem, hhit⟩,
        mem_map_of_mem hmem⟩) h
    · next hnone =>
      refine focusChange_self (fun _ => ⟨id, ?_⟩) (congrArg some h)
      rintro ⟨-, win, hmem, hhit⟩
      have hpos := length_pos_of_mem (mem_filter.2 ⟨hmem, hhit⟩)
      exact absurd (getElem?_eq_none_iff.1 hnone) (Nat.not_le.2 (Nat.mod_lt _ hpos))

theorem focusChange_motion {x y : Int32} (h : wm.onPointerMotion x y = (wm', requests)) :
    FocusChange wm (.pointerMotion x y) wm' requests := by
  rw [onPointerMotion] at h
  split at h
  · split at h
    · split at h
      · cases h
        exact .kept rfl (tells_none (plain_positions [_])) fun _ => ⟨id, id⟩
      · exact focusChange_self (fun _ => ⟨id, id⟩) (congrArg some h)
    · exact focusChange_self (fun _ => ⟨id, id⟩) (congrArg some h)
  · exact focusChange_self (fun _ => ⟨id, id⟩) (congrArg some h)

theorem focusChange_fullscreen (h : wm.toggleFullscreen R = some (wm', requests)) :
    FocusChange wm .toggleFullscreen wm' requests := by
  rw [toggleFullscreen] at h
  split at h
  · exact focusChange_self (fun _ => ⟨id, id⟩) h
  · next sid _ =>
    split at h
    · exact focusChange_layout ⟨id, id⟩ rfl h
    · split at h
      · obtain ⟨hnew, htells⟩ := layoutAfter_eq_some h
        exact .kept hnew (htells _ (tells_none (plain_state _ _))) fun _ => ⟨id, id⟩
      · cases h
        refine .kept rfl (tells_none fun r hr => ?_) fun _ => ⟨id, id⟩
        rcases mem_cons.1 hr with rfl | hr
        · exact plain_setState _ _
        · rw [mem_singleton.1 hr]
          exact plain_setPosition _

/-- **What the operations do to the focus.** -/
theorem focusChange_apply (h : wm.apply R op = some (wm', requests)) :
    FocusChange wm op wm' requests := by
  cases op with
  | surfaceCreated surfaceId width height => exact focusChange_created h
  | surfaceDestroyed surfaceId => exact focusChange_destroyed h
  | switchWorkspace idx => exact focusChange_switched h
  | moveFocusedToWorkspace idx => exact focusChange_moved h
  | toggleFloating =>
    change wm.toggleFloating R = _ at h
    rw [toggleFloating] at h
    split at h
    · exact focusChange_self (fun _ => ⟨id, id⟩) h
    · refine focusChange_layout ⟨id, id⟩ ?_ h
      rfl
  | toggleFullscreen => exact focusChange_fullscreen h
  | focusNext =>
    exact focusChange_focusNeighbour id .rfl rfl (fun _ _ => Workspace.mem_of_nextAfter)
      (fun _ => mem_of_head?) head?_eq_none_iff.1 (some.inj h)
  | focusPrev =>
    exact focusChange_focusNeighbour id .rfl rfl (fun _ _ => Workspace.mem_of_prevBefore)
      (fun _ => mem_of_getLast?) getLast?_eq_none_iff.1 (some.inj h)
  | snap direction =>
    have hsnap := some.inj h
    rw [snap] at hsnap
    split at hsnap
    · exact focusChange_self (fun _ => ⟨id, id⟩) (congrArg some hsnap)
    · cases hsnap
      exact .kept rfl (tells_none (plain_positions _)) fun _ => ⟨id, id⟩
  | resizeSplit grow =>
    change wm.resizeSplit R grow = _ at h
    rw [resizeSplit] at h
    split at h
    · exact focusChange_self (fun _ => ⟨id, id⟩) h
    · refine focusChange_layout ⟨id, id⟩ ?_ h
      rfl
  | pointerMotion x y => exact focusChange_motion (some.inj h)
  | pointerButton x y pressed choice => exact focusChange_button (some.inj h)

end WmManager

/-! ## The compositor's side -/

section

variable (mode : Mode) (fd : Nat)

/-- The compositor handles requests that come from a connection, and closes it at the first that it
refuses. -/
def serveRequests : (Nat → MsgEnv) → State → List Request → State
  | _, st, [] => st
  | env, st, r :: requests =>
    match st.clients.find fd with
    | none => st
    | some client =>
      match handleClientMessage mode (env 0) st client r.msg with
      | (st, true) => serveRequests (fun n => env (n + 1)) st requests
      | (st, false) => closeFd st fd

end

/-- The connection is that of a window manager. -/
def Serving (fd : Nat) (st : State) : Prop :=
  ∃ c, st.clients.find fd = some c ∧ c.helloDone = true ∧ c.hasCap Cap.windowManager = true

/-- What does not change when a window is placed or shown. -/
structure SameFocus (st st' : State) : Prop where
  clients : st'.clients = st.clients
  focus : st'.keyboardFocusSurfaceId = st.keyboardFocusSurfaceId
  surfaces : ∀ id, (st'.surfaceManager.find id).isSome = (st.surfaceManager.find id).isSome

section

variable (mode : Mode) {fd : Nat} {client : Client} {env : MsgEnv} {st st' st'' : State}

theorem SameFocus.refl (st : State) : SameFocus st st := ⟨rfl, rfl, fun _ => rfl⟩

theorem SameFocus.trans (h : SameFocus st st') (h' : SameFocus st' st'') : SameFocus st st'' :=
  ⟨h'.clients.trans h.clients, h'.focus.trans h.focus,
    fun id => (h'.surfaces id).trans (h.surfaces id)⟩

theorem SameFocus.serving (h : SameFocus st st') (hserving : Serving fd st) : Serving fd st' := by
  rw [Serving, h.clients]
  exact hserving

theorem sameFocus_modifySurface {surfaceId : UInt32} {f : Surface → Surface}
    (hf : ∀ id s, (f s).hasId id = s.hasId id) : SameFocus st (st.modifySurface surfaceId f) := by
  refine ⟨rfl, rfl, fun id => ?_⟩
  have hmap := ListUpdate.map_modifyFirst (p := Surface.hasId surfaceId) (hf id)
    st.surfaceManager.slots
  rw [Bool.eq_iff_iff, SurfaceManager.find, SurfaceManager.find, find?_isSome, find?_isSome]
  have hiff : ∀ l : List Surface,
      (∃ s, s ∈ l ∧ s.hasId id = true) ↔ true ∈ l.map (Surface.hasId id) := fun l => by simp
  rw [hiff, hiff]
  exact iff_of_eq (congrArg (true ∈ ·) hmap)

theorem handle_plain {r : Request} (h : r.Plain) (hdone : client.helloDone = true)
    (hcap : client.hasCap Cap.windowManager = true) (hok : env.repaintOk = true) :
    ∃ st', handleClientMessage mode env st client r.msg = (st', true) ∧ SameFocus st st' := by
  rcases h with ⟨htype, hdecode⟩ | ⟨htype, hdecode⟩
  · obtain ⟨p, hp⟩ := isSome_iff_exists.1 hdecode
    have hhandle : handleClientMessage mode env st client r.msg =
        handleWmSetPosition mode env st client r.msg := by
      rw [handleClientMessage, hdone, htype]
      rfl
    rw [hhandle, handleWmSetPosition, if_neg (by simp [hcap]), hp]
    dsimp only
    split
    · exact ⟨st, rfl, .refl st⟩
    · split
      · exact ⟨st, rfl, .refl st⟩
      · rw [hok]
        exact ⟨_, rfl, sameFocus_modifySurface fun _ _ => rfl⟩
  · obtain ⟨p, hp⟩ := isSome_iff_exists.1 hdecode
    have hhandle : handleClientMessage mode env st client r.msg =
        handleWmSetState env st client r.msg := by
      rw [handleClientMessage, hdone, htype]
      rfl
    rw [hhandle, handleWmSetState, if_neg (by simp [hcap]), hp]
    dsimp only
    rw [hok]
    exact ⟨_, rfl, sameFocus_modifySurface fun _ _ => rfl⟩

theorem decodeSetFocus_setFocus (surfaceId : UInt32) :
    decodeSetFocus (setFocus surfaceId).msg = some surfaceId :=
  (Lgp.decoded_new decodeSetFocus .wmSetFocus (by simp : [surfaceId].length ≤ 6)).symm.trans
    (Lgp.decoded_setFocus surfaceId)

theorem handle_setFocus (env : MsgEnv) (hdone : client.helloDone = true)
    (hcap : client.hasCap Cap.windowManager = true) (hne : f ≠ 0)
    (hfind : (st.surfaceManager.find f).isSome = true) :
    ∃ st', handleClientMessage mode env st client (setFocus f).msg = (st', true) ∧
      st'.clients = st.clients ∧ st'.keyboardFocusSurfaceId = f := by
  obtain ⟨surface, hsurface⟩ := isSome_iff_exists.1 hfind
  have hid : surface.id = f := by
    have hfound := find?_some hsurface
    rw [Surface.hasId, Bool.and_eq_true, beq_iff_eq] at hfound
    exact hfound.2
  have hhandle : handleClientMessage mode env st client (setFocus f).msg =
      handleWmSetFocus st client (setFocus f).msg := by
    rw [handleClientMessage, hdone]
    rfl
  rw [hhandle, handleWmSetFocus, if_neg (by simp [hcap]), decodeSetFocus_setFocus]
  dsimp only
  rw [if_neg hne, hsurface]
  exact ⟨_, rfl, rfl, hid⟩

variable {requests : List Request}

/-- The compositor gets through requests that have nothing to do with the focus. -/
theorem serve_append {before : List Request} (hplain : ∀ r ∈ before, r.Plain)
    (hserving : Serving fd st) {env : Nat → MsgEnv} (henv : ∀ n, (env n).repaintOk = true)
    (rest : List Request) :
    ∃ env' st', serveRequests mode fd env st (before ++ rest) =
        serveRequests mode fd env' st' rest ∧
      SameFocus st st' ∧ ∀ n, (env' n).repaintOk = true := by
  induction before generalizing env st with
  | nil => exact ⟨env, st, rfl, .refl st, henv⟩
  | cons r before ih =>
    rw [forall_mem_cons] at hplain
    obtain ⟨c, hc, hdone, hcap⟩ := id hserving
    obtain ⟨st₁, hhandle, hsame⟩ := handle_plain mode hplain.1 hdone hcap (henv 0)
    obtain ⟨env', st', heq, hsame', henv'⟩ :=
      ih hplain.2 (hsame.serving hserving) fun n => henv (n + 1)
    refine ⟨env', st', ?_, hsame.trans hsame', henv'⟩
    rw [cons_append, serveRequests, hc]
    simp only [hhandle]
    exact heq

theorem focus_serve_plain (hplain : ∀ r ∈ requests, r.Plain) (hserving : Serving fd st)
    {env : Nat → MsgEnv} (henv : ∀ n, (env n).repaintOk = true) :
    (serveRequests mode fd env st requests).keyboardFocusSurfaceId = st.keyboardFocusSurfaceId := by
  obtain ⟨env', st', heq, hsame, -⟩ := serve_append mode hplain hserving henv []
  rw [append_nil] at heq
  rw [heq]
  exact hsame.focus

/-- The compositor's focus after the requests of an operation: the window that they ask for, if they
do. -/
theorem focus_serve (h : Tells focus requests) (hserving : Serving fd st) {env : Nat → MsgEnv}
    (henv : ∀ n, (env n).repaintOk = true)
    (hknown : ∀ f ∈ focus, f ≠ 0 ∧ (st.surfaceManager.find f).isSome = true) :
    (serveRequests mode fd env st requests).keyboardFocusSurfaceId =
      focus.getD st.keyboardFocusSurfaceId := by
  obtain ⟨before, after, rfl, hplain⟩ := h
  rw [forall_mem_append] at hplain
  rcases focus with - | f
  · refine focus_serve_plain mode (fun r hr => ?_) hserving henv
    rcases mem_append.1 hr with hr | hr
    · exact hplain.1 r (by simpa using hr)
    · exact hplain.2 r hr
  · obtain ⟨hne, hfind⟩ := hknown f rfl
    obtain ⟨env₁, st₁, heq, hsame, henv₁⟩ :=
      serve_append mode hplain.1 hserving henv (setFocus f :: after)
    obtain ⟨c, hc, hdone, hcap⟩ := hsame.serving hserving
    obtain ⟨st₂, hhandle, hclients, hfocus⟩ :=
      handle_setFocus mode (env₁ 0) hdone hcap hne ((hsame.surfaces f).trans hfind)
    rw [append_assoc, Option.map_some, toList_some, singleton_append, heq, serveRequests, hc]
    simp only [hhandle]
    have hserving₂ : Serving fd st₂ := ⟨c, hclients ▸ hc, hdone, hcap⟩
    exact (focus_serve_plain mode hplain.2 hserving₂ fun n => henv₁ (n + 1)).trans hfocus

end

/-! ## Both sides -/

/-- The surface that `keyboard_focus_surface_id` stands for. -/
def holder (id : UInt32) : Option UInt32 := if id = 0 then none else some id

/-- The window manager of the shell, and the compositor. -/
structure FocusPair (ρ : Type) where
  wm : Option (WmManager ρ)
  comp : State

/-- An operation of the window manager, and what the compositor does until it comes to the requests
from the shell's connection. -/
structure Turn where
  op : WmOp
  events : List Compositor.Event
  fd : Nat
  env : Nat → MsgEnv

/-- The compositor when it comes to the requests. -/
def Turn.meanwhile (mode : Mode) (t : Turn) (st : State) : State :=
  run (Compositor.step mode) st t.events

namespace FocusPair

section

variable {ρ : Type} (R : Ratios ρ) (mode : Mode)

def step (p : FocusPair ρ) (t : Turn) : FocusPair ρ :=
  match p.wm.bind fun wm => wm.apply R t.op with
  | some (wm, requests) =>
    ⟨some wm, serveRequests mode t.fd t.env (t.meanwhile mode p.comp) requests⟩
  | none => ⟨none, t.meanwhile mode p.comp⟩

/-- The compositor's focus is the window that the shell has in focus, and cleared if there is
none. -/
def Agree (p : FocusPair ρ) : Prop :=
  ∀ wm ∈ p.wm, wm.focusedSurface = holder p.comp.keyboardFocusSurfaceId

/-- The focus has not changed since the last operation, other than with the event that this one is
about. -/
def Undisturbed (p : FocusPair ρ) (t : Turn) : Prop :=
  t.op.Moves ∨
    (t.meanwhile mode p.comp).keyboardFocusSurfaceId = p.comp.keyboardFocusSurfaceId

/-- What is assumed of a turn: nothing else moves the focus; the shell does not panic; a new window
is new; and the compositor serves the shell, can paint, and has the windows of the shell. -/
structure Regular (p : FocusPair ρ) (t : Turn) : Prop where
  undisturbed : p.Undisturbed mode t
  runs : (p.step R mode t).wm.isSome = true
  announces : WmManager.Announces p.wm t.op
  serving : Serving t.fd (t.meanwhile mode p.comp)
  paints : ∀ n, (t.env n).repaintOk = true
  known : ∀ wm ∈ p.wm, ∀ f ∈ wm.known t.op,
    f ≠ 0 ∧ ((t.meanwhile mode p.comp).surfaceManager.find f).isSome = true

/-- The operation does not give the focus away, and it asks for one unless the compositor has it
where the shell does. -/
def Good (p : FocusPair ρ) (t : Turn) : Prop :=
  ∀ wm ∈ p.wm, ¬wm.GivesAway t.op ∧ (wm.Asks t.op ∨
    wm.focusedSurface = holder (t.meanwhile mode p.comp).keyboardFocusSurfaceId)

variable {R} {mode} {p : FocusPair ρ} {t : Turn}

theorem Regular.apply (h : p.Regular R mode t) :
    ∃ wm r, p.wm = some wm ∧ wm.apply R t.op = some r := by
  have hruns := h.runs
  rw [step] at hruns
  rcases hstep : p.wm.bind fun wm => wm.apply R t.op with - | r
  · rw [hstep] at hruns
    cases hruns
  · obtain ⟨wm, hwm, happly⟩ := bind_eq_some_iff.1 hstep
    exact ⟨wm, r, hwm, happly⟩

theorem step_eq {wm : WmManager ρ} {r : WmManager ρ × List Request} (hwm : p.wm = some wm)
    (happly : wm.apply R t.op = some r) :
    p.step R mode t =
      ⟨some r.1, serveRequests mode t.fd t.env (t.meanwhile mode p.comp) r.2⟩ := by
  rw [step, hwm, bind_some, happly]

/-- **One operation.**  It leaves the two in agreement exactly if it is a good one, if they agreed
before it or the shell had no window in focus. -/
theorem agree_step_iff (hagrees : ∀ wm ∈ p.wm, wm.Agrees)
    (hbefore : p.Agree ∨ ∀ wm ∈ p.wm, wm.focusedSurface = none) (h : p.Regular R mode t) :
    (p.step R mode t).Agree ↔ p.Good mode t := by
  obtain ⟨wm, ⟨wm', requests⟩, hwm, happly⟩ := h.apply
  have hserve {focus : Option UInt32} (htells : Tells focus requests)
      (hknown : ∀ f ∈ focus, f ∈ wm.known t.op) := focus_serve mode htells h.serving
    h.paints fun f hf => h.known wm hwm f (hknown f hf)
  rw [step_eq hwm happly, Agree, Good, hwm]
  simp only [mem_some_iff, forall_eq']
  cases WmManager.focusChange_apply happly with
  | kept hfocus htells hop =>
    obtain ⟨haway, hasks⟩ := hop (hagrees wm hwm)
    rw [hserve htells nofun, hfocus, and_iff_right haway, or_iff_right hasks]
    rfl
  | told f hfocus htells hop =>
    obtain ⟨haway, hasks, hknown⟩ := hop (hagrees wm hwm)
    have hne := (h.known wm hwm f hknown).1
    rw [hserve htells (by simpa using hknown), hfocus, getD_some, holder, if_neg hne]
    exact iff_of_true rfl ⟨haway, .inl hasks⟩
  | silent hmoves htells hop =>
    obtain ⟨hne, haway⟩ := hop (hagrees wm hwm)
    have hagree : p.Agree := hbefore.resolve_right fun hnone => haway.focused_ne (hnone wm hwm)
    rw [hserve htells nofun, getD_none, h.undisturbed.resolve_left hmoves, ← hagree wm hwm]
    exact iff_of_false hne fun hgood => hgood.1 haway

theorem agrees_step (hagrees : ∀ wm ∈ p.wm, wm.Agrees) (h : p.Regular R mode t) :
    ∀ wm ∈ (p.step R mode t).wm, wm.Agrees := by
  obtain ⟨wm, r, hwm, happly⟩ := h.apply
  have hstep := WmManager.agrees_step R p.wm t.op hagrees h.announces
  rw [WmManager.step, hwm, bind_some, happly] at hstep
  rw [step_eq hwm happly]
  exact hstep

variable (ρ) in
/-- The shell has just made its window manager. -/
def start (screenW screenH : UInt32) (comp : State) : FocusPair ρ :=
  ⟨some (.new screenW screenH), comp⟩

/-- **The two records of the focus.**  In every run from the start of the shell, whatever the
compositor has in focus then, and in which every turn is regular:

* the shell and the compositor have the same focus after every operation if and only if no operation
  gives the focus away, and each asks for a focus unless the two have the same when it comes;
* where both agree, the compositor's focus is cleared or on a window of the active workspace. -/
theorem focus_agrees_iff (R : Ratios ρ) (mode : Mode) (screenW screenH : UInt32) (comp : State)
    {turns : List Turn}
    (hregular : Along (step R mode) (Regular R mode) (start ρ screenW screenH comp) turns) :
    ((∀ pre, pre <+: turns → pre ≠ [] →
        (run (step R mode) (start ρ screenW screenH comp) pre).Agree) ↔
      Along (step R mode) (Good mode) (start ρ screenW screenH comp) turns) ∧
    ∀ pre, pre <+: turns → ∀ q, run (step R mode) (start ρ screenW screenH comp) pre = q →
      q.Agree → ∀ wm ∈ q.wm, q.comp.keyboardFocusSurfaceId = 0 ∨
        q.comp.keyboardFocusSurfaceId ∈ wm.active.leaves := by
  have hagrees : ∀ wm ∈ (start ρ screenW screenH comp).wm, wm.Agrees := by
    intro wm hwm
    cases hwm
    exact WmManager.agrees_new screenW screenH
  have hnone : ∀ wm ∈ (start ρ screenW screenH comp).wm, wm.focusedSurface = none := by
    intro wm hwm
    cases hwm
    rfl
  refine ⟨?_, fun pre hpre q hq hagree wm hwm => ?_⟩
  · rcases turns with - | ⟨t, turns⟩
    · exact iff_of_true (fun pre hpre hne => absurd (prefix_nil.1 hpre) hne) trivial
    -- after the first operation, every state has to agree for the next one to be judged
    · have hfirst := agree_step_iff hagrees (.inr hnone) hregular.1
      have hrest (hagree : ((start ρ screenW screenH comp).step R mode t).Agree) :=
        forall_prefix_iff (I := fun q => q.Agree ∧ ∀ wm ∈ q.wm, wm.Agrees)
          (fun q t hq hreg => and_iff_left (agrees_step hq.2 hreg) |>.trans
            (agree_step_iff hq.2 (.inl hq.1) hreg))
          ⟨hagree, agrees_step hagrees hregular.1⟩ hregular.2
      constructor
      · intro h
        have hagree := h [t] ⟨turns, rfl⟩ (cons_ne_nil t [])
        refine ⟨hfirst.1 hagree, (hrest hagree).1 fun pre hpre => ?_⟩
        refine ⟨h (t :: pre) ((prefix_cons_inj t).2 hpre) (cons_ne_nil t pre), ?_⟩
        obtain ⟨post, rfl⟩ := hpre
        exact inv_run (I := fun q => ∀ wm ∈ q.wm, wm.Agrees) (fun _ _ => agrees_step)
          (agrees_step hagrees hregular.1) (along_append.1 hregular.2).1
      · rintro ⟨hgood, hgoods⟩ pre hpre hne
        rcases pre with - | ⟨t', pre⟩
        · exact absurd rfl hne
        · obtain ⟨rfl, hpre'⟩ := cons_prefix_cons.1 hpre
          exact ((hrest (hfirst.2 hgood)).2 hgoods pre hpre').1
  · obtain ⟨post, rfl⟩ := hpre
    have hinv := inv_run (I := fun q => ∀ wm ∈ q.wm, wm.Agrees) (fun _ _ => agrees_step) hagrees
      (along_append.1 hregular).1
    rw [hq] at hinv
    refine or_iff_not_imp_left.2 fun hne => (hinv wm hwm).focused _ ?_
    rw [hagree wm hwm, holder, if_neg hne]

end

/-! ## Windows that keep the keys -/

open Shell.System (smallMode shellClient sends appWindow)
open WmManager (percent)

/-- The shell is registered as the window manager. -/
def connected : State :=
  run (Compositor.step smallMode) {} [.accept 7 0 true, sends 7 (helloRequest shellCaps)]

/-- And it has given the focus to its overlay. -/
def overlaid : State :=
  run (Compositor.step smallMode) connected
    [sends 7 (fullSurface SurfaceType.shellSurface Layer.shell 1024 768), sends 7 (setFocus 1)]

/-- The window manager at its start. -/
def begun : FocusPair Int32 := start Int32 1024 768 overlaid

def opens : Turn := ⟨.surfaceCreated 2 400 300, appWindow 400 300, 7, fun _ => {}⟩

def nexts : Turn := ⟨.focusNext, [], 7, fun _ => {}⟩

def switches (idx : Nat) : Turn := ⟨.switchWorkspace idx, [], 7, fun _ => {}⟩

def moves (idx : Nat) : Turn := ⟨.moveFocusedToWorkspace idx, [], 7, fun _ => {}⟩

def closes : Turn where
  op := .surfaceDestroyed 2
  events :=
    [.read 8 ⟨(⟨MsgType.destroySurface, Lgp.words [2]⟩ : Msg).encode, [], false⟩ fun _ => {}]
  fd := 7
  env _ := {}

/-- What is left after a run: the window that the shell has in focus, the compositor's, its state,
and who gets the next key. -/
structure Outcome where
  shell : Option (Option UInt32)
  comp : UInt32
  wmState : Option UInt32
  key : List Nat
  deriving DecidableEq

def outcome (turns : List Turn) : Outcome :=
  let p := run (step percent smallMode) begun turns
  { shell := p.wm.map (·.focusedSurface)
    comp := p.comp.keyboardFocusSurfaceId
    wmState := (p.comp.surfaceManager.find p.comp.keyboardFocusSurfaceId).map (·.wmState)
    key := (Compositor.step smallMode p.comp (.key 30 1 0)).sent.map Sent.fd }

instance (p : FocusPair Int32) : Decidable p.Agree :=
  inferInstanceAs (Decidable (∀ wm ∈ p.wm, _))

/-- A window that opens has the focus on both sides, also after the user has asked for the next one;
at the start the overlay had it. -/
theorem focus_agrees_iff_opens :
    ¬begun.Agree ∧ ∀ pre, pre <+: [opens, nexts] → pre ≠ [] →
      (run (step percent smallMode) begun pre).Agree := by
  have hregular : Along (step percent smallMode) (Regular percent smallMode) begun [opens, nexts] :=
    ⟨⟨.inl trivial, by decide +kernel, by decide +kernel, ⟨shellClient, by decide +kernel⟩,
        fun _ => rfl, by decide +kernel⟩,
      ⟨.inr rfl, by decide +kernel, trivial, ⟨shellClient, by decide +kernel⟩, fun _ => rfl,
        by decide +kernel⟩, trivial⟩
  have hleaves : ∀ wm ∈ (step percent smallMode begun opens).wm, wm.active.leaves ≠ [] := by
    decide +kernel
  refine ⟨by decide +kernel, (focus_agrees_iff percent smallMode 1024 768 overlaid hregular).1.2 ?_⟩
  exact ⟨fun _ _ => ⟨id, .inl trivial⟩, fun wm hwm => ⟨id, .inl (hleaves wm hwm)⟩, trivial⟩

/-- **A window that has lost the focus still gets the keys.**  The application has connection 8.
Once its window is hidden on another workspace, is moved to one or is closed, the shell has nothing
in focus; the compositor goes on to send the keys to the application. -/
theorem keys_left_behind :
    Along (step percent smallMode) (Undisturbed smallMode) begun [opens, switches 1] ∧
    outcome [opens] = ⟨some (some 2), 2, some WmState.normal, [8]⟩ ∧
    outcome [opens, switches 1] = ⟨some none, 2, some WmState.hidden, [8]⟩ ∧
    outcome [opens, moves 1] = ⟨some none, 2, some WmState.hidden, [8]⟩ ∧
    outcome [opens, closes] = ⟨some none, 2, none, [8]⟩ ∧
    ¬(run (step percent smallMode) begun [opens, switches 1]).Agree :=
  ⟨⟨.inl trivial, .inr rfl, trivial⟩, by decide +kernel⟩

end FocusPair

end Shell
