import MahinaOS.Shell.Outcomes

/-!
# Where the windows are

What the operations of the window manager are for, as far as it is about where windows are.

* **`drag_follows_iff`**: a window that is dragged by its title bar is 24 pixels too high from the
  first motion on.
* **`toggleFullscreen_twice_iff`**: when leaving fullscreen gives everything back.
-/

namespace Shell.WmManager

open List Option

variable {ρ : Type} {R : Ratios ρ} {wm : WmManager ρ} {win : WindowInfo} {sid : UInt32}

/-! ## Dragging -/

/-- A press of the button, and motions before its release. -/
def drag (wm : WmManager ρ) (x y : Int32) (choice : Nat) (motions : List (Int32 × Int32)) :
    WmManager ρ :=
  motions.foldl (fun wm m => (wm.onPointerMotion m.1 m.2).1) (wm.onPointerButton x y true choice).1

/-- The window with the id is moved. -/
def displaced (sid : UInt32) (dx dy : Int32) (win : WindowInfo) : WindowInfo :=
  if win.surfaceId = sid then { win with x := win.x + dx, y := win.y + dy } else win

/-- **A window does not follow the pointer**: from the first motion on it is off by the height of
the title bar. -/
theorem drag_follows_iff {x y : Int32} {choice : Nat}
    (hhit : let hits := wm.windows.list.filter (wm.titleHit x y)
      hits[choice % hits.length]? = some win) (motions : List (Int32 × Int32)) :
    (∀ pre m, pre ++ [m] <+: motions → ∀ id, (wm.drag x y choice (pre ++ [m])).windows.get id =
        (wm.windows.get id).map (displaced win.surfaceId (m.1 - x) (m.2 - y))) ↔
      motions = [] := by
  dsimp only at hhit
  obtain ⟨hmem, hwin⟩ := mem_filter.1 (mem_of_getElem? hhit)
  have hget : wm.windows.get win.surfaceId = some win := Keyed.get_eq_some.2 ⟨hmem, rfl⟩
  have hfloat : win.floating = true := by
    simp only [titleHit, Bool.and_eq_true] at hwin
    exact hwin.1.1.1.1.2
  -- the offset is taken from the top of the title bar, and applied to the top of the window
  have hone (m : Int32 × Int32) : (wm.drag x y choice [m]).windows.get win.surfaceId =
      some { win with x := m.1 - (x - win.x), y := m.2 - (y - (win.y - 24)) } := by
    simp [drag, onPointerButton, hhit, focusSurface, hget, giveFocus, onPointerMotion,
      modifyWorkspace, hfloat, get_modifyWindow]
  constructor
  · intro h
    rcases motions with - | ⟨m, motions⟩
    · rfl
    · have hfollow := h [] m ⟨motions, rfl⟩ win.surfaceId
      rw [nil_append, hone, hget, map_some, displaced, if_pos rfl] at hfollow
      have hy := congrArg WindowInfo.y (some.inj hfollow)
      grind
  · rintro rfl pre m hpre
    simp at hpre

/-- A screen with one window. -/
def opened : WmManager Int32 := (new 800 600).addWindow percent 1 400 300

theorem drag_follows_iff_opened : ¬ ∀ pre m, pre ++ [m] <+: [(210, 120)] → ∀ id,
    (opened.drag 210 120 0 (pre ++ [m])).windows.get id =
      (opened.windows.get id).map (displaced 1 (m.1 - 210) (m.2 - 120)) := by
  refine (not_congr (@drag_follows_iff _ opened (opened.newWindow 1 400 300) 210 120 0 ?_ _)).2 ?_
  · decide +kernel
  · simp

/-- The pointer does not move, and the window does. -/
theorem not_followed :
    (opened.windows.get 1).map (fun win => (win.x, win.y)) = some (200, 130) ∧
      ((opened.drag 210 120 0 [(210, 120)]).windows.get 1).map (fun win => (win.x, win.y)) =
        some (200, 106) := by
  decide +kernel

/-! ## Fullscreen -/

def rect (win : WindowInfo) : Rect := ⟨win.x, win.y, win.w, win.h⟩

/-- The window over the whole screen. -/
def overScreen (wm : WmManager ρ) (state : WmWindowState) (win : WindowInfo) : WindowInfo :=
  { win with x := 0, y := 0, w := wm.screenW, h := wm.screenH, state := state }

/-- All windows are where they were, and the one with the id is in the same state. -/
def Restored (wm : WmManager ρ) (sid : UInt32) (wm' : WmManager ρ) : Prop :=
  (wm'.windows.get sid).map (·.state) = (wm.windows.get sid).map (·.state) ∧
    ∀ id, (wm'.windows.get id).map rect = (wm.windows.get id).map rect

theorem step_toggleFullscreen (hfocus : wm.focusedSurface = some sid)
    (hget : wm.windows.get sid = some win) :
    step R (some wm) .toggleFullscreen =
      if win.state = .fullscreen then
        ((wm.modifyWindow sid ({ · with state := .normal })).applyLayout R).map Prod.fst
      else some (wm.modifyWindow sid fun _ => wm.overScreen .fullscreen win) := by
  simp only [step, bind_some, apply, toggleFullscreen, hfocus, hget, layoutAfter]
  split_ifs <;> simp [Function.comp_def, overScreen]

/-- Only the layout takes a window away from the whole screen. -/
theorem rect_place_overScreen {rects : UInt32 → Option Rect} (hnormal : win.state = .normal) :
    rect (wm.place rects (wm.overScreen .normal win)) = rect win ↔
      rect (wm.place rects win) = rect win ∧
        (⟨0, 0, wm.screenW, wm.screenH⟩ = rect win ∨
          win.workspace = wm.activeWorkspace ∧ win.floating = false ∧
            (rects win.surfaceId).isSome) := by
  rcases hrects : rects win.surfaceId <;> by_cases hactive : win.workspace = wm.activeWorkspace <;>
    rcases hfloat : win.floating <;>
    simp [place, isLaidOut, tile, overScreen, rect, hnormal, hactive, hfloat, hrects]

section Twice

variable (hfocus : wm.focusedSurface = some sid) (hget : wm.windows.get sid = some win)
  (hstate : win.state ≠ .fullscreen)

include hfocus hget hstate

theorem toggleFullscreen_twice :
    (step R (step R (some wm) .toggleFullscreen) .toggleFullscreen).map (·.windows.get) =
      (wm.layoutRects R).map fun rects id => (wm.windows.get id).map fun other =>
        wm.place rects (if id = sid then wm.overScreen .normal other else other) := by
  set wm₁ := wm.modifyWindow sid fun _ => wm.overScreen .fullscreen win
  have hfocus₁ : wm₁.focusedSurface = some sid := hfocus
  have hget₁ : wm₁.windows.get sid = some (wm.overScreen .fullscreen win) :=
    (get_modifyWindow hget).trans (congrArg some (if_pos rfl))
  have hfull : (wm.overScreen .fullscreen win).state = .fullscreen := rfl
  rw [step_toggleFullscreen hfocus hget, if_neg hstate, step_toggleFullscreen hfocus₁ hget₁,
    if_pos hfull, applyLayout, Option.map_map, Option.map_map]
  refine congrArg (Option.map · _) (funext₂ fun rects id => ?_)
  simp only [Function.comp_apply, Keyed.get_map]
  rcases hother : wm.windows.get id with - | other
  · rw [get_modifyWindow_none (get_modifyWindow_none hother)]
    rfl
  · rw [get_modifyWindow (get_modifyWindow hother), Option.map_some, Option.map_some]
    rcases eq_or_ne id sid with rfl | hne
    · cases hget.symm.trans hother
      simp only [if_pos, overScreen]
      rfl
    · simp only [if_neg hne]
      rfl

/-- **Fullscreen and back**: everything is as it was iff the window was normal, the windows were
where the layout puts them, and the window is tiled or had the whole screen before. -/
theorem toggleFullscreen_twice_iff :
    (∃ wm' ∈ step R (step R (some wm) .toggleFullscreen) .toggleFullscreen, Restored wm sid wm') ↔
      win.state = .normal ∧ ∃ rects ∈ wm.layoutRects R,
        (∀ id, ∀ other ∈ wm.windows.get id, rect (wm.place rects other) = rect other) ∧
        (⟨0, 0, wm.screenW, wm.screenH⟩ = rect win ∨
          win.workspace = wm.activeWorkspace ∧ win.floating = false ∧ (rects sid).isSome) := by
  have htwice := toggleFullscreen_twice (R := R) hfocus hget hstate
  rcases hlast : step R (step R (some wm) .toggleFullscreen) .toggleFullscreen with - | wm' <;>
    rcases hrects : wm.layoutRects R with - | rects <;> simp [hlast, hrects] at htwice
  · simp
  obtain rfl : win.surfaceId = sid := Keyed.key_of_get hget
  have hnormal : (wm'.windows.get win.surfaceId).map (·.state) =
      (wm.windows.get win.surfaceId).map (·.state) ↔ win.state = .normal := by
    simp [htwice, hget, state_place, overScreen, eq_comm]
  simp only [mem_some_iff, exists_eq_left', Restored, hnormal]
  refine and_congr_right fun h => ?_
  have hone (id : UInt32) : (wm'.windows.get id).map rect = (wm.windows.get id).map rect ↔
      ∀ other ∈ wm.windows.get id, rect (wm.place rects
        (if id = win.surfaceId then wm.overScreen .normal other else other)) = rect other := by
    rcases hid : wm.windows.get id <;> simp [htwice, hid]
  simp only [hone]
  constructor
  · intro hall
    have hsid := (rect_place_overScreen h).1 (by simpa using hall _ win hget)
    refine ⟨fun id other hother => ?_, hsid.2⟩
    rcases eq_or_ne id win.surfaceId with rfl | hne
    · cases hget.symm.trans hother
      exact hsid.1
    · simpa [hne] using hall id other hother
  · rintro ⟨hall, hor⟩ id other hother
    split_ifs with hid
    · subst hid
      cases hget.symm.trans hother
      exact (rect_place_overScreen h).2 ⟨hall _ _ hget, hor⟩
    · exact hall id other hother

end Twice

theorem toggleFullscreen_twice_iff_opened :
    ¬ ∃ wm' ∈ step percent (step percent (some opened) .toggleFullscreen) .toggleFullscreen,
      Restored opened 1 wm' := by
  have hget : opened.windows.get 1 = some (opened.newWindow 1 400 300) := by decide +kernel
  rw [toggleFullscreen_twice_iff rfl hget (by decide)]
  rintro ⟨-, -, -, -, hrect | ⟨-, hfloat, -⟩⟩
  · exact absurd hrect (by decide +kernel)
  · exact absurd hfloat (by decide)

/-- A floating window keeps the size of the screen. -/
theorem not_restored :
    (opened.windows.get 1).map rect = some ⟨200, 130, 400, 300⟩ ∧
      ((step percent (step percent (some opened) .toggleFullscreen) .toggleFullscreen).bind
        fun wm' => (wm'.windows.get 1).map rect) = some ⟨0, 0, 800, 600⟩ := by
  decide +kernel

end Shell.WmManager
