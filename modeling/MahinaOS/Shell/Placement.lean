import MahinaOS.Shell.Outcomes

/-!
# Where the windows are, in two processes

The window manager has the place and the workspace of every window; the compositor has the place of
every surface and whether it is shown.  The shell tells the compositor of what it changes, and the
compositor does not answer.  This file is about whether the two tables stay the same.

What is shown always agrees: a window is visible if it is on the active workspace.  Where it is does
not.  The compositor drops a place that is out of its bounds, which are those of the surface and not
of the window; a window that is fullscreen and starts or stops to float is moved in the table only;
and the shell forgets a window that it closes or minimizes, though its surface is still there.

* **`placement_iff`**: in every run the tables agree after each operation if and only if no live
  window is forgotten and the compositor hears of every move and takes it.
* `window_forgotten`: a minimized window, and one that does not fit where it is put.
-/

namespace Shell

open Compositor Run List Option

/-! ## Both tables -/

/-- The window manager, the compositor, and the surfaces that have been announced. -/
structure Desk (ρ : Type) where
  wm : Option (WmManager ρ)
  comp : State
  announced : List UInt32

/-- An operation of the shell, and what the compositor does until it comes to the requests from the
shell's connection. -/
structure ShellTurn where
  op : ShellOp
  events : List Compositor.Event
  fd : Nat
  env : Nat → MsgEnv

/-- The compositor when it comes to the requests. -/
def ShellTurn.meanwhile (mode : Mode) (t : ShellTurn) (st : State) : State :=
  run (Compositor.step mode) st t.events

/-- Nobody has moved the surface, and it is shown or hidden as before. -/
def SameRow (s s' : Surface) : Prop := s'.x = s.x ∧ s'.y = s.y ∧ s'.wmState = s.wmState

namespace Desk

section

variable {ρ : Type} (R : Ratios ρ) (mode : Mode)

def start (screenW screenH : UInt32) (comp : State) : Desk ρ where
  wm := some (WmManager.new screenW screenH)
  comp := comp
  announced := []

def step (p : Desk ρ) (t : ShellTurn) : Desk ρ :=
  let announced := t.op.opens.toList ++ p.announced
  let comp := t.meanwhile mode p.comp
  match p.wm.bind fun wm => wm.perform R t.op with
  | some (wm, requests) => ⟨some wm, serveRequests mode t.fd t.env comp requests, announced⟩
  | none => ⟨none, comp, announced⟩

/-- Every live surface that has been announced is in the table, and it is where the table says and
shown if the table says so. -/
def Matches (p : Desk ρ) : Prop :=
  ∀ wm ∈ p.wm, ∀ id ∈ p.announced, ∀ s ∈ p.comp.surfaceManager.find id,
    ∃ win ∈ wm.windows.get id, (s.x = win.x ∧ s.y = win.y) ∧
      (Visible s.wmState ↔ win.workspace = wm.activeWorkspace ∧ win.state ≠ .minimized)

/-- A live surface that is in the table is shown if the table says so. -/
def Shown (p : Desk ρ) : Prop :=
  ∀ wm ∈ p.wm, ∀ id ∈ p.announced, ∀ s ∈ p.comp.surfaceManager.find id,
    ∀ win ∈ wm.windows.get id,
      (Visible s.wmState ↔ win.workspace = wm.activeWorkspace ∧ win.state ≠ .minimized)

/-- Every live surface that has been announced is in the table and where the table says. -/
def InPlace (p : Desk ρ) : Prop :=
  ∀ wm ∈ p.wm, ∀ id ∈ p.announced, ∀ s ∈ p.comp.surfaceManager.find id,
    ∃ win ∈ wm.windows.get id, s.x = win.x ∧ s.y = win.y

/-- What is reported is so, nobody else moves or hides a surface, and the compositor gets through
all requests. -/
structure Reported (p : Desk ρ) (t : ShellTurn) : Prop where
  new : ∀ wm ∈ p.wm, wm.Introduces t.op
  fresh : ∀ id ∈ t.op.opens, ∀ s ∈ (t.meanwhile mode p.comp).surfaceManager.find id,
    Visible s.wmState
  same : ∀ id ∈ p.announced, t.op.opens ≠ some id →
    ∀ s' ∈ (t.meanwhile mode p.comp).surfaceManager.find id,
      ∃ s ∈ p.comp.surfaceManager.find id, SameRow s s'
  all : ∀ wm ∈ p.wm, ∀ r ∈ wm.perform R t.op,
    served mode t.fd t.env (t.meanwhile mode p.comp) r.2 = true

/-- The operation does not take a live surface out of the table, and one that it does not leave
where it is gets told so and fits there. -/
def Follows (p : Desk ρ) (t : ShellTurn) : Prop :=
  ∀ wm ∈ p.wm, ∀ r ∈ wm.perform R t.op, ∀ id ∈ t.op.opens.toList ++ p.announced,
    ∀ s ∈ (t.meanwhile mode p.comp).surfaceManager.find id,
      wm.drops t.op ≠ some id ∧
      ∀ win ∈ r.1.windows.get id, s.x = win.x ∧ s.y = win.y ∨
        ¬wm.Misplaces t.op id ∧ outOfBounds mode ⟨id, win.x, win.y⟩ s = false

/-- What holds of the window manager anyway, and of what is shown. -/
structure Inv (p : Desk ρ) : Prop where
  agrees : ∀ wm ∈ p.wm, wm.Agrees
  calm : ∀ wm ∈ p.wm, wm.Calm
  shown : p.Shown

variable {R} {mode} {p : Desk ρ} {t : ShellTurn}

theorem matches_iff (h : p.Shown) : p.Matches ↔ p.InPlace := by
  constructor
  · intro hmatches wm hwm id hid s hs
    obtain ⟨win, hwin, hplace, -⟩ := hmatches wm hwm id hid s hs
    exact ⟨win, hwin, hplace⟩
  · intro hplace wm hwm id hid s hs
    obtain ⟨win, hwin, hat⟩ := hplace wm hwm id hid s hs
    exact ⟨win, hwin, hat, h wm hwm id hid s hs win hwin⟩

variable {requests : List Request} {id : UInt32} {win : WindowInfo}

theorem step_some (mode : Mode) {wm wm' : WmManager ρ} (hwm : p.wm = some wm)
    (h : wm.perform R t.op = some (wm', requests)) :
    p.step R mode t =
      ⟨some wm', serveRequests mode t.fd t.env (t.meanwhile mode p.comp) requests,
        t.op.opens.toList ++ p.announced⟩ := by
  rw [step, hwm, bind_some, h]

theorem exists_of_step {wm' : WmManager ρ} (h : (p.step R mode t).wm = some wm') :
    ∃ wm requests, p.wm = some wm ∧ wm.perform R t.op = some (wm', requests) := by
  rw [step] at h
  rcases hbind : p.wm.bind fun wm => wm.perform R t.op with - | ⟨wm₁, requests⟩
  · rw [hbind] at h
    exact absurd h nofun
  · rw [hbind] at h
    obtain ⟨wm, hwm, hperform⟩ := bind_eq_some_iff.1 hbind
    exact ⟨wm, requests, hwm, some.inj h ▸ hperform⟩

theorem exists_settled {wm wm' : WmManager ρ} (hwm : p.wm = some wm)
    (hperform : wm.perform R t.op = some (wm', requests)) (hreported : p.Reported R mode t)
    {s' : Surface}
    (hs' : (serveRequests mode t.fd t.env (t.meanwhile mode p.comp) requests).surfaceManager.find
      id = some s') :
    ∃ s, (t.meanwhile mode p.comp).surfaceManager.find id = some s ∧
      settled mode (positions id requests) (states id requests) s = s' := by
  rw [find_serveRequests (WmManager.isWm_perform hperform)
    (hreported.all wm hwm (wm', requests) hperform) id] at hs'
  exact map_eq_some_iff.1 hs'

theorem mem_announced (h : id ∈ t.op.opens.toList ++ p.announced) (hopens : t.op.opens ≠ some id) :
    id ∈ p.announced := by
  rcases mem_append.1 h with h | h
  · exact absurd (mem_toList.1 h) hopens
  · exact h

theorem ne_minimized (h : win.Calm) : win.state ≠ .minimized := by
  rcases h with h | h
  · rw [h]
    exact nofun
  · rw [h]
    exact nofun

theorem and_ne_minimized (h : win.Calm) {a : Prop} :
    (a ∧ win.state ≠ .minimized) ↔ a := and_iff_left (ne_minimized h)

/-- What is shown, after one operation. -/
theorem shown_step (hinv : p.Inv) (hreported : p.Reported R mode t) : (p.step R mode t).Shown := by
  intro wm' hwm' id hid s' hs' win' hwin'
  obtain ⟨wm, requests, hwm, hperform⟩ := exists_of_step hwm'
  rw [step_some mode hwm hperform] at hid hs'
  obtain ⟨s₁, hs₁, rfl⟩ := exists_settled hwm hperform hreported hs'
  have hcalm := WmManager.calm_perform (hinv.agrees wm hwm) (hinv.calm wm hwm) hperform
  rw [and_ne_minimized (hcalm id win' hwin')]
  rcases WmManager.outcome_perform (hinv.agrees wm hwm) (hinv.calm wm hwm) hperform id with
    ⟨-, hnone, -⟩ | ⟨win, hopens, hget', -, hstates, hws, -⟩ | ⟨-, -, -, hnone⟩ |
    ⟨win, win₁, hopens, -, hget, hget', hrow⟩
  · exact absurd (hnone.symm.trans hwin') nofun
  · obtain rfl := some.inj (hget'.symm.trans hwin')
    rw [hstates]
    exact iff_of_true (hreported.fresh id hopens s₁ hs₁) hws
  · exact absurd (hnone.symm.trans hwin') nofun
  · obtain rfl := some.inj (hget'.symm.trans hwin')
    have hmem := mem_announced hid hopens
    obtain ⟨s, hs, -, -, hstate⟩ := hreported.same id hmem hopens s₁ hs₁
    have hbefore := hinv.shown wm hwm id hmem s hs win hget
    rw [and_ne_minimized (hinv.calm wm hwm id win hget), ← hstate] at hbefore
    exact hrow.visible s₁.wmState hbefore

theorem inv_step (hinv : p.Inv) (hreported : p.Reported R mode t) : (p.step R mode t).Inv where
  agrees wm' hwm' := by
    obtain ⟨wm, requests, hwm, hperform⟩ := exists_of_step hwm'
    exact (hinv.agrees wm hwm).perform R (hreported.new wm hwm) (wm', requests) hperform
  calm wm' hwm' := by
    obtain ⟨wm, requests, hwm, hperform⟩ := exists_of_step hwm'
    exact WmManager.calm_perform (hinv.agrees wm hwm) (hinv.calm wm hwm) hperform
  shown := shown_step hinv hreported

theorem settled_told (id : UInt32) {x y : Int32} {sts : List UInt32} {s : Surface} :
    (settled mode [(x, y)] sts s).x = x ∧ (settled mode [(x, y)] sts s).y = y ↔
      s.x = x ∧ s.y = y ∨ outOfBounds mode ⟨id, x, y⟩ s = false := by
  have hbounds : outOfBounds mode ⟨s.id, x, y⟩ s = outOfBounds mode ⟨id, x, y⟩ s := rfl
  simp only [settled, foldl_cons, hbounds]
  rcases outOfBounds mode ⟨id, x, y⟩ s with - | -
  · exact iff_of_true ⟨rfl, rfl⟩ (.inr rfl)
  · exact (or_iff_left (by decide)).symm

/-- An announced window is not taken away or moved in the same operation. -/
theorem drops_of_opens (wm : WmManager ρ) {op : ShellOp} (h : op.opens = some id) :
    wm.drops op ≠ some id ∧ ¬wm.Misplaces op id := by
  rcases op with op | - | ⟨x, y, hit, last⟩
  · rcases op with ⟨-, -, -⟩ | _ | _ | _ | _ | _ | _ | _ | _ | _ | _ | _
    · exact ⟨nofun, fun hlost => absurd hlost.1 nofun⟩
    all_goals exact absurd h nofun
  · exact absurd h nofun
  · exact absurd h nofun

/-- Where a window is, after one operation. -/
theorem place_iff {wm wm' : WmManager ρ} (hinv : p.Inv) (hplace : p.InPlace)
    (hreported : p.Reported R mode t) (hwm : p.wm = some wm)
    (hperform : wm.perform R t.op = some (wm', requests))
    (hid : id ∈ t.op.opens.toList ++ p.announced) {s₁ : Surface}
    (hs₁ : (t.meanwhile mode p.comp).surfaceManager.find id = some s₁) :
    (∃ win ∈ wm'.windows.get id,
      (settled mode (positions id requests) (states id requests) s₁).x = win.x ∧
      (settled mode (positions id requests) (states id requests) s₁).y = win.y) ↔
    wm.drops t.op ≠ some id ∧
      ∀ win ∈ wm'.windows.get id, s₁.x = win.x ∧ s₁.y = win.y ∨
        ¬wm.Misplaces t.op id ∧ outOfBounds mode ⟨id, win.x, win.y⟩ s₁ = false := by
  have hbefore (hopens : t.op.opens ≠ some id) :
      ∃ win, wm.windows.get id = some win ∧ s₁.x = win.x ∧ s₁.y = win.y := by
    have hmem := mem_announced hid hopens
    obtain ⟨s, hs, hx, hy, -⟩ := hreported.same id hmem hopens s₁ hs₁
    obtain ⟨win, hget, hat⟩ := hplace wm hwm id hmem s hs
    exact ⟨win, hget, hx.trans hat.1, hy.trans hat.2⟩
  rcases WmManager.outcome_perform (hinv.agrees wm hwm) (hinv.calm wm hwm) hperform id with
    ⟨hnone, -, hopens⟩ | ⟨win', hopens, hget', hpos, -⟩ | ⟨win, hdrops, -, hnone⟩ |
    ⟨win, win', hopens, hdrops, hget, hget', hrow⟩
  · obtain ⟨win, hget, -⟩ := hbefore hopens
    exact absurd (hget.symm.trans hnone) (some_ne_none win)
  · obtain ⟨hdrops, hlost⟩ := drops_of_opens wm hopens
    simp [hget', exists_eq_left', forall_eq', hpos, settled_told id, and_iff_right hdrops,
      and_iff_right hlost]
  · rw [hnone]
    refine iff_of_false ?_ fun h => h.1 hdrops
    rintro ⟨win', hwin', -⟩
    exact some_ne_none win' (mem_def.1 hwin').symm
  · simp only [hget', mem_some, exists_eq_left', forall_eq', and_iff_right hdrops]
    rcases hrow.told with ⟨hpos, hlost⟩ | ⟨hpos, hmoved⟩
    · rw [hpos, settled_told id, and_iff_right hlost]
    · obtain ⟨win₀, hget₀, hx, hy⟩ := hbefore hopens
      obtain rfl := some.inj (hget.symm.trans hget₀)
      rw [hpos]
      refine ⟨.inl, fun h => h.elim (fun hat => hat) fun hfits => ?_⟩
      obtain ⟨hx', hy'⟩ := hmoved.resolve_right hfits.1
      exact ⟨hx.trans hx'.symm, hy.trans hy'.symm⟩

/-- One operation on tables that match. -/
theorem inPlace_step_iff (hplace : p.InPlace) (hinv : p.Inv) (hreported : p.Reported R mode t) :
    (p.step R mode t).InPlace ↔ p.Follows R mode t := by
  constructor
  · intro h wm hwm r hr id hid s hs
    obtain ⟨wm', requests⟩ := r
    have hstep := step_some mode hwm hr
    refine (place_iff hinv hplace hreported hwm hr hid hs).1 ?_
    rw [hstep] at h
    refine h wm' rfl id hid _ ?_
    show (serveRequests _ _ _ _ _).surfaceManager.find id = _
    rw [find_serveRequests (WmManager.isWm_perform hr)
      (hreported.all wm hwm (wm', requests) hr) id, mem_def.1 hs, map_some]
  · intro h wm' hwm' id hid s' hs'
    obtain ⟨wm, requests, hwm, hperform⟩ := exists_of_step hwm'
    rw [step_some mode hwm hperform] at hid hs'
    obtain ⟨s, hs, rfl⟩ := exists_settled hwm hperform hreported hs'
    exact (place_iff hinv hplace hreported hwm hperform hid hs).2
      (h wm hwm (wm', requests) hperform id hid s hs)

theorem inv_start (screenW screenH : UInt32) (comp : State) :
    (start screenW screenH comp : Desk ρ).Inv where
  agrees wm hwm := by
    obtain rfl := some.inj hwm
    exact WmManager.agrees_new screenW screenH
  calm wm hwm id win hget := by
    obtain rfl := some.inj hwm
    exact absurd hget nofun
  shown _ _ _ hid := absurd hid not_mem_nil

/-- **The two tables of the windows.**  In every run of the shell from its start, with whatever the
compositor does besides, if what is reported is so, nobody else moves or hides a surface and the
compositor gets through the requests:

* after every operation each live surface that has been announced is in the table of the window
  manager, and its place and whether it is shown are as the table says, if and only if no operation
  takes a live surface out of the table and each one that is moved in the table is told so and fits
  on the screen there;
* what is shown of the windows in the table is always as it says. -/
theorem placement_iff (R : Ratios ρ) (mode : Mode) (screenW screenH : UInt32) (comp : State)
    {turns : List ShellTurn}
    (h : Along (step R mode) (Reported R mode) (start screenW screenH comp) turns) :
    ((∀ pre, pre <+: turns → (run (step R mode) (start screenW screenH comp) pre).Matches) ↔
      Along (step R mode) (Follows R mode) (start screenW screenH comp) turns) ∧
    ∀ pre, pre <+: turns → (run (step R mode) (start screenW screenH comp) pre).Shown := by
  have hstart : (start screenW screenH comp : Desk ρ).Inv := inv_start screenW screenH comp
  have hinv : ∀ pre, pre <+: turns → (run (step R mode) (start screenW screenH comp) pre).Inv :=
    fun pre hpre => inv_run (fun _ _ => inv_step) hstart (h.of_prefix hpre)
  refine ⟨?_, fun pre hpre => (hinv pre hpre).shown⟩
  have hplace : (start screenW screenH comp : Desk ρ).InPlace :=
    fun _ _ _ hid => absurd hid not_mem_nil
  have hboth := h.inv (fun _ _ => inv_step) hstart
  refine .trans ?_ (forall_prefix_iff
    (fun _ _ hplace hboth => inPlace_step_iff hplace hboth.1 hboth.2) hplace hboth)
  exact forall₂_congr fun pre hpre => matches_iff (hinv pre hpre).shown

end

/-! ## Windows that are lost -/

section

variable {ρ : Type} (R : Ratios ρ) (mode : Mode) (p : Desk ρ) (t : ShellTurn)

instance : Decidable p.Matches := by
  unfold Matches
  infer_instance

instance (s s' : Surface) : Decidable (SameRow s s') := inferInstanceAs (Decidable (_ ∧ _ ∧ _))

instance (wm : WmManager ρ) (op : ShellOp) : Decidable (wm.Introduces op) :=
  decidableForallMem _

instance : Decidable (p.Reported R mode t) :=
  decidable_of_iff (_ ∧ _ ∧ _ ∧ _)
    ⟨fun ⟨hnew, hfresh, hsame, hall⟩ => ⟨hnew, hfresh, hsame, hall⟩,
      fun h => ⟨h.new, h.fresh, h.same, h.all⟩⟩

end

open Shell.System (smallMode appWindow)
open WmManager (percent)

/-- The shell is registered as the window manager. -/
def registered : Desk Int32 := start 1024 768 FocusPair.connected

def opens (width height : UInt32) : ShellTurn :=
  ⟨.wm (.surfaceCreated 1 width height), appWindow width height, 7, fun _ => {}⟩

def does (op : ShellOp) : ShellTurn := ⟨op, [], 7, fun _ => {}⟩

/-- Where the window is in the table and where the surface is, with its state. -/
def places (turns : List ShellTurn) :
    Option (Int32 × Int32) × Option (Int32 × Int32 × UInt32) :=
  let p := run (step percent smallMode) registered turns
  (p.wm.bind fun wm => (wm.windows.get 1).map fun win => (win.x, win.y),
    (p.comp.surfaceManager.find 1).map fun s => (s.x, s.y, s.wmState))

/-- A window is opened and snapped to the left, and another workspace is shown. -/
theorem placement_iff_snapped :
    let turns := [opens 400 300, does (.wm (.snap .left)), does (.wm (.switchWorkspace 1))]
    Along (step percent smallMode) (Reported percent smallMode) registered turns ∧
    Along (step percent smallMode) (Follows percent smallMode) registered turns := by
  intro turns
  have hreported : Along (step percent smallMode) (Reported percent smallMode) registered turns :=
    by decide +kernel
  have hmatches : ∀ pre ∈ turns.inits, (run (step percent smallMode) registered pre).Matches := by
    decide +kernel
  refine ⟨hreported, ?_⟩
  exact (placement_iff percent smallMode 1024 768 FocusPair.connected hreported).1.1 fun pre hpre =>
    hmatches pre ((mem_inits _ _).2 hpre)

/-- **A window that is not where the shell has it.**  A click on the minimize button of a window, or
a request to close it, takes it out of the table while its surface is there.  A window that is wider
than half the screen and is snapped to the right stays where it is on the screen.  A fullscreen
window moves in the table when it starts to float. -/
theorem window_forgotten :
    Along (step percent smallMode) (Reported percent smallMode)
      registered [opens 400 300, does (.press 675 200 0 0)] ∧
    places [opens 400 300] = (some (312, 214), some (312, 214, WmState.normal)) ∧
    places [opens 400 300, does (.press 675 200 0 0)] =
      (none, some (312, 214, WmState.minimized)) ∧
    places [opens 400 300, does .closeWindow] = (none, some (312, 214, WmState.hidden)) ∧
    places [opens 600 300, does (.wm (.snap .right))] =
      (some (512, 32), some (212, 214, WmState.normal)) ∧
    places [opens 400 300, does (.wm .toggleFullscreen), does (.wm .toggleFloating),
      does (.wm .toggleFloating)] = (some (171, 143), some (0, 0, WmState.fullscreen)) ∧
    ¬(run (step percent smallMode) registered
      [opens 400 300, does (.press 675 200 0 0)]).Matches := by
  refine ⟨?_, ?_, ?_, ?_, ?_, ?_, ?_⟩ <;> decide +kernel

end Desk

end Shell
