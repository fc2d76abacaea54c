import MahinaOS.Compositor.Effects
import MahinaOS.Lib.Run

/-!
# The keyboard

Key events come from libinput or, where there is none, from the event device itself.  Both ways keep
one mask of modifiers and pass the key on with it.

* **`Keys.exact_iff`**: the mask tells which modifiers are held exactly as long as neither of the
  two keys of a modifier is released while the other one is down.
* **`raw_same_iff`**: the event device has the same messages sent as libinput, unless a grabbed key
  is struck while no session has the focus.
-/

namespace Compositor

open Run

/-! ## Modifiers -/

inductive Modifier where
  | shift
  | ctrl
  | alt
  | super
  deriving DecidableEq, Repr

namespace Modifier

def mask : Modifier → UInt32
  | shift => 1
  | ctrl => 2
  | alt => 4
  | super => 8

/-- `KEY_LEFTSHIFT` and the others. -/
def left : Modifier → UInt32
  | shift => 42
  | ctrl => 29
  | alt => 56
  | super => 125

def right : Modifier → UInt32
  | shift => 54
  | ctrl => 97
  | alt => 100
  | super => 126

/-- The modifier that a key is for. -/
def ofKey (code : UInt32) : Option Modifier :=
  [shift, ctrl, alt, super].find? fun m => code = m.left ∨ code = m.right

theorem or_mask (x : UInt32) (m m' : Modifier) :
    (x ||| m.mask) &&& m'.mask ≠ 0 ↔ m' = m ∨ x &&& m'.mask ≠ 0 := by
  have hbits : (x ||| m.mask) &&& m'.mask = x &&& m'.mask ||| m.mask &&& m'.mask :=
    UInt32.toBitVec_inj.1 BitVec.and_or_distrib_right
  have hmask : m.mask &&& m'.mask ≠ 0 ↔ m' = m := by cases m <;> cases m' <;> decide
  rw [hbits, Ne, UInt32.or_eq_zero_iff, not_and_or, or_comm, ← Ne, hmask]

theorem and_not_mask (x : UInt32) (m m' : Modifier) :
    (x &&& ~~~m.mask) &&& m'.mask ≠ 0 ↔ m' ≠ m ∧ x &&& m'.mask ≠ 0 := by
  have hmask : ~~~m.mask &&& m'.mask = if m' = m then 0 else m'.mask := by
    cases m <;> cases m' <;> rfl
  rw [UInt32.and_assoc, hmask]
  split <;> simp [*]

end Modifier

/-- A press or a release of a key. -/
structure KeyEvent where
  code : UInt32
  pressed : Bool
  deriving DecidableEq, Repr

/-- `lgp_input_update_modifiers`. -/
def updateModifiers (modifiers : UInt32) (e : KeyEvent) : UInt32 :=
  match Modifier.ofKey e.code with
  | none => modifiers
  | some m => if e.pressed then modifiers ||| m.mask else modifiers &&& ~~~m.mask

/-- The mask of the compositor, and the keys that are down. -/
structure Keys where
  modifiers : UInt32 := 0
  held : List UInt32 := []

namespace Keys

/-- A key event.  The key is passed on with the new mask. -/
def step (s : Keys) (e : KeyEvent) : Keys where
  modifiers := updateModifiers s.modifiers e
  held := if e.pressed then e.code :: s.held else s.held.filter (· ≠ e.code)

/-- The mask has the modifiers of which a key is down. -/
def Exact (s : Keys) : Prop :=
  ∀ m : Modifier, s.modifiers &&& m.mask ≠ 0 ↔ ∃ key ∈ s.held, Modifier.ofKey key = some m

/-- The event does not release one key of a modifier while the other one is down. -/
def TwinUp (s : Keys) (e : KeyEvent) : Prop :=
  e.pressed = false → ∀ m, Modifier.ofKey e.code = some m →
    ∀ key ∈ s.held, Modifier.ofKey key = some m → key = e.code

variable {s : Keys} {code : UInt32}

theorem exact_press (h : s.Exact) : (s.step ⟨code, true⟩).Exact := by
  intro m'
  have hheld : (∃ key ∈ (s.step ⟨code, true⟩).held, Modifier.ofKey key = some m') ↔
      Modifier.ofKey code = some m' ∨ ∃ key ∈ s.held, Modifier.ofKey key = some m' :=
    List.exists_mem_cons_iff ..
  rw [hheld, ← h m', step, updateModifiers]
  rcases hm : Modifier.ofKey code with - | m
  · simp
  · simpa [eq_comm] using Modifier.or_mask s.modifiers m m'

theorem exact_release_iff (h : s.Exact) :
    (s.step ⟨code, false⟩).Exact ↔ s.TwinUp ⟨code, false⟩ := by
  have hheld (m' : Modifier) : (∃ key ∈ (s.step ⟨code, false⟩).held, Modifier.ofKey key = some m') ↔
      ∃ key ∈ s.held, key ≠ code ∧ Modifier.ofKey key = some m' := by
    simp [step, and_assoc]
  simp only [Exact, hheld]
  rcases hm : Modifier.ofKey code with - | m
  · refine iff_of_true (fun m' => ?_) fun _ m' hm' => by cases hm.symm.trans hm'
    have hne (key : UInt32) (hkey : Modifier.ofKey key = some m') : key ≠ code := by
      rintro rfl
      cases hm.symm.trans hkey
    rw [step, updateModifiers, hm, h m']
    exact exists_congr fun key => and_congr_right fun _ =>
      ⟨fun hkey => ⟨hne key hkey, hkey⟩, And.right⟩
  · have hbit (m' : Modifier) : (s.step ⟨code, false⟩).modifiers &&& m'.mask ≠ 0 ↔
        m' ≠ m ∧ ∃ key ∈ s.held, Modifier.ofKey key = some m' := by
      rw [← h m', ← Modifier.and_not_mask, step, updateModifiers, hm]
      rfl
    simp only [hbit]
    constructor
    · rintro hexact - m' hm' key hkey hkm
      obtain rfl : m = m' := Option.some.inj (hm.symm.trans hm')
      by_contra hne
      exact ((hexact m).2 ⟨key, hkey, hne, hkm⟩).1 rfl
    · intro htwin m'
      constructor
      · rintro ⟨hne, key, hkey, hkm⟩
        refine ⟨key, hkey, ?_, hkm⟩
        rintro rfl
        exact hne (Option.some.inj (hkm.symm.trans hm))
      · rintro ⟨key, hkey, hne, hkm⟩
        refine ⟨?_, key, hkey, hkm⟩
        rintro rfl
        exact hne (htwin rfl m' hm key hkey hkm)

theorem exact_step_iff (h : s.Exact) (e : KeyEvent) : (s.step e).Exact ↔ s.TwinUp e := by
  obtain ⟨-, - | -⟩ := e
  · exact exact_release_iff h
  · exact iff_of_true (exact_press h) Bool.noConfusion

/-- **The modifiers**: the mask is exact after every event of a sequence if no event releases a key
of a modifier while the other one is down, and only then. -/
theorem exact_iff (es : List KeyEvent) :
    (∀ pre, pre <+: es → (run step {} pre).Exact) ↔ Along step TwinUp {} es :=
  forall_prefix_iff (H := fun _ _ => True) (fun s e h _ => exact_step_iff h e)
    (by intro m; simp) (along_trivial _ _)

/-- The left shift is released while the right one is down. -/
theorem modifier_lost : ∃ es : List KeyEvent,
    Along step (fun s e => e.pressed = true ↔ e.code ∉ s.held) {} es ∧
      (run step {} es).held = [Modifier.right .shift] ∧ (run step {} es).modifiers = 0 :=
  ⟨[⟨42, true⟩, ⟨54, true⟩, ⟨42, false⟩], by decide⟩

end Keys

/-! ## The two backends -/

/-- `lgp_input_handle_keyboard_key`. -/
def handleKeyboardKey (s : UInt32 × State) (e : KeyEvent) : UInt32 × State :=
  let modifiers := updateModifiers s.1 e
  (modifiers, dispatchKeyboardKey s.2 e.code (if e.pressed then 1 else 0) modifiers)

/-- `lgp_input_pump_raw_keyboard`, for one event. -/
def pumpRawKeyboard (s : UInt32 × State) (code value : UInt32) : UInt32 × State :=
  let modifiers := updateModifiers s.1 ⟨code, value = 1 ∨ value = 2⟩
  (modifiers,
    if s.2.keyboardFocusSessionId > 0 then dispatchKeyboardKey s.2 code value modifiers else s.2)

/-- A press or a release as the event device reports it. -/
def rawKeyboardKey (s : UInt32 × State) (e : KeyEvent) : UInt32 × State :=
  pumpRawKeyboard s e.code (if e.pressed then 1 else 0)

/-- Whom `lgp_dispatch_keyboard_key` writes to. -/
def keyClient (st : State) (code modifiers : UInt32) : Option Client :=
  (if Grabbed st code modifiers then st.wmSessionId else some st.keyboardFocusSessionId).bind
    st.clientOfSession

/-- The frames that a key event has written. -/
def keyFrames (st : State) (modifiers : UInt32) (e : KeyEvent) : List Sent :=
  (keyClient st e.code (updateModifiers modifiers e)).toList.map fun client => ⟨client.fd,
    encodeKeyboardKey e.code (if e.pressed then 1 else 0) (updateModifiers modifiers e)⟩

/-- The key is grabbed, and the window manager can be reached. -/
def GoesToWm (st : State) (modifiers : UInt32) (e : KeyEvent) : Prop :=
  Grabbed st e.code (updateModifiers modifiers e) ∧
    (st.wmSessionId.bind st.clientOfSession).isSome

section

variable (st : State) (modifiers : UInt32)

theorem dispatchKeyboardKey_eq (key keyState : UInt32) :
    dispatchKeyboardKey st key keyState modifiers =
      { st with
        sent := st.sent ++ (keyClient st key modifiers).toList.map fun client =>
          ⟨client.fd, encodeKeyboardKey key keyState modifiers⟩ } := by
  have hsend (session : UInt32) (msg : Msg) : st.sendToSession session msg = { st with
        sent := st.sent ++ (st.clientOfSession session).toList.map fun c => ⟨c.fd, msg⟩ } := by
    rw [State.sendToSession]
    rcases st.clientOfSession session with - | client <;> simp [State.write]
  by_cases hgrabbed : Grabbed st key modifiers
  · rw [dispatchKeyboardKey, keyClient, if_pos hgrabbed, if_pos hgrabbed, State.sendToWm]
    rcases st.wmSessionId with - | session
    · simp
    · exact hsend session _
  · rw [dispatchKeyboardKey, keyClient, if_neg hgrabbed, if_neg hgrabbed]
    exact hsend _ _

/-- What a run of events writes, if each of them only updates the mask and writes some frames. -/
theorem sent_run {step : UInt32 × State → KeyEvent → UInt32 × State}
    {frames : UInt32 → KeyEvent → List Sent}
    (hstep : ∀ sent modifiers e, step (modifiers, { st with sent := sent }) e =
      (updateModifiers modifiers e, { st with sent := sent ++ frames modifiers e }))
    (es : List KeyEvent) : (run step (modifiers, st) es).2.sent =
      st.sent ++ trace updateModifiers frames modifiers es := by
  suffices hrun : ∀ sent, run step (modifiers, { st with sent := sent }) es =
      (run updateModifiers modifiers es,
        { st with sent := sent ++ trace updateModifiers frames modifiers es }) by
    rw [hrun st.sent]
  induction es generalizing modifiers with
  | nil => simp [run, trace]
  | cons e es ih =>
    intro sent
    rw [run, hstep, ih, List.append_assoc]
    rfl

theorem sent_handleKeyboardKey (es : List KeyEvent) :
    (run handleKeyboardKey (modifiers, st) es).2.sent =
      st.sent ++ trace updateModifiers (keyFrames st) modifiers es := by
  refine sent_run st modifiers (fun sent modifiers e => ?_) es
  rw [handleKeyboardKey, dispatchKeyboardKey_eq]
  rfl

theorem sent_rawKeyboardKey (es : List KeyEvent) :
    (run rawKeyboardKey (modifiers, st) es).2.sent = st.sent ++ trace updateModifiers
      (fun modifiers e => if st.keyboardFocusSessionId = 0 then [] else keyFrames st modifiers e)
      modifiers es := by
  refine sent_run st modifiers (fun sent modifiers e => ?_) es
  have hpressed : decide ((if e.pressed then (1 : UInt32) else 0) = 1 ∨
      (if e.pressed then (1 : UInt32) else 0) = 2) = e.pressed := by
    rcases e.pressed with - | - <;> rfl
  rw [rawKeyboardKey, pumpRawKeyboard, hpressed, dispatchKeyboardKey_eq]
  by_cases hfocus : st.keyboardFocusSessionId = 0
  · simp [hfocus]
  · rw [if_pos (UInt32.pos_iff_ne_zero.2 hfocus), if_neg hfocus]
    rfl

/-- **The two backends** have the same messages sent iff a session has the focus or no key goes to
the window manager. -/
theorem raw_same_iff (es : List KeyEvent) :
    (run rawKeyboardKey (modifiers, st) es).2.sent =
        (run handleKeyboardKey (modifiers, st) es).2.sent ↔
      st.keyboardFocusSessionId ≠ 0 ∨
        Along updateModifiers (fun modifiers e => ¬GoesToWm st modifiers e) modifiers es := by
  rw [sent_handleKeyboardKey, sent_rawKeyboardKey, List.append_cancel_left_eq]
  by_cases hfocus : st.keyboardFocusSessionId = 0
  · have hnone : trace updateModifiers (fun _ _ => ([] : List Sent)) modifiers es = [] := by
      induction es generalizing modifiers with
      | nil => rfl
      | cons e es ih => exact ih _
    simp only [hfocus, if_true, hnone, ne_eq, not_true, false_or, eq_comm (a := []), trace_eq_nil]
    refine along_iff (I := fun _ => True) (H := fun _ _ => True) (fun _ _ _ _ _ => trivial)
      (fun modifiers e _ _ => ?_) trivial (along_trivial _ _)
    rw [keyFrames, GoesToWm, keyClient, hfocus]
    by_cases hgrabbed : Grabbed st e.code (updateModifiers modifiers e)
    · simp [hgrabbed]
    · simp [hgrabbed, State.clientOfSession]
  · simp [hfocus]

end

/-- A grabbed key is struck while no session has the focus: the event device loses it. -/
theorem grab_lost :
    let wm : Client := { fd := 4, uid := 0, sessionId := 1, capsGranted := Cap.windowManager }
    let st : State := { clients := ⟨[wm], by decide⟩, wmClient := some 4, grabbedKeys := [(15, 4)] }
    let es : List KeyEvent := [⟨56, true⟩, ⟨15, true⟩]
    (run handleKeyboardKey (0, st) es).2.sent = [⟨4, encodeKeyboardKey 15 1 4⟩] ∧
      (run rawKeyboardKey (0, st) es).2.sent = [] := by
  decide +kernel

end Compositor
