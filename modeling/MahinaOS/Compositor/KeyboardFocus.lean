import MahinaOS.Compositor.Live

/-!
# The keyboard focus

The compositor knows the focused surface by its id and its owner by the session id, and sends key
events to that session.  The focus is written when a window is created, when one is clicked and when
the window manager asks for it; each time it is set to a live surface, or to nothing.  Surfaces go
away when they are destroyed and when their owner disconnects, and neither touches the focus.

* `KeepsFocus` says of a move what that comes to: it neither destroys the focused surface nor
  disconnects the focused session, unless nothing has the focus.
* **`focusValid_run_iff`**: the focus is valid in every state of a run exactly when all its moves
  are of that kind.  `focus_left_behind` has two runs with a move that is not.

Ids and session ids are 32-bit counters that can come round, so that two surfaces can share an id;
then destroying one of them keeps the focus valid if the other has the same owner.
-/

namespace Compositor

open Run Slots

/-- The move keeps the focus where it is valid. -/
def KeepsFocus (mode : Mode) (st : State) (m : Move) : Prop :=
  st.focus = ⟨0, 0⟩ ∨
    (∀ c ∈ m.closes mode st, st.keyboardFocusSessionId ≠ c.sessionId) ∧
      ∀ id ∈ m.destroys mode st, some st.focus ∈ st.live.eraseP (Option.any (Entry.hasId id))

section

variable {mode : Mode} {st : State} {m : Move}

theorem keepsFocus_of_none (hcloses : m.closes mode st = none)
    (hdestroys : m.destroys mode st = none) : KeepsFocus mode st m := by
  right
  simp [hcloses, hdestroys]

/-- One move: where the focus is valid, it stays so under `KeepsFocus`, and only then. -/
theorem focusValid_move_iff (hvalid : st.FocusValid) :
    (move mode st m).FocusValid ↔ KeepsFocus mode st m := by
  have hmove := moved_move mode st m
  cases hmove with
  | calm hcloses hdestroys hlive hnew hfocus =>
    refine iff_of_true ?_ (keepsFocus_of_none hcloses hdestroys)
    rcases hfocus with hfocus | hfocus
    · rw [State.FocusValid, hfocus, hlive]
      exact hvalid
    · exact hfocus
  | created client hsender hcloses hdestroys id type w h hfree hlive hnew hfocus =>
    refine iff_of_true ?_ (keepsFocus_of_none hcloses hdestroys)
    rw [State.FocusValid, hlive, mem_fillFirst hfree]
    rcases hfocus with hfocus | hfocus
    · rw [hfocus]
      exact hvalid.imp_right .inr
    · exact .inr (.inl hfocus)
  | destroyed client hsender hcloses id hdestroys hlive hnew hfocus =>
    rw [State.FocusValid, hfocus, hlive, mem_freeFirst, KeepsFocus, hcloses, hdestroys]
    simp
  | closed client hcloses hdestroys hlive hnew hfocus =>
    have howner : Entry.ownedBy client.sessionId st.focus = false ↔
        st.keyboardFocusSessionId ≠ client.sessionId := by
      simp [Entry.ownedBy, State.focus]
    rw [State.FocusValid, hfocus, hlive, mem_freeAll, howner, KeepsFocus, hcloses, hdestroys]
    constructor
    · rintro (hnone | ⟨-, hne⟩)
      · exact .inl hnone
      · exact .inr ⟨by simpa using hne, by simp⟩
    · rintro (hnone | ⟨hne, -⟩)
      · exact .inl hnone
      · exact hvalid.imp_right fun hmem => ⟨hmem, hne client rfl⟩

end

/-- **The keyboard focus is valid as long as nothing takes its surface away.**  In every run of the
compositor, the focus is nowhere or on a live surface of the focused session after every move
exactly when no move destroys the focused surface or disconnects the focused session.  Then it is so
after every turn. -/
theorem focusValid_run_iff (mode : Mode) (ms : List Move) :
    ((∀ pre, pre <+: ms → (run (move mode) {} pre).FocusValid) ↔
      Along (move mode) (KeepsFocus mode) {} ms) ∧
    ∀ es : List Event, Along (move mode) (KeepsFocus mode) {} (es.flatMap Event.moves) →
      ∀ pre, pre <+: es → (run (step mode) {} pre).FocusValid := by
  have hiff : ∀ {ms : List Move}, (∀ pre, pre <+: ms → (run (move mode) {} pre).FocusValid) ↔
      Along (move mode) (KeepsFocus mode) {} ms :=
    forall_prefix_iff (fun _ _ hvalid _ => focusValid_move_iff hvalid) (.inl rfl)
      (along_trivial _ _)
  refine ⟨hiff, fun es hkeeps pre hpre => ?_⟩
  obtain ⟨post, rfl⟩ := hpre
  rw [run_step_eq]
  refine hiff.2 hkeeps _ ?_
  rw [List.flatMap_append]
  exact List.prefix_append _ _

def focusedWindow : List Event :=
  [.accept 4 1000 true, .read 4 ⟨(greeting 0).encode ++ newWindow.encode, [], false⟩ fun _ => {}]

/-- It destroys the window, or disconnects: the focus stays on a surface that is gone. -/
theorem focus_left_behind :
    let mode : Mode := ⟨1920, 1080⟩
    let opened := run (step mode) {} focusedWindow
    let destroyed := step mode opened
      (.read 4 ⟨(Msg.mk MsgType.destroySurface [1, 0, 0, 0]).encode, [], false⟩ fun _ => {})
    let disconnected := step mode opened (.hangup 4)
    opened.FocusValid ∧ opened.focus = ⟨1, 1⟩ ∧
      destroyed.focus = ⟨1, 1⟩ ∧ (∀ o ∈ destroyed.live, o = none) ∧ ¬destroyed.FocusValid ∧
      disconnected.focus = ⟨1, 1⟩ ∧ disconnected.clients.list = [] ∧ ¬disconnected.FocusValid := by
  decide +kernel

end Compositor
