import MahinaOS.Compositor.Sessions

/-!
# Where input goes

A key goes to the window manager if it has grabbed it, and to the client with the keyboard focus
otherwise.  A pointer event goes to the window manager and also to the owner of the surface under
the pointer.

`Contained` says that the input written in a turn went to the registered window manager only.  With
sound sessions the turns with this property are known exactly, from the state before the turn:
`contained_key_iff`, `contained_motion_iff` and `contained_button_iff`, put together in
**`contained_step_iff`**.
-/

namespace Compositor

open List

/-- All input written in a turn went to the window manager that was registered before it. -/
def Contained (before after : State) : Prop :=
  ∀ w ∈ after.sent, w.msg.isInput = true → before.wmClient = some w.fd

/-! ## Whom a session reaches -/

variable {st : State} {sessionId : UInt32}

theorem clientOfSession_eq_some (h : Sound st) {c : Client} :
    st.clientOfSession sessionId = some c ↔ c ∈ st.clients.list ∧ c.sessionId = sessionId := by
  constructor
  · intro hfind
    rw [State.clientOfSession] at hfind
    split at hfind
    · cases hfind
    · exact ⟨mem_of_find?_eq_some hfind, by simpa using find?_some hfind⟩
  · rintro ⟨hc, rfl⟩
    rw [State.clientOfSession, if_neg (h.nonzero c hc)]
    cases hfind : st.clients.list.find? (·.sessionId = c.sessionId) with
    | none => exact absurd (find?_eq_none.1 hfind c hc) (by simp)
    | some d =>
      have hd := mem_of_find?_eq_some hfind
      have hid : d.sessionId = c.sessionId := by simpa using find?_some hfind
      rw [Clients.eq_of_fd hd hc (h.distinct d hd c hc hid)]

theorem wmSessionId_eq_some :
    st.wmSessionId = some sessionId ↔
      ∃ c ∈ st.clients.list, st.wmClient = some c.fd ∧ c.sessionId = sessionId := by
  rw [State.wmSessionId]
  rw [Option.map_eq_some_iff]
  constructor
  · rintro ⟨c, hfind, hid⟩
    obtain ⟨fd, hwm, hfind⟩ := Option.bind_eq_some_iff.1 hfind
    obtain ⟨hc, rfl⟩ := Clients.find_eq_some.1 hfind
    exact ⟨c, hc, hwm, hid⟩
  · rintro ⟨c, hc, hwm, hid⟩
    exact ⟨c, Option.bind_eq_some_iff.2 ⟨c.fd, hwm, Clients.find_eq_some.2 ⟨hc, rfl⟩⟩, hid⟩

theorem mem_sendToSession (h : Sound st) {msg : Msg} {w : Sent} :
    w ∈ (st.sendToSession sessionId msg).sent ↔
      w ∈ st.sent ∨ ∃ c ∈ st.clients.list, c.sessionId = sessionId ∧ w = ⟨c.fd, msg⟩ := by
  rw [State.sendToSession]
  rcases hfind : st.clientOfSession sessionId with - | c
  · refine ⟨.inl, ?_⟩
    rintro (hw | ⟨c, hc, hid, -⟩)
    · exact hw
    · rw [(clientOfSession_eq_some h).2 ⟨hc, hid⟩] at hfind
      cases hfind
  · obtain ⟨hc, hid⟩ := (clientOfSession_eq_some h).1 hfind
    show w ∈ st.sent ++ [⟨c.fd, msg⟩] ↔ _
    rw [mem_append, mem_singleton]
    refine or_congr_right ⟨fun hw => ⟨c, hc, hid, hw⟩, ?_⟩
    rintro ⟨d, hd, hid', rfl⟩
    rw [h.distinct d hd c hc (hid'.trans hid.symm)]

theorem mem_sendToWm (h : Sound st) {msg : Msg} {w : Sent} :
    w ∈ (st.sendToWm msg).sent ↔
      w ∈ st.sent ∨ st.wmClient = some w.fd ∧ w.msg = msg := by
  rw [State.sendToWm]
  rcases hwm : st.wmSessionId with - | sessionId
  · refine ⟨.inl, ?_⟩
    rintro (hw | ⟨hfd, -⟩)
    · exact hw
    · obtain ⟨c, hc, hcfd⟩ := h.wm _ hfd
      have hsome := wmSessionId_eq_some.2 ⟨c, hc, hcfd ▸ hfd, rfl⟩
      rw [hsome] at hwm
      cases hwm
  · obtain ⟨c, hc, hfd, hid⟩ := wmSessionId_eq_some.1 hwm
    rw [mem_sendToSession h]
    refine or_congr_right ⟨?_, ?_⟩
    · rintro ⟨d, hd, hid', rfl⟩
      exact ⟨h.distinct c hc d hd (hid.trans hid'.symm) ▸ hfd, rfl⟩
    · rintro ⟨hfd', rfl⟩
      refine ⟨c, hc, hid, ?_⟩
      rw [hfd] at hfd'
      rw [Option.some.inj hfd']

/-! ## The target of the pointer -/

theorem foldl_higher_isSome (l : List Surface) (t : Option Surface) :
    (l.foldl higher t).isSome = (t.isSome || !l.isEmpty) := by
  induction l generalizing t with
  | nil => simp
  | cons s l ih =>
    rw [foldl_cons, ih]
    rcases t with - | t
    · simp [higher]
    · unfold higher
      dsimp only
      split <;> simp

/-- The pointer has no target exactly if no surface takes it there. -/
theorem findPointerTarget_eq_none {x y : Int32} :
    findPointerTarget st x y = none ↔
      ∀ s ∈ st.surfaceManager.slots, s.takesPointer st.wmSessionId = true →
        s.contains x y = false := by
  rw [← Option.not_isSome_iff_eq_none, findPointerTarget, foldl_higher_isSome]
  simp

theorem mem_of_foldl_higher {l : List Surface} {t : Option Surface} {s : Surface}
    (h : l.foldl higher t = some s) : s ∈ l ∨ t = some s := by
  induction l generalizing t with
  | nil => exact .inr h
  | cons a l ih =>
    rcases ih h with hs | ht
    · exact .inl (mem_cons_of_mem _ hs)
    · unfold higher at ht
      split at ht
      · cases ht
        exact .inl mem_cons_self
      · split at ht
        · cases ht
          exact .inl mem_cons_self
        · exact .inr ht

/-- The target of the pointer is a surface of a connected client that is not the window manager. -/
theorem owner_of_findPointerTarget (h : Sound st) {x y : Int32} {s : Surface}
    (htarget : findPointerTarget st x y = some s) :
    ∃ c ∈ st.clients.list, c.sessionId = s.ownerSessionId ∧ st.wmClient ≠ some c.fd := by
  have hmem := (mem_of_foldl_higher htarget).resolve_right (by simp)
  obtain ⟨hs, htakes⟩ := mem_filter.1 hmem
  simp only [Surface.takesPointer, Bool.and_eq_true, bne_iff_ne] at htakes
  obtain ⟨c, hc, howner⟩ := h.owner s hs htakes.1.1.1.1.1.1
  refine ⟨c, hc, howner, fun hwm => htakes.1.1.1.1.1.2 ?_⟩
  exact wmSessionId_eq_some.2 ⟨c, hc, hwm, howner⟩

/-! ## The exact conditions -/

section

variable {st : State}

theorem contained_sendToWm (h : Sound st) (hsent : st.sent = []) (msg : Msg) :
    Contained st (st.sendToWm msg) := by
  intro w hw _
  rcases (mem_sendToWm h).1 hw with hw | ⟨hfd, -⟩
  · rw [hsent] at hw
    cases hw
  · exact hfd

/-- A key stays with the window manager if it is grabbed or nobody else has the focus. -/
theorem contained_key_iff (h : Sound st) (hsent : st.sent = []) {key keyState modifiers : UInt32} :
    Contained st (dispatchKeyboardKey st key keyState modifiers) ↔
      Grabbed st key modifiers ∨ ∀ c ∈ st.clients.list,
        c.sessionId = st.keyboardFocusSessionId → st.wmClient = some c.fd := by
  unfold dispatchKeyboardKey
  split
  · next hgrab => exact iff_of_true (contained_sendToWm h hsent _) (.inl hgrab)
  · next hgrab =>
    rw [or_iff_right hgrab]
    constructor
    · intro hcontained c hc hid
      exact hcontained _ ((mem_sendToSession h).2 (.inr ⟨c, hc, hid, rfl⟩)) rfl
    · intro hfocus w hw _
      rcases (mem_sendToSession h).1 hw with hw | ⟨c, hc, hid, rfl⟩
      · rw [hsent] at hw
        cases hw
      · exact hfocus c hc hid

/-- No surface of another client is under the pointer. -/
def Uncovered (st : State) (x y : Int32) : Prop :=
  ∀ s ∈ st.surfaceManager.slots, s.takesPointer st.wmSessionId = true → s.contains x y = false

/-- An event that goes on to the owner of the target leaves the window manager. -/
theorem not_contained_of_target (h : Sound st) {x y : Int32} {s : Surface}
    (htarget : findPointerTarget st x y = some s) {st' : State} (h' : Sound st')
    (hclients : st'.clients = st.clients) {msg : Msg} (hmsg : msg.isInput = true) :
    ¬ Contained st (st'.sendToSession s.ownerSessionId msg) := by
  obtain ⟨c, hc, howner, hwm⟩ := owner_of_findPointerTarget h htarget
  refine fun hcontained => hwm (hcontained ⟨c.fd, msg⟩ ?_ hmsg)
  exact (mem_sendToSession h').2 (.inr ⟨c, hclients ▸ hc, howner, rfl⟩)

theorem findPointerTarget_sendToWm (msg : Msg) (x y : Int32) :
    findPointerTarget (st.sendToWm msg) x y = findPointerTarget st x y := by
  obtain ⟨sent, heq⟩ := sendToWm_eq st msg
  rw [heq]
  rfl

theorem contained_motion_iff (h : Sound st) (hsent : st.sent = []) {x y : Int32} :
    Contained st (dispatchPointerMotion st x y) ↔ Uncovered st x y := by
  unfold dispatchPointerMotion Uncovered
  dsimp only
  rw [findPointerTarget_sendToWm, ← findPointerTarget_eq_none]
  rcases htarget : findPointerTarget st x y with - | s
  · exact iff_of_true (contained_sendToWm h hsent _) rfl
  · refine iff_of_false ?_ (by simp)
    exact not_contained_of_target h htarget (h.sendToWm _) (clients_sendToWm st _) rfl

theorem contained_button_iff (h : Sound st) (hsent : st.sent = []) {x y : Int32} {button : UInt8}
    {pressed : Bool} :
    Contained st (dispatchPointerButton st x y button pressed) ↔ Uncovered st x y := by
  unfold dispatchPointerButton Uncovered
  dsimp only
  rw [findPointerTarget_sendToWm, ← findPointerTarget_eq_none]
  rcases htarget : findPointerTarget st x y with - | s
  · exact iff_of_true (contained_sendToWm h hsent _) rfl
  · refine iff_of_false ?_ (by simp)
    have hwm := h.sendToWm (encodePointerButton button pressed)
    have hclients := clients_sendToWm st (encodePointerButton button pressed)
    dsimp only
    split
    · refine not_contained_of_target h htarget ?_ ?_ ?_
      · exact { hwm with }
      · exact hclients
      · rfl
    · exact not_contained_of_target h htarget hwm hclients rfl

end

/-- The input of this turn can reach nobody but the window manager. -/
def StaysWithWm (st : State) : Event → Prop
  | .key key _ modifiers =>
    Grabbed st key modifiers ∨
      ∀ c ∈ st.clients.list, c.sessionId = st.keyboardFocusSessionId → st.wmClient = some c.fd
  | .motion x y => Uncovered st x y
  | .button x y _ _ => Uncovered st x y
  | _ => True

/-- **Where the input of a turn goes**, from the state before it. -/
theorem contained_step_iff (h : Sound st) {mode : Mode} {e : Event} :
    Contained st (step mode st e) ↔ StaysWithWm st e := by
  have hclear : Sound { st with sent := [] } := { h with }
  have hother : ∀ e : Event, e.isInput = false → Contained st (step mode st e) :=
    fun e he w hw hinput => absurd hinput (by simp [replies_step he w hw])
  cases e with
  | accept | read | hangup => exact iff_of_true (hother _ rfl) trivial
  | key key keyState modifiers => exact contained_key_iff hclear rfl
  | motion x y => exact contained_motion_iff hclear rfl
  | button x y button pressed => exact contained_button_iff hclear rfl

end Compositor
