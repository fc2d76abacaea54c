import MahinaOS.Compositor.Routing
import MahinaOS.Compositor.Turns
import MahinaOS.Lib.Slots

/-!
# Live surfaces

What other parts of the system rely on is which surfaces there are and who owns them.  `State.live`
is the surface table seen that way: a slot is free, or it has the id and the owner of its surface.
`State.focus` is the keyboard focus as such a pair, and `State.notices` are the frames by which a
window manager is told of surfaces that come and go.

* `Outcome` lists what a message can do to the three: nothing is created or destroyed, a surface is
  created, one is destroyed, or one is created for a client that then cannot be told.
  `outcome_handleClientMessage` says that there is nothing else.
* `Moved` is the same for every move of the event loop, with the disconnects, and **`moved_move`**
  says which of them a move makes, with `Move.closes` and `Move.destroys`.
-/

namespace Compositor

open Run Framing ListUpdate Slots List

/-- A surface by its id and the session of its owner. -/
structure Entry where
  id : UInt32
  owner : UInt32
  deriving DecidableEq, Repr

/-- A slot as the others see it. -/
def Surface.entry (s : Surface) : Option Entry :=
  if s.inUse then some ⟨s.id, s.ownerSessionId⟩ else none

/-- The live surfaces, slot by slot. -/
def State.live (st : State) : List (Option Entry) := st.surfaceManager.slots.map Surface.entry

def State.focus (st : State) : Entry := ⟨st.keyboardFocusSurfaceId, st.keyboardFocusSessionId⟩

/-- The keyboard focus is nowhere, or on a live surface of the focused session. -/
def State.FocusValid (st : State) : Prop := st.focus = ⟨0, 0⟩ ∨ some st.focus ∈ st.live

instance (st : State) : Decidable st.FocusValid := inferInstanceAs (Decidable (_ ∨ _))

/-- The messages that tell a window manager of surfaces. -/
def Msg.isNotice (msg : Msg) : Bool :=
  msg.type == MsgType.wmSurfaceCreated || msg.type == MsgType.wmSurfaceDestroyed

/-- The frames written that tell of surfaces. -/
def State.notices (st : State) : List Sent := st.sent.filter (·.msg.isNotice)

/-- What a window manager other than the sender is told. -/
def noticeTo (st : State) (client : Client) (msg : Msg) : List Sent :=
  match st.wmClient with
  | some wm => if wm ≠ client.fd then [⟨wm, msg⟩] else []
  | none => []

def Entry.hasId (surfaceId : UInt32) (e : Entry) : Bool := e.id == surfaceId

def Entry.ownedBy (sessionId : UInt32) (e : Entry) : Bool := e.owner == sessionId

/-! ## The operations on the table -/

section Table

variable {st : State} {client : Client}

theorem entry_isNone (s : Surface) : s.entry.isNone = !s.inUse := by
  cases h : s.inUse <;> simp [Surface.entry, h]

theorem entry_any_hasId (surfaceId : UInt32) (s : Surface) :
    s.entry.any (Entry.hasId surfaceId) = Surface.hasId surfaceId s := by
  cases h : s.inUse <;> simp [Surface.entry, Surface.hasId, Entry.hasId, h]

theorem live_modify_same {p : Surface → Bool} {f : Surface → Surface}
    (hf : ∀ s, (f s).entry = s.entry) (m : SurfaceManager) :
    (m.modify p f).slots.map Surface.entry = m.slots.map Surface.entry :=
  map_modifyFirst hf m.slots

theorem live_closeClient (st : State) (client : Client) :
    (closeClient st client).live = freeAll (Entry.ownedBy client.sessionId) st.live := by
  rw [State.live, State.live, freeAll, map_map]
  show (st.surfaceManager.slots.map _).map Surface.entry = _
  rw [map_map]
  refine map_congr_left fun s _ => ?_
  by_cases huse : s.inUse = true
  · by_cases howner : s.ownerSessionId = client.sessionId
    · simp [Surface.entry, Surface.released, Entry.ownedBy, Option.filter, huse, howner]
    · simp [Surface.entry, Entry.ownedBy, Option.filter, huse, howner]
  · simp [Surface.entry, huse]

/-- Creating a surface is refused, or it fills the first free slot. -/
theorem create_cases (st : State) (client : Client) (p : CreatePayload) :
    (∃ status, status ≠ .ok ∧ st.surfaceManager.create client p = (st.surfaceManager, status, 0)) ∨
      ∃ m id, st.surfaceManager.create client p = (m, .ok, id) ∧ none ∈ st.live ∧
        m.slots.map Surface.entry = fillFirst ⟨id, client.sessionId⟩ st.live := by
  rw [SurfaceManager.create]
  split
  · next hstatus => exact .inl ⟨_, hstatus, rfl⟩
  · split
    · exact .inl ⟨.noMemory, by decide, rfl⟩
    · next hfull =>
      rw [all_eq_true] at hfull
      push Not at hfull
      obtain ⟨s, hs, huse⟩ := hfull
      refine .inr ⟨_, _, rfl, mem_map.2 ⟨s, hs, by simp [Surface.entry, huse]⟩, ?_⟩
      exact map_modifyFirst_comm entry_isNone (fun _ _ => rfl) _

end Table

/-! ## What a message can do -/

/-- A change of the state that shows in none of the three. -/
structure Unseen (st st' : State) : Prop where
  live : st'.live = st.live
  focus : st'.focus = st.focus
  notices : st'.notices = st.notices

/-- What a message of `client` can do to the live surfaces, the focus and the notices, and whether
it is accepted. -/
inductive Outcome (client : Client) (msg : Msg) (st : State) : State × Bool → Prop
  | quiet {st' : State} {ok : Bool} (hlive : st'.live = st.live)
      (hnotices : st'.notices = st.notices)
      (hfocus : st'.focus = st.focus ∨ ok = true ∧ st'.FocusValid)
      (hmsg : ok = true → decodeDestroy msg = none) : Outcome client msg st (st', ok)
  | created {st' : State} (id type w h : UInt32) (hfree : none ∈ st.live)
      (hlive : st'.live = fillFirst ⟨id, client.sessionId⟩ st.live)
      (hnotices : st'.notices =
        st.notices ++ noticeTo st client (encodeSurfaceCreated id type w h))
      (hfocus : st'.focus = st.focus ∨ st'.focus = ⟨id, client.sessionId⟩)
      (hmsg : decodeDestroy msg = none) : Outcome client msg st (st', true)
  | unanswered {st' : State} (id : UInt32)
      (hlive : st'.live = fillFirst ⟨id, client.sessionId⟩ st.live)
      (hnotices : st'.notices = st.notices) (hfocus : st'.focus = st.focus) :
      Outcome client msg st (st', false)
  | destroyed {st' : State} (id : UInt32) (hmsg : decodeDestroy msg = some id)
      (hlive : st'.live = freeFirst (Entry.hasId id) st.live)
      (hnotices : st'.notices = st.notices ++ noticeTo st client (encodeSurfaceDestroyed id))
      (hfocus : st'.focus = st.focus) : Outcome client msg st (st', true)

section Messages

variable {mode : Mode} {env : MsgEnv} {st : State} {client : Client} {msg : Msg}

theorem decodeDestroy_eq_none (h : msg.type ≠ MsgType.destroySurface) : decodeDestroy msg = none :=
  if_pos (.inl h)

theorem notices_write_other {msg : Msg} (hmsg : msg.isNotice = false) (st : State) (fd : Nat) :
    (st.write fd msg).notices = st.notices := by
  simp [State.notices, State.write, hmsg]

theorem notices_notifyWm {msg : Msg} (hmsg : msg.isNotice = true) (st : State) (client : Client) :
    (notifyWm st client msg).notices = st.notices ++ noticeTo st client msg := by
  rw [notifyWm, noticeTo]
  rcases st.wmClient with - | wm
  · simp
  · dsimp only
    split
    · simp [State.notices, State.write, hmsg]
    · simp

theorem live_notifyWm (st : State) (client : Client) (msg : Msg) :
    (notifyWm st client msg).live = st.live ∧ (notifyWm st client msg).focus = st.focus := by
  rw [notifyWm]
  split
  · split <;> exact ⟨rfl, rfl⟩
  · exact ⟨rfl, rfl⟩

theorem Outcome.refused : Outcome client msg st (st, false) :=
  .quiet rfl rfl (.inl rfl) fun h => by cases h

theorem Outcome.other {st' : State} {type : UInt16} {ok : Bool} (hmsg : msg.type = type)
    (hne : type ≠ MsgType.destroySurface) (h : Unseen st st') : Outcome client msg st (st', ok) :=
  .quiet h.live h.notices (.inl h.focus) fun _ => decodeDestroy_eq_none (hmsg ▸ hne)

theorem outcome_handleHello (hmsg : msg.type = MsgType.hello) :
    Outcome client msg st (handleHello mode env st client msg) := by
  have hregister : ∀ st' : State, Unseen st' (registerWm st' client.fd) := fun st' => by
    rw [registerWm]
    split
    · exact ⟨rfl, rfl, rfl⟩
    · split
      · split <;> exact ⟨rfl, rfl, rfl⟩
      · exact ⟨rfl, rfl, rfl⟩
  rw [handleHello]
  rcases helloHandle_cases env st client msg with heq | ⟨requested, done, -, heq⟩
  · rw [heq]
    exact .refused
  · rw [heq]
    have hnotices : (st.granted client (capsNegotiate client.uid requested) done).notices =
        st.notices := notices_write_other rfl _ _
    rcases done with - | -
    · exact .other hmsg (by decide) ⟨rfl, rfl, hnotices⟩
    · obtain ⟨hlive, hfocus, hsame⟩ :=
        hregister (st.granted client (capsNegotiate client.uid requested) true)
      refine .other hmsg (by decide) ⟨hlive, hfocus, ?_⟩
      exact (notices_write_other rfl _ _).trans (hsame.trans hnotices)

theorem outcome_handleFillRect (hmsg : msg.type = MsgType.fillRect) :
    Outcome client msg st (handleFillRect env st client msg) := by
  refine iteInduction (fun _ => .refused) fun _ => ?_
  exact iteInduction (fun _ => .refused) fun _ => .other hmsg (by decide) ⟨rfl, rfl, rfl⟩

theorem outcome_handleCreateSurface (hmsg : msg.type = MsgType.createSurface) :
    Outcome client msg st (handleCreateSurface env st client msg) := by
  rw [handleCreateSurface]
  rcases hdecode : decodeCreate msg with - | p
  · exact .refused
  · rcases create_cases st client p with ⟨status, hstatus, heq⟩ | ⟨m, id, heq, hfree, hlive⟩
    · simp only [heq]
      refine iteInduction (fun _ => ?_) fun _ => iteInduction (fun _ => ?_) fun hok => ?_
      · exact .other hmsg (by decide) ⟨rfl, rfl, notices_write_other rfl _ _⟩
      · exact .other hmsg (by decide) ⟨rfl, rfl, notices_write_other rfl _ _⟩
      · exact absurd hstatus hok
    · simp only [heq]
      refine iteInduction (fun _ => ?_) fun _ => iteInduction (fun hok => ?_) fun _ => ?_
      · exact .unanswered id hlive (notices_write_other rfl _ _) rfl
      · exact absurd rfl hok
      · refine .created id p.surfaceType p.width p.height hfree ?_ ?_ ?_
          (decodeDestroy_eq_none (by rw [hmsg]; decide))
        · rw [(live_notifyWm _ _ _).1, autoFocus]
          split <;> exact hlive
        · rw [notices_notifyWm rfl, autoFocus]
          split <;> exact congrArg (· ++ _) (notices_write_other rfl _ _)
        · rw [(live_notifyWm _ _ _).2, autoFocus]
          split
          · exact .inr rfl
          · exact .inl rfl

theorem outcome_handleDestroySurface :
    Outcome client msg st (handleDestroySurface st client msg) := by
  rw [handleDestroySurface]
  rcases hdecode : decodeDestroy msg with - | surfaceId
  · exact .refused
  · dsimp only
    rw [SurfaceManager.destroy]
    split
    · exact .refused
    · split
      · exact .refused
      · refine .destroyed surfaceId hdecode ?_ ?_ ?_
        · exact (live_notifyWm _ _ _).1.trans
            (map_modifyFirst_comm (entry_any_hasId surfaceId) (fun _ _ => rfl) _)
        · exact notices_notifyWm rfl _ _
        · exact (live_notifyWm _ _ _).2

theorem outcome_handleCommitBuffer (hmsg : msg.type = MsgType.commitBuffer) :
    Outcome client msg st (handleCommitBuffer env st client msg) := by
  rw [handleCommitBuffer]
  rcases hdecode : decodeCommit msg with - | p
  · exact .refused
  · have hlive : (st.surfaceManager.commit client p (takeFd client).1 env.mmap).1.slots.map
        Surface.entry = st.live := by
      rw [SurfaceManager.commit.eq_def]
      split
      · rfl
      · split
        · rfl
        · split
          · rfl
          · split
            · rfl
            · split
              · rfl
              · exact live_modify_same (f := SurfaceManager.attach p _) (fun _ => rfl) _
    refine iteInduction (fun _ => ?_) fun _ => ?_
    · exact .other hmsg (by decide) ⟨hlive, rfl, rfl⟩
    · exact .other hmsg (by decide) ⟨hlive, rfl, rfl⟩

theorem outcome_handleWmSetPosition (hmsg : msg.type = MsgType.wmSetSurfacePosition) :
    Outcome client msg st (handleWmSetPosition mode env st client msg) := by
  refine iteInduction (fun _ => .refused) fun _ => ?_
  split
  · exact .refused
  · split
    · exact .other hmsg (by decide) ⟨rfl, rfl, rfl⟩
    · refine iteInduction (fun _ => .other hmsg (by decide) ⟨rfl, rfl, rfl⟩) fun _ => ?_
      exact .other hmsg (by decide) ⟨live_modify_same (fun _ => by rfl) _, rfl, rfl⟩

theorem outcome_handleWmSetFocus (hmsg : msg.type = MsgType.wmSetFocus) :
    Outcome client msg st (handleWmSetFocus st client msg) := by
  have hnone : decodeDestroy msg = none := decodeDestroy_eq_none (by rw [hmsg]; decide)
  refine iteInduction (fun _ => .refused) fun _ => ?_
  split
  · exact .refused
  · refine iteInduction (fun _ => ?_) fun _ => ?_
    · exact .quiet rfl rfl (.inr ⟨rfl, .inl rfl⟩) fun _ => hnone
    · split
      · next s hfind =>
        have hlive : s.entry = some ⟨s.id, s.ownerSessionId⟩ := if_pos (inUse_of_find hfind)
        have hmem := mem_map.2 ⟨s, mem_of_find?_eq_some hfind, hlive⟩
        exact .quiet rfl rfl (.inr ⟨rfl, .inr hmem⟩) fun _ => hnone
      · exact .refused

theorem outcome_handleWmSetState (hmsg : msg.type = MsgType.wmSetState) :
    Outcome client msg st (handleWmSetState env st client msg) := by
  refine iteInduction (fun _ => .refused) fun _ => ?_
  split
  · exact .refused
  · exact .other hmsg (by decide) ⟨live_modify_same (fun _ => by rfl) _, rfl, rfl⟩

theorem outcome_handleWmGrabKey (hmsg : msg.type = MsgType.wmGrabKey) :
    Outcome client msg st (handleWmGrabKey st client msg) := by
  refine iteInduction (fun _ => .refused) fun _ => ?_
  split
  · exact .refused
  · exact iteInduction (fun _ => .other hmsg (by decide) ⟨rfl, rfl, rfl⟩) fun _ =>
      .other hmsg (by decide) ⟨rfl, rfl, rfl⟩

/-- **One message, whatever it is.** -/
theorem outcome_handleClientMessage (mode : Mode) (env : MsgEnv) (st : State) (client : Client)
    (msg : Msg) : Outcome client msg st (handleClientMessage mode env st client msg) := by
  refine iteInduction (fun _ => .refused) fun _ => ?_
  refine iteInduction (fun _ => .refused) fun _ => ?_
  refine iteInduction outcome_handleHello fun _ => ?_
  refine iteInduction outcome_handleFillRect fun _ => ?_
  refine iteInduction outcome_handleCreateSurface fun _ => ?_
  refine iteInduction (fun _ => outcome_handleDestroySurface) fun _ => ?_
  refine iteInduction outcome_handleCommitBuffer fun _ => ?_
  refine iteInduction (fun hset => ?_) fun _ => ?_
  · exact iteInduction (fun _ => .refused) fun _ => .other hset (by decide) ⟨rfl, rfl, rfl⟩
  refine iteInduction (fun hget => ?_) fun _ => ?_
  · refine iteInduction (fun _ => .refused) fun _ => .other hget (by decide) ?_
    exact ⟨rfl, rfl, notices_write_other rfl _ _⟩
  refine iteInduction outcome_handleWmSetPosition fun _ => ?_
  refine iteInduction outcome_handleWmSetFocus fun _ => ?_
  refine iteInduction outcome_handleWmSetState fun _ => ?_
  exact iteInduction outcome_handleWmGrabKey fun _ => .refused

end Messages

/-! ## What a move can do -/

/-- The client whose message a move handles. -/
def Move.sender : Move → Option Nat
  | .message fd _ => some fd
  | _ => none

/-- The client that a move disconnects. -/
def Move.closes (mode : Mode) (st : State) : Move → Option Client
  | .take fd r => (st.clients.find fd).filter fun c => (readAvailable c r).isNone
  | .message fd env =>
    (st.clients.find fd).filter fun c =>
      match nextFrame c.rxBuf with
      | .more => false
      | .bad => true
      | .frame msg _ => !(handleClientMessage mode env st c msg).2
  | .close fd => st.clients.find fd
  | _ => none

/-- The surface id whose destruction a move accepts. -/
def Move.destroys (mode : Mode) (st : State) : Move → Option UInt32
  | .message fd env =>
    (st.clients.find fd).bind fun c =>
      match nextFrame c.rxBuf with
      | .frame msg _ =>
        if (handleClientMessage mode env st c msg).2 then decodeDestroy msg else none
      | _ => none
  | _ => none

/-- The notices that are new in a state. -/
def State.newNotices (st st' : State) : List Sent := st'.notices.drop st.notices.length

/-- What a move can do to the live surfaces, the focus and the notices. -/
inductive Moved (mode : Mode) (st : State) (m : Move) (st' : State) : Prop
  | calm (hcloses : m.closes mode st = none) (hdestroys : m.destroys mode st = none)
      (hlive : st'.live = st.live) (hnew : st.newNotices st' = [])
      (hfocus : st'.focus = st.focus ∨ st'.FocusValid)
  | created (client : Client) (hsender : m.sender = some client.fd)
      (hcloses : m.closes mode st = none) (hdestroys : m.destroys mode st = none)
      (id type w h : UInt32) (hfree : none ∈ st.live)
      (hlive : st'.live = fillFirst ⟨id, client.sessionId⟩ st.live)
      (hnew : st.newNotices st' = noticeTo st client (encodeSurfaceCreated id type w h))
      (hfocus : st'.focus = st.focus ∨ st'.focus = ⟨id, client.sessionId⟩)
  | destroyed (client : Client) (hsender : m.sender = some client.fd)
      (hcloses : m.closes mode st = none) (id : UInt32) (hdestroys : m.destroys mode st = some id)
      (hlive : st'.live = freeFirst (Entry.hasId id) st.live)
      (hnew : st.newNotices st' = noticeTo st client (encodeSurfaceDestroyed id))
      (hfocus : st'.focus = st.focus)
  | closed (client : Client) (hcloses : m.closes mode st = some client)
      (hdestroys : m.destroys mode st = none)
      (hlive : st'.live = freeAll (Entry.ownedBy client.sessionId) st.live)
      (hnew : st.newNotices st' = []) (hfocus : st'.focus = st.focus)

section Moves

variable {mode : Mode} {st st' : State} {m : Move}

theorem newNotices_eq {new : List Sent} (h : st'.notices = st.notices ++ new) :
    st.newNotices st' = new := by
  rw [State.newNotices, h, drop_left]

theorem newNotices_same (h : st'.notices = st.notices) : st.newNotices st' = [] :=
  newNotices_eq (by rw [h, append_nil])

theorem Unseen.calm (h : Unseen st st') (hcloses : m.closes mode st = none)
    (hdestroys : m.destroys mode st = none) : Moved mode st m st' :=
  .calm hcloses hdestroys h.live (newNotices_same h.notices) (.inl h.focus)

theorem Unseen.refl (st : State) : Unseen st st := ⟨rfl, rfl, rfl⟩

theorem Unseen.trans {st'' : State} (h : Unseen st st') (h' : Unseen st' st'') : Unseen st st'' :=
  ⟨h'.live.trans h.live, h'.focus.trans h.focus, h'.notices.trans h.notices⟩

variable {msg : Msg}

theorem unseen_sendToSession (hmsg : msg.isNotice = false) (st : State) (sessionId : UInt32) :
    Unseen st (st.sendToSession sessionId msg) := by
  rw [State.sendToSession]
  split
  · exact ⟨rfl, rfl, notices_write_other hmsg _ _⟩
  · exact .refl st

theorem unseen_sendToWm (hmsg : msg.isNotice = false) (st : State) :
    Unseen st (st.sendToWm msg) := by
  rw [State.sendToWm]
  split
  · exact unseen_sendToSession hmsg st _
  · exact .refl st

theorem unseen_accept (st : State) (fd : Nat) (uid : UInt32) (watched : Bool) :
    Unseen st (accept st fd uid watched) := by
  rw [accept]
  split
  · exact .refl st
  · dsimp only
    split <;> exact ⟨rfl, rfl, rfl⟩

theorem unseen_dispatchKeyboardKey (st : State) (key keyState modifiers : UInt32) :
    Unseen st (dispatchKeyboardKey st key keyState modifiers) := by
  rw [dispatchKeyboardKey]
  split
  · exact unseen_sendToWm rfl st
  · exact unseen_sendToSession rfl st _

theorem unseen_dispatchPointerMotion (st : State) (x y : Int32) :
    Unseen st (dispatchPointerMotion st x y) := by
  rw [dispatchPointerMotion]
  split
  · exact (unseen_sendToWm rfl st).trans (unseen_sendToSession rfl _ _)
  · exact unseen_sendToWm rfl st

theorem some_mem_live_of_target {x y : Int32} {s : Surface}
    (h : findPointerTarget st x y = some s) : some ⟨s.id, s.ownerSessionId⟩ ∈ st.live := by
  have hmem := (mem_of_foldl_higher h).resolve_right (by simp)
  obtain ⟨hs, htest⟩ := mem_filter.1 hmem
  have huse : s.inUse = true := by
    by_contra huse
    simp [Surface.takesPointer, huse] at htest
  exact mem_map.2 ⟨s, hs, by simp [Surface.entry, huse]⟩

theorem moved_button (x y : Int32) (button : UInt8) (pressed : Bool) :
    Moved mode st (.button x y button pressed) (dispatchPointerButton st x y button pressed) := by
  have hmsg : (encodePointerButton button pressed).isNotice = false := rfl
  have hwm := unseen_sendToWm hmsg st
  rw [dispatchPointerButton]
  split
  · next target htarget =>
    split
    · have hsend := unseen_sendToSession hmsg
        { st.sendToWm (encodePointerButton button pressed) with
          keyboardFocusSessionId := target.ownerSessionId
          keyboardFocusSurfaceId := target.id } target.ownerSessionId
      have hmem := some_mem_live_of_target htarget
      refine .calm rfl rfl (hsend.live.trans hwm.live)
        (newNotices_same (hsend.notices.trans hwm.notices)) (.inr (.inr ?_))
      rw [hsend.focus, hsend.live]
      exact hmem
    · exact (hwm.trans (unseen_sendToSession rfl _ _)).calm rfl rfl
  · exact hwm.calm rfl rfl

theorem closed_closeClient (st : State) (client : Client) :
    (closeClient st client).live = freeAll (Entry.ownedBy client.sessionId) st.live ∧
      (closeClient st client).focus = st.focus ∧
      (closeClient st client).notices = st.notices :=
  ⟨live_closeClient st client, rfl, rfl⟩

theorem moved_take (fd : Nat) (r : Received) : Moved mode st (.take fd r) (takeFrom st fd r) := by
  rw [takeFrom]
  rcases hfind : st.clients.find fd with - | client
  · exact (Unseen.refl st).calm (by simp [Move.closes, hfind]) rfl
  · dsimp only
    rcases hread : readAvailable client r with - | client'
    · obtain ⟨hlive, hfocus, hnotices⟩ := closed_closeClient st client
      exact .closed client (by simp [Move.closes, hfind, hread]) rfl hlive
        (newNotices_same hnotices) hfocus
    · exact Unseen.calm ⟨rfl, rfl, rfl⟩ (by simp [Move.closes, hfind, hread]) rfl

theorem moved_close (fd : Nat) : Moved mode st (.close fd) (closeFd st fd) := by
  rw [closeFd]
  rcases hfind : st.clients.find fd with - | client
  · exact (Unseen.refl st).calm hfind rfl
  · obtain ⟨hlive, hfocus, hnotices⟩ := closed_closeClient st client
    exact .closed client hfind rfl hlive (newNotices_same hnotices) hfocus

/-- The sender is still connected after its message, in the same session. -/
theorem session_handleClientMessage (mode : Mode) {st : State} {fd : Nat} {client : Client}
    (env : MsgEnv) (msg : Msg) (hfind : st.clients.find fd = some client) :
    ∃ c, (handleClientMessage mode env st client msg).1.clients.find fd = some c ∧
      c.sessionId = client.sessionId := by
  obtain ⟨hclient, hfd⟩ := Clients.find_eq_some.1 hfind
  have heffect : Effect client st (handleClientMessage mode env st client msg).1 :=
    effect_handleClientMessage hclient
  obtain ⟨c, hc, hstep⟩ := ListUpdate.exists_of_forall₂ heffect.clients.flip hclient
  exact ⟨c, Clients.find_eq_some.2 ⟨hc, hstep.fd.trans hfd⟩, hstep.sessionId⟩

/-- A refused message and the disconnect: what the message has created is gone again. -/
theorem closed_of_refused {fd : Nat} {client c : Client}
    (houtcome : Outcome client msg st (st', false)) (hfind : st'.clients.find fd = some c)
    (hsession : c.sessionId = client.sessionId) :
    (closeFd st' fd).live = freeAll (Entry.ownedBy client.sessionId) st.live ∧
      (closeFd st' fd).focus = st.focus ∧ (closeFd st' fd).notices = st.notices := by
  obtain ⟨hlive, hfocus, hnotices⟩ := closed_closeClient st' c
  rw [closeFd, hfind]
  rw [hlive, hfocus, hnotices, hsession]
  cases houtcome with
  | quiet hlive hnotices hfocus hmsg =>
    exact ⟨by rw [hlive], hfocus.resolve_right fun h => Bool.false_ne_true h.1, hnotices⟩
  | unanswered id hlive hnotices hfocus =>
    refine ⟨?_, hfocus, hnotices⟩
    rw [hlive, freeAll_fillFirst]
    simp [Entry.ownedBy]

theorem moved_message (fd : Nat) (env : MsgEnv) :
    Moved mode st (.message fd env) (handleFirst mode env st fd) := by
  rw [handleFirst]
  rcases hfind : st.clients.find fd with - | client
  · exact (Unseen.refl st).calm (by simp [Move.closes, hfind]) (by simp [Move.destroys, hfind])
  · dsimp only
    cases hnext : nextFrame client.rxBuf with
    | more =>
      exact (Unseen.refl st).calm (by simp [Move.closes, hfind, hnext])
        (by simp [Move.destroys, hfind, hnext])
    | bad =>
      rw [closeFd, hfind]
      obtain ⟨hlive, hfocus, hnotices⟩ := closed_closeClient st client
      exact .closed client (by simp [Move.closes, hfind, hnext])
        (by simp [Move.destroys, hfind, hnext]) hlive (newNotices_same hnotices) hfocus
    | frame msg size =>
      have houtcome := outcome_handleClientMessage mode env st client msg
      have hsession := session_handleClientMessage mode env msg hfind
      have hfd : client.fd = fd := (Clients.find_eq_some.1 hfind).2
      dsimp only
      cases hhandle : handleClientMessage mode env st client msg with
      | mk st' ok =>
        rw [hhandle] at houtcome hsession
        have hdestroys : (Move.message fd env).destroys mode st =
            if ok then decodeDestroy msg else none := by
          simp [Move.destroys, hfind, hnext, hhandle]
        rcases ok with - | -
        · obtain ⟨c, hc, hsame⟩ := hsession
          obtain ⟨hlive, hfocus, hnotices⟩ := closed_of_refused houtcome hc hsame
          exact .closed client (by simp [Move.closes, hfind, hnext, hhandle]) hdestroys hlive
            (newNotices_same hnotices) hfocus
        · have hcloses : (Move.message fd env).closes mode st = none := by
            simp [Move.closes, hfind, hnext, hhandle]
          have hsender : (Move.message fd env).sender = some client.fd := congrArg some hfd.symm
          cases houtcome with
          | quiet hlive hnotices hfocus hmsg =>
            refine .calm hcloses (hdestroys.trans (hmsg rfl)) hlive (newNotices_same hnotices) ?_
            exact hfocus.imp id fun h => h.2
          | created id type w h hfree hlive hnotices hfocus hmsg =>
            exact .created client hsender hcloses (hdestroys.trans hmsg) id type w h hfree hlive
              (newNotices_eq hnotices) hfocus
          | destroyed id hmsg hlive hnotices hfocus =>
            exact .destroyed client hsender hcloses id (hdestroys.trans hmsg) hlive
              (newNotices_eq hnotices) hfocus

/-- **Every move**, whatever it is. -/
theorem moved_move (mode : Mode) (st : State) (m : Move) : Moved mode st m (move mode st m) := by
  cases m with
  | begin => exact .calm rfl rfl rfl drop_nil (.inl rfl)
  | accept fd uid watched => exact (unseen_accept st fd uid watched).calm rfl rfl
  | take fd r => exact moved_take fd r
  | message fd env => exact moved_message fd env
  | close fd => exact moved_close fd
  | key key keyState modifiers =>
    exact (unseen_dispatchKeyboardKey st key keyState modifiers).calm rfl rfl
  | motion x y => exact (unseen_dispatchPointerMotion st x y).calm rfl rfl
  | button x y button pressed => exact moved_button x y button pressed

end Moves

end Compositor
