import MahinaOS.Shell.Focus

/-!
# What the shell tells the compositor about a surface

The requests of the window manager are about surfaces by their ids.  `positions` and `states` are
what some requests say about one of them, in order, as the compositor's decoders read it; a request
for the focus says nothing here.

The compositor drops a position that is out of bounds and keeps the connection.  `settled` is a
surface after such requests.

* `find_serveRequests`: once all requests have been handled, every surface is what they make of it;
  none comes or goes.
-/

namespace Shell

open Compositor List Option

/-! ## Requests about a surface -/

namespace Request

def position? (id : UInt32) (r : Request) : Option (Int32 × Int32) :=
  (decodeSetPosition r.msg).bind fun p => if p.surfaceId = id then some (p.x, p.y) else none

def state? (id : UInt32) (r : Request) : Option UInt32 :=
  (decodeSetState r.msg).bind fun p => if p.1 = id then some p.2 else none

theorem position?_of_type {r : Request} (h : r.msg.type ≠ MsgType.wmSetSurfacePosition)
    (id : UInt32) : r.position? id = none := by
  rw [position?, decodeSetPosition, if_pos (.inl h), bind_none]

theorem state?_of_type {r : Request} (h : r.msg.type ≠ MsgType.wmSetState) (id : UInt32) :
    r.state? id = none := by
  rw [state?, decodeSetState, if_pos (.inl h), bind_none]

end Request

def positions (id : UInt32) (requests : List Request) : List (Int32 × Int32) :=
  requests.filterMap (·.position? id)

def states (id : UInt32) (requests : List Request) : List UInt32 :=
  requests.filterMap (·.state? id)

variable (win : WindowInfo) (id : UInt32)

theorem positions_cons (r : Request) (rs : List Request) :
    positions id (r :: rs) = (r.position? id).toList ++ positions id rs := by
  rw [positions, filterMap_cons]
  rcases r.position? id with - | p <;> rfl

theorem states_cons (r : Request) (rs : List Request) :
    states id (r :: rs) = (r.state? id).toList ++ states id rs := by
  rw [states, filterMap_cons]
  rcases r.state? id with - | st <;> rfl

@[simp] theorem positions_append (rs rs' : List Request) :
    positions id (rs ++ rs') = positions id rs ++ positions id rs' := filterMap_append

@[simp] theorem states_append (rs rs' : List Request) :
    states id (rs ++ rs') = states id rs ++ states id rs' := filterMap_append

theorem decodeSetPosition_setPosition :
    decodeSetPosition win.setPosition.msg = some ⟨win.surfaceId, win.x, win.y⟩ :=
  (Lgp.decoded_new decodeSetPosition .wmSetSurfacePosition (by simp :
    [win.surfaceId, win.x.toUInt32, win.y.toUInt32].length ≤ 6)).symm.trans
    (Lgp.decoded_setPosition ⟨win.surfaceId, 0, 0, 0, false, 0, 0, 0⟩ win.x win.y)

theorem decodeSetState_setState (surfaceId wmState : UInt32) :
    decodeSetState (setState surfaceId wmState).msg = some (surfaceId, wmState) :=
  (Lgp.decoded_new decodeSetState .wmSetState
    (by simp : [surfaceId, wmState].length ≤ 6)).symm.trans (Lgp.decoded_setState surfaceId wmState)

theorem position?_setPosition :
    win.setPosition.position? id = if win.surfaceId = id then some (win.x, win.y) else none := by
  rw [Request.position?, decodeSetPosition_setPosition, bind_some]

theorem state?_setState (surfaceId wmState id : UInt32) :
    (setState surfaceId wmState).state? id = if surfaceId = id then some wmState else none := by
  rw [Request.state?, decodeSetState_setState, bind_some]

@[simp] theorem positions_setPosition :
    positions id [win.setPosition] = if win.surfaceId = id then [(win.x, win.y)] else [] := by
  rw [positions, filterMap_cons, position?_setPosition]
  split_ifs <;> rfl

@[simp] theorem states_setPosition : states id [win.setPosition] = [] := by
  have htype : MsgType.wmSetSurfacePosition ≠ MsgType.wmSetState := by decide
  rfl

@[simp] theorem states_setState (surfaceId wmState id : UInt32) :
    states id [setState surfaceId wmState] = if surfaceId = id then [wmState] else [] := by
  rw [states, filterMap_cons, state?_setState]
  split_ifs <;> rfl

@[simp] theorem positions_setState (surfaceId wmState id : UInt32) :
    positions id [setState surfaceId wmState] = [] := by
  have htype : MsgType.wmSetState ≠ MsgType.wmSetSurfacePosition := by decide
  rfl

theorem positions_focus (focus : Option UInt32) (id : UInt32) :
    positions id (focus.map setFocus).toList = [] := by
  rcases focus with - | f
  · rfl
  · have htype : MsgType.wmSetFocus ≠ MsgType.wmSetSurfacePosition := by decide
    rfl

theorem states_focus (focus : Option UInt32) (id : UInt32) :
    states id (focus.map setFocus).toList = [] := by
  rcases focus with - | f
  · rfl
  · have htype : MsgType.wmSetFocus ≠ MsgType.wmSetState := by decide
    rfl

@[simp] theorem positions_setFocus (f id : UInt32) : positions id [setFocus f] = [] :=
  positions_focus (some f) id

@[simp] theorem states_setFocus (f id : UInt32) : states id [setFocus f] = [] :=
  states_focus (some f) id

/-! ## The compositor's side -/

/-- A surface with the last accepted place and the last state of those that are asked for. -/
def settled (mode : Mode) (ps : List (Int32 × Int32)) (sts : List UInt32) (s : Surface) : Surface :=
  let p := ps.foldl
    (fun at' p => if outOfBounds mode ⟨s.id, p.1, p.2⟩ s then at' else p) (s.x, s.y)
  { s with x := p.1, y := p.2, wmState := sts.getLastD s.wmState }

/-- The compositor gets through all requests. -/
def served (mode : Mode) (fd : Nat) : (Nat → MsgEnv) → State → List Request → Bool
  | _, _, [] => true
  | env, st, r :: requests =>
    match st.clients.find fd with
    | none => false
    | some client =>
      match handleClientMessage mode (env 0) st client r.msg with
      | (st, true) => served mode fd (fun n => env (n + 1)) st requests
      | (_, false) => false

section

variable {mode : Mode}

theorem settled_append (ps ps' : List (Int32 × Int32)) (sts sts' : List UInt32) (s : Surface) :
    settled mode (ps ++ ps') (sts ++ sts') s = settled mode ps' sts' (settled mode ps sts s) := by
  have hbounds (q : Int32 × Int32) : outOfBounds mode ⟨s.id, q.1, q.2⟩ (settled mode ps sts s) =
    outOfBounds mode ⟨s.id, q.1, q.2⟩ s := rfl
  have hstate : (sts ++ sts').getLastD s.wmState = sts'.getLastD (sts.getLastD s.wmState) := by
    rw [getLastD_eq_getLast?, getLastD_eq_getLast?, getLastD_eq_getLast?, getLast?_append]
    rcases sts'.getLast? with - | st <;> rfl
  have hid : (settled mode ps sts s).id = s.id := rfl
  rw [settled, settled.eq_def mode ps', hid]
  simp only [hbounds, foldl_append, hstate]
  rfl

variable {env : MsgEnv} {st st' : State} {client : Client} {r : Request}

theorem settled_singleton (p : SetPositionPayload) (s : Surface) :
    settled mode [(p.x, p.y)] [] s =
      if outOfBounds mode p s then s else { s with x := p.x, y := p.y } := by
  have hbounds : outOfBounds mode ⟨s.id, p.x, p.y⟩ s = outOfBounds mode p s := rfl
  rw [settled]
  simp only [foldl_cons, hbounds]
  split_ifs <;> rfl

theorem map_settled_nil (o : Option Surface) : o.map (settled mode [] []) = o := by
  rcases o with - | s <;> rfl

theorem find_handlePosition (h : handleWmSetPosition mode env st client r.msg = (st', true))
    (hstate : ∀ id, r.state? id = none) (id : UInt32) :
    st'.surfaceManager.find id = (st.surfaceManager.find id).map
      (settled mode (r.position? id).toList (r.state? id).toList) := by
  rw [handleWmSetPosition] at h
  split at h
  · cases h
  · split at h
    · cases h
    · next p hdecode =>
      rw [hstate, toList_none, Request.position?, hdecode, bind_some]
      split at h
      · next hnone =>
        obtain ⟨rfl, -⟩ := Prod.mk.inj h
        split_ifs with hp
        · rw [← hp, hnone]
          rfl
        · exact (map_settled_nil _).symm
      · next surface hfind =>
        split at h
        · next hbounds =>
          obtain ⟨rfl, -⟩ := Prod.mk.inj h
          split_ifs with hp
          · rw [← hp, hfind, map_some, toList_some, settled_singleton, if_pos hbounds]
          · exact (map_settled_nil _).symm
        · next hbounds =>
          obtain ⟨rfl, -⟩ := Prod.mk.inj h
          rw [find_modifySurface (f := fun s => { s with x := p.x, y := p.y }) (fun _ => rfl)
            (fun _ => rfl)]
          split_ifs with hp
          · rw [← hp, hfind, map_some, map_some, toList_some, settled_singleton, if_neg hbounds]
          · exact (map_settled_nil _).symm

theorem find_handleState (h : handleWmSetState env st client r.msg = (st', true))
    (hposition : ∀ id, r.position? id = none) (id : UInt32) :
    st'.surfaceManager.find id = (st.surfaceManager.find id).map
      (settled mode (r.position? id).toList (r.state? id).toList) := by
  rw [handleWmSetState] at h
  split at h
  · cases h
  · split at h
    · cases h
    · next surfaceId wmState hdecode =>
      obtain ⟨rfl, -⟩ := Prod.mk.inj h
      rw [hposition, Request.state?, hdecode, bind_some,
        find_modifySurface (f := fun s => { s with wmState := wmState }) (fun _ => rfl)
          (fun _ => rfl)]
      split_ifs
      · rfl
      · exact (map_settled_nil _).symm

theorem find_handleFocus (h : handleWmSetFocus st client r.msg = (st', true)) (id : UInt32) :
    st'.surfaceManager.find id = st.surfaceManager.find id := by
  rw [handleWmSetFocus] at h
  split at h
  · cases h
  · split at h
    · cases h
    · split at h
      · obtain ⟨rfl, -⟩ := Prod.mk.inj h
        rfl
      · split at h
        · obtain ⟨rfl, -⟩ := Prod.mk.inj h
          rfl
        · cases h

/-- A request of the window manager. -/
def Request.IsWm (r : Request) : Prop := r.Plain ∨ r.msg.type = MsgType.wmSetFocus

theorem Tells.isWm {focus : Option UInt32} {requests : List Request} (h : Tells focus requests) :
    ∀ r ∈ requests, r.IsWm := by
  obtain ⟨before, after, rfl, hplain⟩ := h
  intro r hr
  rcases mem_append.1 hr with hr | hr
  · rcases mem_append.1 hr with hr | hr
    · exact .inl (hplain r (mem_append_left _ hr))
    · obtain ⟨f, -, rfl⟩ := map_eq_some_iff.1 (mem_toList.1 hr)
      exact .inr rfl
  · exact .inl (hplain r (mem_append_right _ hr))

/-- **One request** that is handled leaves every surface as it asks for. -/
theorem find_handle (hr : r.IsWm)
    (h : handleClientMessage mode env st client r.msg = (st', true)) (id : UInt32) :
    st'.surfaceManager.find id = (st.surfaceManager.find id).map
      (settled mode (r.position? id).toList (r.state? id).toList) := by
  rw [handleClientMessage] at h
  rcases hello : client.helloDone with - | -
  · rcases hr with (⟨htype, -⟩ | ⟨htype, -⟩) | htype <;> rw [htype, hello] at h <;> cases h
  rcases hr with (⟨htype, -⟩ | ⟨htype, -⟩) | htype
  · rw [hello, htype] at h
    have hstate : MsgType.wmSetSurfacePosition ≠ MsgType.wmSetState := by decide
    exact find_handlePosition h (Request.state?_of_type (htype ▸ hstate)) id
  · rw [hello, htype] at h
    have hposition : MsgType.wmSetState ≠ MsgType.wmSetSurfacePosition := by decide
    exact find_handleState h (Request.position?_of_type (htype ▸ hposition)) id
  · rw [hello, htype] at h
    have hposition : MsgType.wmSetFocus ≠ MsgType.wmSetSurfacePosition := by decide
    have hstate : MsgType.wmSetFocus ≠ MsgType.wmSetState := by decide
    rw [find_handleFocus h id, Request.position?_of_type (htype ▸ hposition),
      Request.state?_of_type (htype ▸ hstate)]
    exact (map_settled_nil _).symm

end

/-- **All requests**, once they have been handled. -/
theorem find_serveRequests {mode : Mode} {fd : Nat} {env : Nat → MsgEnv} {st : State}
    {requests : List Request} (hwm : ∀ r ∈ requests, r.IsWm)
    (h : served mode fd env st requests = true) (id : UInt32) :
    (serveRequests mode fd env st requests).surfaceManager.find id =
      (st.surfaceManager.find id).map
        (settled mode (positions id requests) (states id requests)) := by
  induction requests generalizing env st with
  | nil => exact (map_settled_nil _).symm
  | cons r requests ih =>
    obtain ⟨hr, hwm⟩ := forall_mem_cons.1 hwm
    have hsplit : settled mode (positions id (r :: requests)) (states id (r :: requests)) =
        settled mode (positions id requests) (states id requests) ∘
          settled mode (r.position? id).toList (r.state? id).toList := by
      funext s
      rw [Function.comp_apply, ← settled_append, positions_cons, states_cons]
    rw [served] at h
    rcases hclient : st.clients.find fd with - | client
    · rw [hclient] at h
      exact absurd h nofun
    · rw [hclient] at h
      rcases hhandle : handleClientMessage mode (env 0) st client r.msg with ⟨st', - | -⟩
      · simp only [hhandle] at h
        exact absurd h nofun
      · simp only [hhandle] at h
        rw [serveRequests, hclient]
        simp only [hhandle]
        rw [ih hwm h, find_handle hr hhandle id, Option.map_map, hsplit]

end Shell
