import MahinaOS.Compositor.Composite
import MahinaOS.Compositor.Turns

/-!
# What is drawn on the display

The display buffer is written in two ways.  A commit, and a change of the window manager, repaint
the scene with `lgp_surface_manager_composite`.  `LGP_MSG_FILL_RECT` fills the whole buffer with one
colour and needs no surface; the comment of its handler reserves it to privileged clients, and the
test is the capability `LGP_CAP_DIRECT_LGP`.

`paintMessage` is what `lgp_handle_client_message` does to the pixels, handler by handler.  A
`Screen` is the compositor with its display buffer, and `Screen.step` a move of both; the cursor and
the contents of the mapped buffers come with the move.

* `ThroughScene`: a message of a client that is not root leaves the pixels alone, unless it commits
  a buffer to a surface of that client; then the scene is repainted with it.
* `NoFill`: no client that is not root fills the buffer, except with what it holds already.
* **`through_scene_iff`**: in a run from the start the first holds exactly when the second does.  In
  `any_client_fills` a user's client asks for the capability and gets it.
-/

namespace Compositor

open Run Framing

/-! ## Drawing -/

/-- `drm_dev->front_buffer`: its dimensions, and its size in bytes. -/
structure FrontBuffer where
  target : Target
  size : Nat

/-- What a repaint finds beside the surface table: the cursor, and the contents of the mapped
buffers of the slots. -/
structure Scene where
  cursor : Cursor
  buffers : Nat → Nat → UInt8

section

variable (fb : FrontBuffer) (scene : Scene) (mode : Mode) (env : MsgEnv)
  (st : State) (client : Client) (msg : Msg) (pixels : Nat → UInt8)

/-- `lgp_repaint_surfaces`, up to the page flip. -/
def repaintSurfaces (m : SurfaceManager) (pixels : Nat → UInt8) : Nat → UInt8 :=
  (composite m scene.cursor fb.target scene.buffers pixels).1.bytes

/-- The colour of a `LGP_MSG_FILL_RECT`. -/
def fillColor (payload : Bytes) : UInt32 :=
  (payload.getD 0 0).toUInt32 <<< 16 ||| (payload.getD 1 0).toUInt32 <<< 8 |||
    (payload.getD 2 0).toUInt32

/-- The loop of `lgp_handle_fill_rect` over all pixels of the buffer. -/
def fillPixels (size : Nat) (color : UInt32) (pixels : Nat → UInt8) : Nat → UInt8 := fun i =>
  if i < size / 4 * 4 then (writeU32Le color).getD (i % 4) 0 else pixels i

/-- What `lgp_handle_fill_rect` does to the pixels. -/
def paintFillRect : Nat → UInt8 :=
  if !client.hasCap Cap.directLgp then pixels
  else if msg.payload.length < 4 then pixels
  else fillPixels fb.size (fillColor msg.payload) pixels

/-- The surface table after the commit of a message, if there is one. -/
def committed (env : MsgEnv) (st : State) (client : Client) (msg : Msg) : Option SurfaceManager :=
  match decodeCommit msg with
  | none => none
  | some p =>
    let (manager, status) := st.surfaceManager.commit client p (takeFd client).1 env.mmap
    if status ≠ .ok then none else some manager

/-- What `lgp_handle_commit_buffer` does to the pixels. -/
def paintCommitBuffer : Nat → UInt8 :=
  match committed env st client msg with
  | none => pixels
  | some manager => repaintSurfaces fb scene manager pixels

/-- What `lgp_handle_wm_set_position` does to the pixels. -/
def paintWmSetPosition : Nat → UInt8 :=
  if !client.hasCap Cap.windowManager then pixels
  else
    match decodeSetPosition msg with
    | none => pixels
    | some p =>
      match st.surfaceManager.find p.surfaceId with
      | none => pixels
      | some surface =>
        if outOfBounds mode p surface then pixels
        else
          repaintSurfaces fb scene (st.surfaceManager.modify (Surface.hasId p.surfaceId) fun s =>
            { s with x := p.x, y := p.y }) pixels

/-- What `lgp_handle_wm_set_state` does to the pixels. -/
def paintWmSetState : Nat → UInt8 :=
  if !client.hasCap Cap.windowManager then pixels
  else
    match decodeSetState msg with
    | none => pixels
    | some (surfaceId, wmState) =>
      repaintSurfaces fb scene (st.surfaceManager.modify (Surface.hasId surfaceId) fun s =>
        { s with wmState := wmState }) pixels

/-- What `lgp_handle_client_message` does to the pixels. -/
def paintMessage : Nat → UInt8 :=
  if !client.helloDone then pixels
  else if msg.type = MsgType.fillRect then paintFillRect fb client msg pixels
  else if msg.type = MsgType.commitBuffer then
    paintCommitBuffer fb scene env st client msg pixels
  else if msg.type = MsgType.wmSetSurfacePosition then
    paintWmSetPosition fb scene mode st client msg pixels
  else if msg.type = MsgType.wmSetState then paintWmSetState fb scene st client msg pixels
  else pixels

end

/-- The message that a move handles, with its client and what the kernel decides. -/
def Move.handles (st : State) : Move → Option (Client × Msg × MsgEnv)
  | .message fd env =>
    (st.clients.find fd).bind fun c =>
      match nextFrame c.rxBuf with
      | .frame msg _ => some (c, msg, env)
      | _ => none
  | _ => none

structure Screen where
  st : State
  pixels : Nat → UInt8

def Screen.step (fb : FrontBuffer) (mode : Mode) (s : Screen) (i : Move × Scene) : Screen where
  st := move mode s.st i.1
  pixels :=
    match i.1.handles s.st with
    | some (client, msg, env) => paintMessage fb i.2 mode env s.st client msg s.pixels
    | none => s.pixels

/-! ## Who draws what -/

/-- The message commits a buffer to a surface of its sender. -/
def CommitsOwn (env : MsgEnv) (st : State) (client : Client) (msg : Msg) (m : SurfaceManager) :
    Prop :=
  committed env st client msg = some m ∧ ∃ p surface, decodeCommit msg = some p ∧
    st.surfaceManager.find p.surfaceId = some surface ∧
    surface.ownerSessionId = client.sessionId

/-- A message of a client that is not root changes the pixels only if it commits a buffer to a
surface of that client, and then as a repaint of the scene with this buffer. -/
def Screen.ThroughScene (fb : FrontBuffer) (mode : Mode) (s : Screen) (i : Move × Scene) : Prop :=
  ∀ client msg env, i.1.handles s.st = some (client, msg, env) → client.uid ≠ 0 →
    (s.step fb mode i).pixels = s.pixels ∨
      ∃ m, CommitsOwn env s.st client msg m ∧
        (s.step fb mode i).pixels = repaintSurfaces fb i.2 m s.pixels

/-- The message fills the buffer. -/
def FillsBuffer (client : Client) (msg : Msg) : Prop :=
  client.helloDone = true ∧ msg.type = MsgType.fillRect ∧ client.hasCap Cap.directLgp = true ∧
    4 ≤ msg.payload.length

instance (client : Client) (msg : Msg) : Decidable (FillsBuffer client msg) :=
  inferInstanceAs (Decidable (_ ∧ _))

/-- The colour with which a client that is not root fills the buffer in a move. -/
def Move.fills (st : State) (m : Move) : Option UInt32 :=
  (m.handles st).bind fun (client, msg, _) =>
    if client.uid ≠ 0 ∧ FillsBuffer client msg then some (fillColor msg.payload) else none

/-- No client that is not root fills the buffer with something new. -/
def Screen.NoFill (fb : FrontBuffer) (s : Screen) (i : Move × Scene) : Prop :=
  ∀ color, i.1.fills s.st = some color → fillPixels fb.size color s.pixels = s.pixels

/-- Clients that are not root have no other capabilities than any user may have. -/
def CapsBound (st : State) : Prop :=
  ∀ c ∈ st.clients.list, c.uid ≠ 0 → c.capsGranted &&& Cap.unprivileged = c.capsGranted

theorem capsBound_kept : Kept CapsBound where
  change _ hc h c hc' huid := by
    obtain ⟨c₀, hc₀, hstep⟩ := ListUpdate.exists_of_forall₂ hc.clients hc'
    exact hstep.unprivileged (h c₀ hc₀) huid
  close fd h := by
    rw [closeFd]
    split
    · exact fun c hc => h c (Clients.mem_remove.1 hc).1
    · exact h

theorem CapsBound.accept {st : State} (h : CapsBound st) (fd : Nat) (uid : UInt32)
    (watched : Bool) : CapsBound (accept st fd uid watched) := by
  rw [Compositor.accept]
  split
  · exact h
  · dsimp only
    split
    · intro c hc huid
      rcases List.mem_cons.1 hc with rfl | hc
      · exact UInt32.zero_and
      · exact h c hc huid
    · exact h

theorem CapsBound.move {st : State} (h : CapsBound st) (mode : Mode) (m : Move) :
    CapsBound (move mode st m) :=
  capsBound_kept.move (fun _ _ _ h => h) (fun fd uid watched h => h.accept fd uid watched) h m

/-! ## Exactly the fills -/

section

variable {fb : FrontBuffer} {mode : Mode} {env : MsgEnv} {st : State} {client : Client} {msg : Msg}
  {m : SurfaceManager}

theorem owner_of_commit {p : CommitPayload} {bufferFd : Option Nat} {mmap : Nat → Option Nat}
    (h : (m.commit client p bufferFd mmap).2 = .ok) :
    ∃ surface, m.find p.surfaceId = some surface ∧
      surface.ownerSessionId = client.sessionId := by
  rw [SurfaceManager.commit.eq_def] at h
  split at h
  · cases h
  · split at h
    · cases h
    · next surface hfind =>
      split at h
      · cases h
      · next howner => exact ⟨surface, hfind, not_not.1 howner⟩

theorem mem_of_handles {m : Move} (h : m.handles st = some (client, msg, env)) :
    client ∈ st.clients.list := by
  cases m with
  | message fd env' =>
    obtain ⟨c, hfind, hframe⟩ := Option.bind_eq_some_iff.1 h
    split at hframe
    · cases hframe
      exact (Clients.find_eq_some.1 hfind).1
    · cases hframe
  | begin | accept | take | close | key | motion | button => cases h

/-- A commit that is accepted is to a surface of the sender. -/
theorem commitsOwn_of_committed (h : committed env st client msg = some m) :
    CommitsOwn env st client msg m := by
  refine ⟨h, ?_⟩
  rw [committed] at h
  rcases hdecode : decodeCommit msg with - | p
  · rw [hdecode] at h
    cases h
  · rw [hdecode] at h
    dsimp only at h
    split at h
    · cases h
    · next hok =>
      obtain ⟨surface, hfind, howner⟩ := owner_of_commit (not_not.1 hok)
      exact ⟨p, surface, rfl, hfind, howner⟩

theorem paintFillRect_eq (hfills : ¬ FillsBuffer client msg) (hhello : client.helloDone = true)
    (hmsg : msg.type = MsgType.fillRect) (pixels : Nat → UInt8) :
    paintFillRect fb client msg pixels = pixels := by
  rw [paintFillRect]
  split
  · rfl
  · next hcap =>
    split
    · rfl
    · next hlen =>
      exact absurd ⟨hhello, hmsg, by simpa using hcap, Nat.not_lt.1 hlen⟩ hfills

theorem paintMessage_of_fills (h : FillsBuffer client msg) (scene : Scene) (pixels : Nat → UInt8) :
    paintMessage fb scene mode env st client msg pixels =
      fillPixels fb.size (fillColor msg.payload) pixels := by
  obtain ⟨hhello, hmsg, hcap, hlen⟩ := h
  rw [paintMessage, hhello, if_neg (by decide), if_pos hmsg, paintFillRect, hcap,
    if_neg (by decide), if_neg (Nat.not_lt.2 hlen)]

/-- Without the capability of a window manager, any other message leaves the pixels alone or commits
a buffer to a surface of its sender. -/
theorem paintMessage_of_not_fills (hfills : ¬ FillsBuffer client msg)
    (hcap : client.hasCap Cap.windowManager = false) (scene : Scene) (pixels : Nat → UInt8) :
    paintMessage fb scene mode env st client msg pixels = pixels ∨
      ∃ m, CommitsOwn env st client msg m ∧
        paintMessage fb scene mode env st client msg pixels =
          repaintSurfaces fb scene m pixels := by
  have hwm : (!client.hasCap Cap.windowManager) = true := by
    rw [hcap]
    rfl
  rw [paintMessage]
  split
  · exact .inl rfl
  · next hhello =>
    split
    · next hmsg => exact .inl (paintFillRect_eq hfills (by simpa using hhello) hmsg pixels)
    · split
      · rw [paintCommitBuffer]
        split
        · exact .inl rfl
        · next m hm => exact .inr ⟨m, commitsOwn_of_committed hm, rfl⟩
      · left
        rw [paintWmSetPosition, if_pos hwm, paintWmSetState, if_pos hwm, ite_self, ite_self]

theorem throughScene_iff_noFill {s : Screen} (h : CapsBound s.st) (i : Move × Scene) :
    s.ThroughScene fb mode i ↔ s.NoFill fb i := by
  rcases hhandles : i.1.handles s.st with - | handled
  · refine iff_of_true (fun client msg env heq => ?_) fun color hcolor => ?_
    · rw [hhandles] at heq
      cases heq
    · rw [Move.fills, hhandles] at hcolor
      cases hcolor
  · obtain ⟨client, msg, env⟩ := handled
    have hpixels : (s.step fb mode i).pixels =
        paintMessage fb i.2 mode env s.st client msg s.pixels := by
      rw [Screen.step, hhandles]
    have hthrough : s.ThroughScene fb mode i ↔ (client.uid ≠ 0 →
        paintMessage fb i.2 mode env s.st client msg s.pixels = s.pixels ∨
          ∃ m, CommitsOwn env s.st client msg m ∧
            paintMessage fb i.2 mode env s.st client msg s.pixels =
              repaintSurfaces fb i.2 m s.pixels) := by
      rw [← hpixels, Screen.ThroughScene, hhandles]
      refine ⟨fun h => h client msg env rfl, fun h client' msg' env' heq => ?_⟩
      cases heq
      exact h
    have hnoFill : s.NoFill fb i ↔ (client.uid ≠ 0 → FillsBuffer client msg →
        fillPixels fb.size (fillColor msg.payload) s.pixels = s.pixels) := by
      have hcolor : i.1.fills s.st = if client.uid ≠ 0 ∧ FillsBuffer client msg
          then some (fillColor msg.payload) else none := by
        rw [Move.fills, hhandles]
        rfl
      rw [Screen.NoFill, hcolor]
      refine ⟨fun h huid hfills => h _ (if_pos ⟨huid, hfills⟩), fun h color heq => ?_⟩
      split at heq
      · next hboth =>
        cases heq
        exact h hboth.1 hboth.2
      · cases heq
    rw [hthrough, hnoFill]
    refine imp_congr_right fun huid => ?_
    by_cases hfills : FillsBuffer client msg
    · rw [paintMessage_of_fills hfills]
      have hnone : ∀ m, ¬ CommitsOwn env s.st client msg m := fun m hm => by
        have hother : msg.type ≠ MsgType.commitBuffer := by
          rw [hfills.2.1]
          decide
        rw [CommitsOwn, committed, decodeCommit, if_pos (.inl hother)] at hm
        cases hm.1
      refine ⟨fun hor _ => hor.resolve_right fun ⟨m, hm, _⟩ => hnone m hm, fun hfill => .inl ?_⟩
      exact hfill hfills
    · have hcap : client.hasCap Cap.windowManager = false :=
        Client.hasCap_eq_false (h client (mem_of_handles hhandles) huid) rfl
      exact iff_of_true (paintMessage_of_not_fills hfills hcap i.2 s.pixels)
        fun hfills' => absurd hfills' hfills

end

/-- **Drawing past the scene.**  In a run from the start, no message of a client that is not root
changes a pixel other than by a repaint of the scene with a buffer that it commits to a surface of
its own, exactly when no such client fills the display buffer with a colour that it does not show
already. -/
theorem through_scene_iff (fb : FrontBuffer) (mode : Mode) (pixels : Nat → UInt8)
    (is : List (Move × Scene)) :
    Along (Screen.step fb mode) (Screen.ThroughScene fb mode) ⟨{}, pixels⟩ is ↔
      Along (Screen.step fb mode) (Screen.NoFill fb) ⟨{}, pixels⟩ is :=
  along_iff (I := fun s : Screen => CapsBound s.st) (H := fun _ _ => True)
    (fun s i h _ _ => h.move mode i.1) (fun _ i h _ => throughScene_iff_noFill h i)
    (fun c hc => by cases hc) (along_trivial _ _)

/-- A client of an ordinary user connects and asks for the capability to draw directly. -/
def userConnects : List Move :=
  [.accept 4 1000 true, .take 4 ⟨(greeting 4).encode, [], false⟩, .message 4 {}]

def userFills : List Move :=
  [.take 4 ⟨(Msg.mk MsgType.fillRect [255, 0, 0, 0]).encode, [], false⟩, .message 4 {}]

/-- Nobody has a surface, the one client is a user's, and every pixel of a black display of two
pixels turns red. -/
theorem any_client_fills :
    let scene : Scene := ⟨⟨0, 0⟩, fun _ _ => 0⟩
    let s := run (Screen.step ⟨⟨2, 1, 8⟩, 8⟩ ⟨1920, 1080⟩) ⟨{}, fun _ => 0⟩
      ((userConnects ++ userFills).map (·, scene))
    s.st.clients.list.map Client.uid = [1000] ∧ (∀ slot ∈ s.st.surfaceManager.slots, !slot.inUse) ∧
      (List.range 8).map s.pixels = [0, 0, 255, 0, 0, 0, 255, 0] := by
  decide +kernel

end Compositor
