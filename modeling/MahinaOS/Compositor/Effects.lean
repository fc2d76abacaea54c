import MahinaOS.Compositor.Server

/-!
# What a message does

Every message of a client goes through `handleClientMessage`.  What it can do to the clients, to the
surfaces and to the registration of the window manager is said here once, entry by entry:

* `ClientStep` for a client: only the sender's first `LGP_HELLO` changes capabilities, and it sets
  them to what the sender's user may have;
* `SlotStep` for a slot of the surface table: creating takes a free slot, destroying and committing
  take a surface of the sender, and only a window manager moves or hides one;
* `Change` for the whole state, with the frames written.

**`effect_handleClientMessage`** says that this is all a message does; whatever is proved about
sessions, ownership and buffers goes through it.  `Kept` packs what a read and a disconnect keep,
`inv_input` is the rule for an input event, and `inv_step` the rule for a turn of the event loop.
-/

namespace Compositor

open List Clients

/-- What a message of `client` can do to one slot. -/
inductive SlotStep (client : Client) : Surface → Surface → Prop
  | keep (s : Surface) : SlotStep client s s
  | create {s : Surface} {p : CreatePayload} (id : UInt32) (hfree : s.inUse = false)
      (hok : surfaceValidateRequest client p = .ok) :
      SlotStep client s (SurfaceManager.fill client p id s)
  | destroy {s : Surface} (huse : s.inUse = true)
      (howner : s.ownerSessionId = client.sessionId) : SlotStep client s Surface.released
  | commit {s : Surface} {p : CommitPayload} (map : Nat) (huse : s.inUse = true)
      (howner : s.ownerSessionId = client.sessionId)
      (hfits : SurfaceManager.commitFits p s = true) :
      SlotStep client s (SurfaceManager.attach p map s)
  | place {s : Surface} (x y : Int32) (huse : s.inUse = true)
      (hcap : client.hasCap Cap.windowManager = true) : SlotStep client s { s with x := x, y := y }
  | setState {s : Surface} (wmState : UInt32) (huse : s.inUse = true)
      (hcap : client.hasCap Cap.windowManager = true) :
      SlotStep client s { s with wmState := wmState }

/-- What a message of `client` can do to the client `c`. -/
structure ClientStep (client c c' : Client) : Prop where
  fd : c'.fd = c.fd
  uid : c'.uid = c.uid
  sessionId : c'.sessionId = c.sessionId
  /-- Capabilities are negotiated once, by the sender's `LGP_HELLO`. -/
  caps : c'.capsGranted = c.capsGranted ∧ c'.helloDone = c.helloDone ∨
    c.fd = client.fd ∧ c.helloDone = false ∧
      ∃ requested, c'.capsGranted = capsNegotiate c.uid requested

theorem ClientStep.refl (client c : Client) : ClientStep client c c :=
  ⟨rfl, rfl, rfl, .inl ⟨rfl, rfl⟩⟩

/-- What a message of `client` can do to the state, and taking its bytes and descriptors as well. -/
structure Change (client : Client) (st st' : State) : Prop where
  next : st'.nextSessionId = st.nextSessionId
  clients : Forall₂ (ClientStep client) st.clients.list st'.clients.list
  slots : Forall₂ (SlotStep client) st.surfaceManager.slots st'.surfaceManager.slots
  /-- Only the sender can become the window manager, as root and with the capability. -/
  wm : st'.wmClient = st.wmClient ∨ st'.wmClient = some client.fd ∧
    ∃ c ∈ st'.clients.list, c.fd = client.fd ∧ c.uid = 0 ∧ c.helloDone = true ∧
      c.hasCap Cap.windowManager = true
  /-- No input is sent. -/
  sent : ∀ w ∈ st'.sent, w ∈ st.sent ∨ w.msg.isInput = false

/-- What a message of `client` does; it leaves the bytes that are still to be handled alone. -/
structure Effect (client : Client) (st st' : State) : Prop extends Change client st st' where
  rxBuf : Forall₂ (fun c c' : Client => c'.rxBuf = c.rxBuf) st.clients.list st'.clients.list

section

variable {client : Client} {st st' : State}

theorem Change.refl (client : Client) (st : State) : Change client st st where
  next := rfl
  clients := forall₂_same.2 fun c _ => .refl client c
  slots := forall₂_same.2 fun s _ => .keep s
  wm := .inl rfl
  sent _ hw := .inl hw

theorem Effect.refl (client : Client) (st : State) : Effect client st st :=
  { Change.refl client st with rxBuf := forall₂_same.2 fun _ _ => rfl }

variable {fd : Nat} {f : Client → Client}

theorem Effect.write (h : Effect client st st') {msg : Msg} (hmsg : msg.isInput = false) :
    Effect client st (st'.write fd msg) :=
  { h with
    sent := fun w hw => by
      rcases mem_append.1 hw with hw | hw
      · exact h.sent w hw
      · rw [mem_singleton.1 hw]
        exact .inr hmsg }

theorem forall₂_modifyClient {R : Client → Client → Prop} (hrefl : ∀ c, R c c)
    (hf : ∀ c ∈ st.clients.list, c.fd = fd → R c { f c with fd := c.fd }) :
    Forall₂ R st.clients.list (st.modifyClient fd f).clients.list := by
  rw [State.modifyClient, Clients.modify, forall₂_map_right_iff, forall₂_same]
  intro c hc
  split
  · next hfd => exact hf c hc hfd
  · exact hrefl c

section

variable (hf : ∀ c ∈ st.clients.list, c.fd = fd → ClientStep client c { f c with fd := c.fd })

include hf

theorem Change.modifyClient : Change client st (st.modifyClient fd f) :=
  { Change.refl client st with
    clients := forall₂_modifyClient (.refl client) hf
    wm := .inl rfl }

theorem Effect.modifyClient
    (hbuf : ∀ c, (f c).rxBuf = c.rxBuf) : Effect client st (st.modifyClient fd f) :=
  { Change.modifyClient hf with
    rxBuf := forall₂_modifyClient (R := fun c c' => c'.rxBuf = c.rxBuf) (fun _ => rfl)
      fun c _ _ => hbuf c }

end

theorem Effect.modifySlot {p : Surface → Bool} {f : Surface → Surface}
    (hf : ∀ s, st.surfaceManager.slots.find? p = some s → SlotStep client s (f s)) :
    Effect client st { st with surfaceManager := st.surfaceManager.modify p f } :=
  { Effect.refl client st with slots := ListUpdate.forall₂_modifyFirst .keep hf }

theorem inUse_of_find {surfaceId : UInt32} {s : Surface}
    (h : st.surfaceManager.find surfaceId = some s) : s.inUse = true := by
  have hid := find?_some h
  rw [Surface.hasId, Bool.and_eq_true] at hid
  exact hid.1

theorem effect_ite {p : Prop} [Decidable p] {a b : State × Bool} (ha : p → Effect client st a.1)
    (hb : ¬p → Effect client st b.1) : Effect client st (if p then a else b).1 := by
  split
  · next h => exact ha h
  · next h => exact hb h

end

/-! ## Greeting -/

section Hello

variable {mode : Mode} {env : MsgEnv} {st : State} {client : Client} {msg : Msg}

/-- The state after a client has been granted capabilities. -/
def State.granted (st : State) (client : Client) (caps : UInt32) (done : Bool) : State :=
  (st.modifyClient client.fd fun c =>
    { c with capsGranted := caps, helloDone := if done then true else c.helloDone }).write client.fd
      (encodeHelloReply caps)

/-- A greeting is refused, or the capabilities are granted; then the reply may still fail. -/
theorem helloHandle_cases (env : MsgEnv) (st : State) (client : Client) (msg : Msg) :
    helloHandle env st client msg = (st, false) ∨
      ∃ requested done, requested = readU32Le msg.payload 4 ∧ helloHandle env st client msg =
        (st.granted client (capsNegotiate client.uid requested) done, done) := by
  rw [helloHandle]
  split
  · exact .inl rfl
  · split
    · exact .inl rfl
    · right
      refine ⟨readU32Le msg.payload 4, ?_⟩
      dsimp only
      split
      · exact ⟨false, rfl, rfl⟩
      · refine ⟨true, rfl, ?_⟩
        rw [State.modifyClient, State.write, State.modifyClient]
        rw [modify_modify]
        rfl

theorem effect_granted (hclient : client ∈ st.clients.list) (hdone : client.helloDone = false)
    (requested : UInt32) (done : Bool) :
    Effect client st (st.granted client (capsNegotiate client.uid requested) done) := by
  refine .write ?_ rfl
  refine .modifyClient (fun c hc hfd => ?_) fun _ => rfl
  obtain rfl := eq_of_fd hc hclient hfd
  exact ⟨rfl, rfl, rfl, .inr ⟨rfl, hdone, requested, rfl⟩⟩

/-- What any user may be granted. -/
def Cap.unprivileged : UInt32 := Cap.canvasSurface ||| Cap.directLgp ||| Cap.clipboard

/-- Users other than root are granted nothing else. -/
theorem capsNegotiate_unprivileged {uid : UInt32} (huid : uid ≠ 0) (requested : UInt32) :
    capsNegotiate uid requested &&& Cap.unprivileged = capsNegotiate uid requested := by
  rw [capsNegotiate, if_neg huid]
  have hgrant : ∀ cap, grant requested cap = cap ∨ grant requested cap = 0 := fun cap => by
    rw [grant]
    split
    · exact .inl rfl
    · exact .inr rfl
  rcases hgrant Cap.canvasSurface with h1 | h1 <;> rcases hgrant Cap.directLgp with h2 | h2 <;>
    rcases hgrant Cap.clipboard with h3 | h3 <;> rw [h1, h2, h3] <;> decide

/-- No message gives a client that is not root anything else. -/
theorem ClientStep.unprivileged {client c c' : Client} (h : ClientStep client c c')
    (hc : c.uid ≠ 0 → c.capsGranted &&& Cap.unprivileged = c.capsGranted) (huid : c'.uid ≠ 0) :
    c'.capsGranted &&& Cap.unprivileged = c'.capsGranted := by
  rw [h.uid] at huid
  rcases h.caps with ⟨hsame, -⟩ | ⟨-, -, requested, hcaps⟩
  · rw [hsame]
    exact hc huid
  · rw [hcaps]
    exact capsNegotiate_unprivileged huid requested

theorem Client.hasCap_eq_false {c : Client}
    (hc : c.capsGranted &&& Cap.unprivileged = c.capsGranted) {cap : UInt32}
    (hcap : Cap.unprivileged &&& cap = 0) : c.hasCap cap = false := by
  rw [Client.hasCap, ← hc, UInt32.and_assoc, hcap, UInt32.and_zero]
  rfl

/-- Only root is granted the capability of a window manager. -/
theorem uid_of_windowManager {uid requested : UInt32}
    (h : capsNegotiate uid requested &&& Cap.windowManager ≠ 0) : uid = 0 := by
  by_contra huid
  refine h ?_
  rw [← capsNegotiate_unprivileged huid requested, UInt32.and_assoc]
  exact UInt32.and_zero

theorem find_granted (hclient : client ∈ st.clients.list) (caps : UInt32) :
    (st.granted client caps true).clients.find client.fd =
      some { client with capsGranted := caps, helloDone := true } :=
  find_modify (find_eq_some.2 ⟨hclient, rfl⟩) _

theorem registerWm_granted (hclient : client ∈ st.clients.list) (requested : UInt32) :
    registerWm (st.granted client (capsNegotiate client.uid requested) true) client.fd =
      if capsNegotiate client.uid requested &&& Cap.windowManager ≠ 0 then
        { st.granted client (capsNegotiate client.uid requested) true with
          wmClient := some client.fd }
      else st.granted client (capsNegotiate client.uid requested) true := by
  rw [registerWm, find_granted hclient]
  simp only [Client.hasCap, decide_eq_true_eq]
  split
  · next hcap => rw [if_neg (not_not.2 (uid_of_windowManager hcap))]
  · rfl

theorem effect_handleHello (hclient : client ∈ st.clients.list)
    (hdone : client.helloDone = false) :
    Effect client st (handleHello mode env st client msg).1 := by
  rw [handleHello]
  rcases helloHandle_cases env st client msg with heq | ⟨requested, done, -, heq⟩
  · rw [heq]
    exact .refl client st
  · rw [heq]
    have hgranted := effect_granted hclient hdone requested done
    rcases done with - | -
    · exact hgranted
    · refine .write ?_ rfl
      rw [registerWm_granted hclient]
      split
      · next hcap =>
        have hmem := (find_eq_some.1 (find_granted hclient (capsNegotiate client.uid requested))).1
        refine { hgranted with wm := .inr ⟨rfl, ?_⟩ }
        exact ⟨_, hmem, rfl, uid_of_windowManager hcap, rfl, decide_eq_true hcap⟩
      · exact hgranted

end Hello

/-! ## Every message -/

section Messages

variable {mode : Mode} {env : MsgEnv} {st st' : State} {client : Client} {msg : Msg}

theorem Effect.notifyWm (h : Effect client st st') (hmsg : msg.isInput = false) :
    Effect client st (notifyWm st' client msg) := by
  rw [Compositor.notifyWm]
  split
  · split
    · exact h.write hmsg
    · exact h
  · exact h

theorem Effect.autoFocus (h : Effect client st st') (layer surfaceId : UInt32) :
    Effect client st (autoFocus st' client layer surfaceId) := by
  rw [Compositor.autoFocus]
  split
  · exact { h with }
  · exact h

theorem effect_create (client : Client) (st : State) (p : CreatePayload) :
    Effect client st { st with surfaceManager := (st.surfaceManager.create client p).1 } := by
  rw [SurfaceManager.create]
  split
  · exact .refl client st
  · next hok =>
    split
    · exact .refl client st
    · refine { Effect.refl client st with slots := ListUpdate.forall₂_modifyFirst .keep ?_ }
      intro s hs
      exact .create _ (by simpa using find?_some hs) (not_not.1 hok)

theorem effect_handleCreateSurface :
    Effect client st (handleCreateSurface env st client msg).1 := by
  rw [handleCreateSurface]
  split
  · exact .refl client st
  · next p _ =>
    have hreply : Effect client st ({ st with
        surfaceManager := (st.surfaceManager.create client p).1 }.write client.fd (encodeCreateReply
          (st.surfaceManager.create client p).2.1.code (st.surfaceManager.create client p).2.2)) :=
      (effect_create client st p).write rfl
    dsimp only
    split
    · exact hreply
    · split
      · exact hreply
      · exact (hreply.autoFocus _ _).notifyWm rfl

theorem effect_handleDestroySurface : Effect client st (handleDestroySurface st client msg).1 := by
  rw [handleDestroySurface]
  split
  · exact .refl client st
  · next surfaceId _ =>
    have hdestroy : Effect client st
        { st with surfaceManager := (st.surfaceManager.destroy client surfaceId).1 } := by
      rw [SurfaceManager.destroy]
      split
      · exact .refl client st
      · next surface hfind =>
        split
        · exact .refl client st
        · next howner =>
          refine .modifySlot fun s hs => ?_
          obtain rfl := Option.some.inj (hfind.symm.trans hs)
          exact .destroy (inUse_of_find hfind) (not_not.1 howner)
    dsimp only
    split
    · exact hdestroy
    · exact hdestroy.notifyWm rfl

theorem effect_handleCommitBuffer : Effect client st (handleCommitBuffer env st client msg).1 := by
  rw [handleCommitBuffer]
  split
  · exact .refl client st
  · next p _ =>
    have htake : Effect client st (st.modifyClient client.fd fun c => (takeFd c).2) :=
      .modifyClient (fun _ _ _ => ⟨rfl, rfl, rfl, .inl ⟨rfl, rfl⟩⟩) fun _ => rfl
    have hcommit : Forall₂ (SlotStep client) st.surfaceManager.slots
        (st.surfaceManager.commit client p (takeFd client).1 env.mmap).1.slots := by
      have hsame := (Effect.refl client st).slots
      rw [SurfaceManager.commit.eq_def]
      split
      · exact hsame
      · split
        · exact hsame
        · next surface hfind =>
          split
          · exact hsame
          · next howner =>
            split
            · exact hsame
            · next hfits =>
              split
              · exact hsame
              · refine ListUpdate.forall₂_modifyFirst .keep fun s hs => ?_
                obtain rfl := Option.some.inj (hfind.symm.trans hs)
                exact .commit _ (inUse_of_find hfind) (not_not.1 howner) (by simpa using hfits)
    dsimp only
    split
    · exact { htake with slots := hcommit, wm := .inl rfl }
    · exact { htake with slots := hcommit, wm := .inl rfl }

theorem effect_handleClipboardSet : Effect client st (handleClipboardSet st client msg).1 := by
  rw [handleClipboardSet]
  split
  · exact .refl client st
  · exact { Effect.refl client st with }

theorem effect_handleClipboardGet : Effect client st (handleClipboardGet st client).1 := by
  rw [handleClipboardGet]
  split
  · exact .refl client st
  · exact (Effect.refl client st).write rfl

theorem effect_handleWmSetPosition :
    Effect client st (handleWmSetPosition mode env st client msg).1 := by
  rw [handleWmSetPosition]
  split
  · exact .refl client st
  · next hcap =>
    split
    · exact .refl client st
    · split
      · exact .refl client st
      · next hfind =>
        split
        · exact .refl client st
        · refine .modifySlot fun s hs => ?_
          obtain rfl := Option.some.inj (hfind.symm.trans hs)
          exact .place _ _ (inUse_of_find hfind) (by simpa using hcap)

theorem effect_handleWmSetFocus : Effect client st (handleWmSetFocus st client msg).1 := by
  rw [handleWmSetFocus]
  repeat' split
  all_goals exact { Effect.refl client st with }

theorem effect_handleWmSetState : Effect client st (handleWmSetState env st client msg).1 := by
  rw [handleWmSetState]
  split
  · exact .refl client st
  · next hcap =>
    split
    · exact .refl client st
    · refine .modifySlot fun s hs => ?_
      exact .setState _ (inUse_of_find hs) (by simpa using hcap)

theorem effect_handleWmGrabKey : Effect client st (handleWmGrabKey st client msg).1 := by
  rw [handleWmGrabKey]
  repeat' split
  all_goals exact { Effect.refl client st with }

theorem effect_handleFillRect : Effect client st (handleFillRect env st client msg).1 := by
  rw [handleFillRect]
  repeat' split
  all_goals exact .refl client st

/-- **One message, whatever it is.** -/
theorem effect_handleClientMessage (hclient : client ∈ st.clients.list) :
    Effect client st (handleClientMessage mode env st client msg).1 := by
  refine effect_ite (fun _ => .refl client st) fun _ => ?_
  refine effect_ite (fun _ => .refl client st) fun hdone => ?_
  refine effect_ite (fun hhello => ?_) fun _ => ?_
  · refine effect_handleHello hclient ?_
    simpa [hhello] using hdone
  refine effect_ite (fun _ => effect_handleFillRect) fun _ => ?_
  refine effect_ite (fun _ => effect_handleCreateSurface) fun _ => ?_
  refine effect_ite (fun _ => effect_handleDestroySurface) fun _ => ?_
  refine effect_ite (fun _ => effect_handleCommitBuffer) fun _ => ?_
  refine effect_ite (fun _ => effect_handleClipboardSet) fun _ => ?_
  refine effect_ite (fun _ => effect_handleClipboardGet) fun _ => ?_
  refine effect_ite (fun _ => effect_handleWmSetPosition) fun _ => ?_
  refine effect_ite (fun _ => effect_handleWmSetFocus) fun _ => ?_
  refine effect_ite (fun _ => effect_handleWmSetState) fun _ => ?_
  exact effect_ite (fun _ => effect_handleWmGrabKey) fun _ => .refl client st

/-- The clients, the window manager and its grabs stay. -/
structure Calm (st st' : State) : Prop where
  clients : st'.clients = st.clients
  wmClient : st'.wmClient = st.wmClient
  grabbedKeys : st'.grabbedKeys = st.grabbedKeys

/-- Who handles a message.  Only greetings, commits and grabs are not calm. -/
inductive Handled (mode : Mode) (env : MsgEnv) (st : State) (client : Client) (msg : Msg) :
    State × Bool → Prop
  | refused : Handled mode env st client msg (st, false)
  | hello (htype : msg.type = MsgType.hello) :
    Handled mode env st client msg (handleHello mode env st client msg)
  | commit (hdone : client.helloDone = true) (htype : msg.type = MsgType.commitBuffer) :
    Handled mode env st client msg (handleCommitBuffer env st client msg)
  | grab (htype : msg.type = MsgType.wmGrabKey) :
    Handled mode env st client msg (handleWmGrabKey st client msg)
  | other {r : State × Bool} {type : UInt16} (htype : msg.type = type)
    (hhello : type ≠ MsgType.hello) (hgrab : type ≠ MsgType.wmGrabKey) (hcalm : Calm st r.1) :
    Handled mode env st client msg r

theorem handled_handleClientMessage (mode : Mode) (env : MsgEnv) (st : State) (client : Client)
    (msg : Msg) : Handled mode env st client msg (handleClientMessage mode env st client msg) := by
  refine iteInduction (fun _ => .refused) fun hdone => ?_
  refine iteInduction (fun _ => .refused) fun _ => ?_
  refine iteInduction .hello fun hhello => ?_
  refine iteInduction (fun h => .other h (by decide) (by decide) ?_) fun _ => ?_
  · rw [handleFillRect]
    repeat' split
    all_goals exact ⟨rfl, rfl, rfl⟩
  refine iteInduction (fun h => .other h (by decide) (by decide) ?_) fun _ => ?_
  · simp only [handleCreateSurface, notifyWm, autoFocus]
    repeat' split
    all_goals exact ⟨rfl, rfl, rfl⟩
  refine iteInduction (fun h => .other h (by decide) (by decide) ?_) fun _ => ?_
  · simp only [handleDestroySurface, notifyWm]
    repeat' split
    all_goals exact ⟨rfl, rfl, rfl⟩
  refine iteInduction (.commit (by simpa [hhello] using hdone)) fun _ => ?_
  refine iteInduction (fun h => .other h (by decide) (by decide) ?_) fun _ => ?_
  · rw [handleClipboardSet]
    repeat' split
    all_goals exact ⟨rfl, rfl, rfl⟩
  refine iteInduction (fun h => .other h (by decide) (by decide) ?_) fun _ => ?_
  · rw [handleClipboardGet]
    repeat' split
    all_goals exact ⟨rfl, rfl, rfl⟩
  refine iteInduction (fun h => .other h (by decide) (by decide) ?_) fun _ => ?_
  · rw [handleWmSetPosition]
    repeat' split
    all_goals exact ⟨rfl, rfl, rfl⟩
  refine iteInduction (fun h => .other h (by decide) (by decide) ?_) fun _ => ?_
  · rw [handleWmSetFocus]
    repeat' split
    all_goals exact ⟨rfl, rfl, rfl⟩
  refine iteInduction (fun h => .other h (by decide) (by decide) ?_) fun _ => ?_
  · rw [handleWmSetState]
    repeat' split
    all_goals exact ⟨rfl, rfl, rfl⟩
  exact iteInduction .grab fun _ => .refused

end Messages

/-! ## Turns of the event loop -/

/-- Everything a turn is made of keeps `I`, apart from accepting a client and passing input on:
what a client's messages change, and closing a client. -/
structure Kept (I : State → Prop) : Prop where
  change : ∀ {st st' : State} {client : Client},
    client ∈ st.clients.list → Change client st st' → I st → I st'
  close : ∀ {st : State} (fd : Nat), I st → I (closeFd st fd)

section Turns

variable {mode : Mode} {I : State → Prop} {st : State} {client : Client}

/-- Taking the bytes and the descriptors of a client. -/
theorem Kept.buffers (h : Kept I) (hclient : client ∈ st.clients.list) (fd : Nat)
    (rxBuf : Client → Bytes) (pendingFds : Client → List Nat) (hI : I st) :
    I (st.modifyClient fd fun c => { c with rxBuf := rxBuf c, pendingFds := pendingFds c }) :=
  h.change hclient (.modifyClient fun _ _ _ => ⟨rfl, rfl, rfl, .inl ⟨rfl, rfl⟩⟩) hI

theorem readAvailable_eq {client' : Client} {r : Received}
    (hread : readAvailable client r = some client') :
    rxBufferSize - client.rxBuf.length ≠ 0 ∧
      client' = { client with
        rxBuf := client.rxBuf ++ r.bytes.take (rxBufferSize - client.rxBuf.length)
        pendingFds := client.pendingFds ++ r.fds } := by
  rw [readAvailable] at hread
  split at hread
  · cases hread
  · next hroom =>
    split at hread
    · cases hread
    · split at hread
      · cases hread
      · cases hread
        exact ⟨hroom, rfl⟩

/-- Closing the window manager clears its registration. -/
theorem wmClient_closeClient {fd : Nat} (h : (closeClient st client).wmClient = some fd) :
    fd ≠ client.fd ∧ st.wmClient = some fd := by
  rw [closeClient] at h
  split at h
  · cases h
  · next hne => exact ⟨fun heq => hne (heq ▸ h), h⟩

/-- The input events. -/
def Event.isInput : Event → Bool
  | .key _ _ _ => true
  | .motion _ _ => true
  | .button _ _ _ _ => true
  | _ => false

/-- What passing input on can change. -/
theorem sendToSession_eq (st : State) (sessionId : UInt32) (msg : Msg) :
    ∃ sent, st.sendToSession sessionId msg = { st with sent := sent } := by
  rw [State.sendToSession]
  split
  · exact ⟨_, rfl⟩
  · exact ⟨st.sent, rfl⟩

theorem sendToWm_eq (st : State) (msg : Msg) :
    ∃ sent, st.sendToWm msg = { st with sent := sent } := by
  rw [State.sendToWm]
  split
  · exact sendToSession_eq st _ msg
  · exact ⟨st.sent, rfl⟩

theorem clients_sendToWm (st : State) (msg : Msg) : (st.sendToWm msg).clients = st.clients := by
  obtain ⟨sent, heq⟩ := sendToWm_eq st msg
  rw [heq]

section

variable (hfocus : ∀ {st : State} (sent : List Sent) (session surface : UInt32), I st →
  I { st with sent := sent, keyboardFocusSessionId := session, keyboardFocusSurfaceId := surface })

include hfocus

/-- An input event changes the keyboard focus at most, and what was sent. -/
theorem inv_input (hI : I st) :
    (∀ key keyState modifiers, I (dispatchKeyboardKey st key keyState modifiers)) ∧
      (∀ x y, I (dispatchPointerMotion st x y)) ∧
      ∀ x y button pressed, I (dispatchPointerButton st x y button pressed) := by
  have hsend : ∀ {st : State} (session : UInt32) (msg : Msg), I st →
      I (st.sendToSession session msg) := fun session msg hI => by
    obtain ⟨sent, heq⟩ := sendToSession_eq _ session msg
    rw [heq]
    exact hfocus sent _ _ hI
  have hwm : ∀ msg : Msg, I (st.sendToWm msg) := fun msg => by
    obtain ⟨sent, heq⟩ := sendToWm_eq st msg
    rw [heq]
    exact hfocus sent _ _ hI
  refine ⟨fun key keyState modifiers => ?_, fun x y => ?_, fun x y button pressed => ?_⟩
  · rw [dispatchKeyboardKey]
    split
    · exact hwm _
    · exact hsend _ _ hI
  · rw [dispatchPointerMotion]
    split
    · exact hsend _ _ (hwm _)
    · exact hwm _
  · rw [dispatchPointerButton]
    split
    · refine hsend _ _ ?_
      split
      · exact hfocus _ _ _ (hwm _)
      · exact hwm _
    · exact hwm _

/-- **The rule for a turn.**  A property that does not depend on what was sent or on the keyboard
focus is kept by a turn of the event loop if accepting, reading and closing a client keep it. -/
theorem inv_step {e : Event}
    (haccept : ∀ fd uid watched, e = .accept fd uid watched → I { st with sent := [] } →
      I (accept { st with sent := [] } fd uid watched))
    (hread : ∀ fd r env, I { st with sent := [] } →
      I (readClient mode env { st with sent := [] } fd r))
    (hclose : ∀ fd, I { st with sent := [] } → I (closeFd { st with sent := [] } fd))
    (hI : I st) : I (step mode st e) := by
  have hclear : I { st with sent := [] } := hfocus [] _ _ hI
  obtain ⟨hkey, hmotion, hbutton⟩ := inv_input hfocus hclear
  cases e with
  | accept fd uid watched => exact haccept fd uid watched rfl hclear
  | read fd r env => exact hread fd r env hclear
  | hangup fd => exact hclose fd hclear
  | key key keyState modifiers => exact hkey key keyState modifiers
  | motion x y => exact hmotion x y
  | button x y button pressed => exact hbutton x y button pressed

end

end Turns

end Compositor
