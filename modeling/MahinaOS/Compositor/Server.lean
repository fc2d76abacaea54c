import MahinaOS.Compositor.Surface

/-!
# The compositor as a server

`lgp-compositor/main.c` is one event loop.  It accepts clients, reads what they send and handles
each complete message, drops a client whose message is refused, and passes keyboard and pointer
events on.

* `handleClientMessage` is the dispatch over message types, `processMessages` the loop over the
  frames in a client's buffer, and `step` one turn of the event loop.
* `dispatchKeyboardKey`, `dispatchPointerMotion` and `dispatchPointerButton` pass input on.

What the kernel decides about a message (does a reply go out, does `mmap` work, can the scene be
repainted) is in `MsgEnv`.  `State.sent` lists the frames that the current turn has handed to
`lgp_write_all`, with the descriptor they were written to.
-/

namespace Compositor

structure Mode where
  hdisplay : UInt16
  vdisplay : UInt16

structure Sent where
  fd : Nat
  msg : Msg
  deriving DecidableEq, Repr

def grabbedKeysMax : Nat := 128

def clipboardSize : Nat := 4096

/-- `lgp_compositor_state_t`.  The registered window manager is known by its descriptor. -/
structure State where
  nextSessionId : UInt32 := 1
  clients : Clients := .empty
  surfaceManager : SurfaceManager := .init
  keyboardFocusSessionId : UInt32 := 0
  keyboardFocusSurfaceId : UInt32 := 0
  globalClipboard : Bytes := []
  grabbedKeys : List (UInt32 × UInt32) := []
  wmClient : Option Nat := none
  sent : List Sent := []

/-- What the kernel decides while a message is handled. -/
structure MsgEnv where
  replyOk : Bool := true
  mmap : Nat → Option Nat := fun _ => some 0
  repaintOk : Bool := true

namespace State

/-- `lgp_write_all`. -/
def write (st : State) (fd : Nat) (msg : Msg) : State := { st with sent := st.sent ++ [⟨fd, msg⟩] }

def modifyClient (st : State) (fd : Nat) (f : Client → Client) : State :=
  { st with clients := st.clients.modify fd f }

/-- The session of the registered window manager. -/
def wmSessionId (st : State) : Option UInt32 :=
  (st.wmClient.bind st.clients.find).map Client.sessionId

/-- The send functions walk the list of clients to the first with the session id. -/
def clientOfSession (st : State) (sessionId : UInt32) : Option Client :=
  if sessionId = 0 then none else st.clients.list.find? (·.sessionId = sessionId)

/-- `lgp_send_pointer_motion_to_session`, `lgp_send_pointer_button_to_session` and the end of
`lgp_dispatch_keyboard_key`. -/
def sendToSession (st : State) (sessionId : UInt32) (msg : Msg) : State :=
  match st.clientOfSession sessionId with
  | some client => st.write client.fd msg
  | none => st

/-- The same for the session of the window manager, if one is registered. -/
def sendToWm (st : State) (msg : Msg) : State :=
  match st.wmSessionId with
  | some sessionId => st.sendToSession sessionId msg
  | none => st

end State

/-! ## Input -/

/-- The surface is shown in the application range and is not the window manager's. -/
def Surface.takesPointer (wmSessionId : Option UInt32) (s : Surface) : Bool :=
  s.inUse && wmSessionId != some s.ownerSessionId && s.layer ≥ Layer.application &&
    s.layer < Layer.shell && s.wmState != WmState.hidden && s.wmState != WmState.minimized

/-- The point is on the surface; the sums are those of 32-bit integers. -/
def Surface.contains (x y : Int32) (s : Surface) : Bool :=
  x ≥ s.x && x < s.x + s.width.toInt32 && y ≥ s.y && y < s.y + s.height.toInt32

/-- The better of two targets: the later one has to be on a higher layer. -/
def higher (target : Option Surface) (s : Surface) : Option Surface :=
  match target with
  | none => some s
  | some t => if s.layer > t.layer then some s else target

/-- `lgp_find_pointer_target`. -/
def findPointerTarget (st : State) (x y : Int32) : Option Surface :=
  (st.surfaceManager.slots.filter fun s => s.takesPointer st.wmSessionId && s.contains x y).foldl
    higher none

/-- `lgp_dispatch_pointer_motion`. -/
def dispatchPointerMotion (st : State) (x y : Int32) : State :=
  let st := st.sendToWm (encodePointerMotion x y)
  match findPointerTarget st x y with
  | some target =>
    st.sendToSession target.ownerSessionId (encodePointerMotion (x - target.x) (y - target.y))
  | none => st

/-- `lgp_dispatch_pointer_button`. -/
def dispatchPointerButton (st : State) (x y : Int32) (button : UInt8) (pressed : Bool) : State :=
  let st := st.sendToWm (encodePointerButton button pressed)
  match findPointerTarget st x y with
  | some target =>
    let st :=
      if pressed then
        { st with
          keyboardFocusSessionId := target.ownerSessionId
          keyboardFocusSurfaceId := target.id }
      else st
    st.sendToSession target.ownerSessionId (encodePointerButton button pressed)
  | none => st

/-- The window manager has grabbed the key with these modifiers. -/
def Grabbed (st : State) (key modifiers : UInt32) : Prop :=
  st.wmClient.isSome ∧ (key, modifiers) ∈ st.grabbedKeys

instance (st : State) (key modifiers : UInt32) : Decidable (Grabbed st key modifiers) :=
  inferInstanceAs (Decidable (_ ∧ _))

/-- `lgp_dispatch_keyboard_key`. -/
def dispatchKeyboardKey (st : State) (key keyState modifiers : UInt32) : State :=
  let msg := encodeKeyboardKey key keyState modifiers
  if Grabbed st key modifiers then st.sendToWm msg
  else st.sendToSession st.keyboardFocusSessionId msg

/-! ## Messages -/

section

variable (mode : Mode) (env : MsgEnv) (st : State) (client : Client) (msg : Msg)

/-- `lgp_hello_handle`. -/
def helloHandle : State × Bool :=
  if msg.payload.length < 8 then (st, false)
  else if readU16Le msg.payload 0 ≠ versionMajor then (st, false)
  else
    let caps := capsNegotiate client.uid (readU32Le msg.payload 4)
    let st := (st.modifyClient client.fd fun c => { c with capsGranted := caps }).write client.fd
      (encodeHelloReply caps)
    if !env.replyOk then (st, false)
    else (st.modifyClient client.fd fun c => { c with helloDone := true }, true)

/-- Registering a window manager after `LGP_HELLO`. -/
def registerWm (fd : Nat) : State :=
  match st.clients.find fd with
  | none => st
  | some client =>
    if client.hasCap Cap.windowManager then
      if client.uid ≠ 0 then
        st.modifyClient fd fun c => { c with capsGranted := c.capsGranted &&& ~~~Cap.windowManager }
      else { st with wmClient := some fd }
    else st

/-- `LGP_HELLO` in `lgp_handle_client_message`. -/
def handleHello : State × Bool :=
  match helloHandle env st client msg with
  | (st, false) => (st, false)
  | (st, true) =>
    ((registerWm st client.fd).write client.fd
      (encodeOutputGeometry mode.hdisplay.toUInt32 mode.vdisplay.toUInt32), true)

/-- `lgp_handle_fill_rect`; the pixels are not part of the state. -/
def handleFillRect : State × Bool :=
  if !client.hasCap Cap.directLgp then (st, false)
  else if msg.payload.length < 4 then (st, false)
  else (st, env.repaintOk)

/-- A message for the window manager about a surface of another client. -/
def notifyWm : State :=
  match st.wmClient with
  | some wm => if wm ≠ client.fd then st.write wm msg else st
  | none => st

/-- A new window in the application layer takes the keyboard focus. -/
def autoFocus (layer surfaceId : UInt32) : State :=
  if layer = Layer.application then
    { st with keyboardFocusSessionId := client.sessionId, keyboardFocusSurfaceId := surfaceId }
  else st

/-- `lgp_handle_create_surface`. -/
def handleCreateSurface : State × Bool :=
  match decodeCreate msg with
  | none => (st, false)
  | some p =>
    let (manager, status, surfaceId) := st.surfaceManager.create client p
    let st := { st with surfaceManager := manager }.write client.fd
      (encodeCreateReply status.code surfaceId)
    if !env.replyOk then (st, false)
    else if status ≠ .ok then (st, true)
    else
      (notifyWm (autoFocus st client p.layer surfaceId) client
        (encodeSurfaceCreated surfaceId p.surfaceType p.width p.height), true)

/-- `lgp_handle_destroy_surface`. -/
def handleDestroySurface : State × Bool :=
  match decodeDestroy msg with
  | none => (st, false)
  | some surfaceId =>
    let (manager, status) := st.surfaceManager.destroy client surfaceId
    let st := { st with surfaceManager := manager }
    if status ≠ .ok then (st, false)
    else (notifyWm st client (encodeSurfaceDestroyed surfaceId), true)

/-- `lgp_client_take_fd`: the oldest descriptor in the queue, if there is one, leaves it. -/
def takeFd (client : Client) : Option Nat × Client :=
  (client.pendingFds.head?, { client with pendingFds := client.pendingFds.tail })

/-- `lgp_handle_commit_buffer`. -/
def handleCommitBuffer : State × Bool :=
  match decodeCommit msg with
  | none => (st, false)
  | some p =>
    let st := st.modifyClient client.fd fun c => (takeFd c).2
    let (manager, status) := st.surfaceManager.commit client p (takeFd client).1 env.mmap
    let st := { st with surfaceManager := manager }
    if status ≠ .ok then (st, false) else (st, env.repaintOk)

/-- The clipboard, up to its first NUL, is what `strlen` sees. -/
def handleClipboardSet : State × Bool :=
  if !client.hasCap Cap.clipboard then (st, false)
  else ({ st with globalClipboard := msg.payload.take (clipboardSize - 1) }, true)

def handleClipboardGet : State × Bool :=
  if !client.hasCap Cap.clipboard then (st, false)
  else (st.write client.fd (encodeClipboardData (st.globalClipboard.takeWhile (· != 0))), true)

/-- The new place of a surface is refused if it leaves the display. -/
def outOfBounds (p : SetPositionPayload) (s : Surface) : Bool :=
  p.x < -s.width.toInt32 || p.x + s.width.toInt32 > mode.hdisplay.toUInt32.toInt32 ||
    p.y < -s.height.toInt32 || p.y + s.height.toInt32 > mode.vdisplay.toUInt32.toInt32

/-- A change of the window manager to the surface with an id. -/
def State.modifySurface (st : State) (surfaceId : UInt32) (f : Surface → Surface) : State :=
  { st with surfaceManager := st.surfaceManager.modify (Surface.hasId surfaceId) f }

/-- `lgp_handle_wm_set_position`. -/
def handleWmSetPosition : State × Bool :=
  if !client.hasCap Cap.windowManager then (st, false)
  else
    match decodeSetPosition msg with
    | none => (st, false)
    | some p =>
      match st.surfaceManager.find p.surfaceId with
      | none => (st, true)
      | some surface =>
        if outOfBounds mode p surface then (st, true)
        else (st.modifySurface p.surfaceId fun s => { s with x := p.x, y := p.y }, env.repaintOk)

/-- `lgp_handle_wm_set_focus`. -/
def handleWmSetFocus : State × Bool :=
  if !client.hasCap Cap.windowManager then (st, false)
  else
    match decodeSetFocus msg with
    | none => (st, false)
    | some surfaceId =>
      if surfaceId = 0 then
        ({ st with keyboardFocusSessionId := 0, keyboardFocusSurfaceId := 0 }, true)
      else
        match st.surfaceManager.find surfaceId with
        | some surface =>
          ({ st with
            keyboardFocusSessionId := surface.ownerSessionId
            keyboardFocusSurfaceId := surface.id }, true)
        | none => (st, false)

/-- `lgp_handle_wm_set_state`. -/
def handleWmSetState : State × Bool :=
  if !client.hasCap Cap.windowManager then (st, false)
  else
    match decodeSetState msg with
    | none => (st, false)
    | some (surfaceId, wmState) =>
      (st.modifySurface surfaceId fun s => { s with wmState := wmState }, env.repaintOk)

/-- `lgp_handle_wm_grab_key`. -/
def handleWmGrabKey : State × Bool :=
  if !client.hasCap Cap.windowManager then (st, false)
  else
    match decodeGrabKey msg with
    | none => (st, false)
    | some grab =>
      if st.grabbedKeys.length < grabbedKeysMax then
        ({ st with grabbedKeys := st.grabbedKeys ++ [grab] }, true)
      else (st, true)

/-- `lgp_handle_client_message`; the result tells whether the client stays. -/
def handleClientMessage : State × Bool :=
  if !client.helloDone && msg.type != MsgType.hello then (st, false)
  else if client.helloDone && msg.type == MsgType.hello then (st, false)
  else if msg.type = MsgType.hello then handleHello mode env st client msg
  else if msg.type = MsgType.fillRect then handleFillRect env st client msg
  else if msg.type = MsgType.createSurface then handleCreateSurface env st client msg
  else if msg.type = MsgType.destroySurface then handleDestroySurface st client msg
  else if msg.type = MsgType.commitBuffer then handleCommitBuffer env st client msg
  else if msg.type = MsgType.clipboardSet then handleClipboardSet st client msg
  else if msg.type = MsgType.clipboardGet then handleClipboardGet st client
  else if msg.type = MsgType.wmSetSurfacePosition then handleWmSetPosition mode env st client msg
  else if msg.type = MsgType.wmSetFocus then handleWmSetFocus st client msg
  else if msg.type = MsgType.wmSetState then handleWmSetState env st client msg
  else if msg.type = MsgType.wmGrabKey then handleWmGrabKey st client msg
  else (st, false)

end

/-! ## Reading and closing -/

/-- The loop of `lgp_client_process_messages`.  A frame has at least six bytes, so a buffer never
holds more frames than bytes, and its length is enough fuel. -/
def processMessages (mode : Mode) (fd : Nat) : Nat → (Nat → MsgEnv) → State → State × Bool
  | 0, _, st => (st, true)
  | fuel + 1, env, st =>
    match st.clients.find fd with
    | none => (st, true)
    | some client =>
      match tlvPeekHeader client.rxBuf with
      | none => (st, true)
      | some (_, length) =>
        if length.toNat < headerSize ∨ length.toNat > rxBufferSize then (st, false)
        else if client.rxBuf.length < length.toNat then (st, true)
        else
          match tlvDecode (client.rxBuf.take length.toNat) with
          | none => (st, false)
          | some msg =>
            match handleClientMessage mode (env 0) st client msg with
            | (st, false) => (st, false)
            | (st, true) =>
              processMessages mode fd fuel (fun n => env (n + 1))
                (st.modifyClient fd fun c => { c with rxBuf := c.rxBuf.drop length.toNat })

/-- What `recvmsg` returns: some bytes, with descriptors and a flag for truncated control data.  No
bytes stand for `EAGAIN`; the end of the stream is `Event.hangup`. -/
structure Received where
  bytes : Bytes
  fds : List Nat := []
  ctrunc : Bool := false

/-- `lgp_client_read_available` when there are bytes to read; `none` is the result `-1`. -/
def readAvailable (client : Client) (r : Received) : Option Client :=
  let available := rxBufferSize - client.rxBuf.length
  if available = 0 then none
  else if r.ctrunc then none
  else if client.pendingFds.length + r.fds.length > maxPendingFds then none
  else
    some
      { client with
        rxBuf := client.rxBuf ++ r.bytes.take available
        pendingFds := client.pendingFds ++ r.fds }

/-- `lgp_state_close_client`. -/
def closeClient (st : State) (client : Client) : State :=
  { st with
    wmClient := if st.wmClient = some client.fd then none else st.wmClient
    surfaceManager := st.surfaceManager.destroyForClient client
    clients := st.clients.remove client.fd }

def closeFd (st : State) (fd : Nat) : State :=
  match st.clients.find fd with
  | some client => closeClient st client
  | none => st

/-- A readable client: its bytes are read and its messages handled, and it is closed if either
fails. -/
def readClient (mode : Mode) (env : Nat → MsgEnv) (st : State) (fd : Nat) (r : Received) : State :=
  match st.clients.find fd with
  | none => st
  | some client =>
    match readAvailable client r with
    | none => closeClient st client
    | some client =>
      let st := st.modifyClient fd fun _ => client
      match processMessages mode fd client.rxBuf.length env st with
      | (st, true) => st
      | (st, false) => closeFd st fd

/-- A new connection.  The session id is used up even if the client cannot be watched. -/
def accept (st : State) (fd : Nat) (uid : UInt32) (watched : Bool) : State :=
  if h : fd ∈ st.clients.list.map Client.fd then st
  else
    let client : Client := { fd := fd, uid := uid, sessionId := st.nextSessionId }
    let st' := { st with nextSessionId := st.nextSessionId + 1 }
    if watched then { st' with clients := st.clients.add client h } else st'

inductive Event where
  | accept (fd : Nat) (uid : UInt32) (watched : Bool)
  | read (fd : Nat) (r : Received) (env : Nat → MsgEnv)
  | hangup (fd : Nat)
  | key (key keyState modifiers : UInt32)
  | motion (x y : Int32)
  | button (x y : Int32) (button : UInt8) (pressed : Bool)

def step (mode : Mode) (st : State) (e : Event) : State :=
  let st := { st with sent := [] }
  match e with
  | .accept fd uid watched => accept st fd uid watched
  | .read fd r env => readClient mode env st fd r
  | .hangup fd => closeFd st fd
  | .key key keyState modifiers => dispatchKeyboardKey st key keyState modifiers
  | .motion x y => dispatchPointerMotion st x y
  | .button x y button pressed => dispatchPointerButton st x y button pressed

end Compositor
