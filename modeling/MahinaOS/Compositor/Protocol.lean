import Mathlib.Algebra.Group.Nat.Defs
import MahinaOS.Lib.Bytes
import MahinaOS.Lib.ListUpdate

/-!
# The LUNA graphics protocol, on the compositor's side

Clients talk to the compositor in frames (`lgp-compositor/protocol/tlv.c`): two bytes of message
type, four bytes of total length, and the payload, all little-endian.  This file has the frames, the
payloads the compositor decodes (`protocol/surface.c`, `protocol/wm.c`), those it sends, the
capabilities a client may be granted (`protocol/caps.c`) and what the compositor keeps about a
client (`ipc/client.c`).

A client is the C struct behind a pointer.  The pointer is the identity of the client, and here its
file descriptor stands for it: `Clients` is a list in which no descriptor occurs twice, which the
kernel promises for open descriptors.
-/

namespace Compositor

open List

/-! ## Bytes -/

/-- The byte at an offset, as a word. -/
def byteAt (p : Bytes) (offset : Nat) : UInt32 := (p.getD offset 0).toUInt32

/-- `lgp_read_u32_le`. -/
def readU32Le (p : Bytes) (offset : Nat) : UInt32 :=
  byteAt p offset ||| byteAt p (offset + 1) <<< 8 ||| byteAt p (offset + 2) <<< 16 |||
    byteAt p (offset + 3) <<< 24

/-- `lgp_read_i32_le`. -/
def readI32Le (p : Bytes) (offset : Nat) : Int32 := (readU32Le p offset).toInt32

def readU16Le (p : Bytes) (offset : Nat) : UInt16 :=
  (byteAt p offset ||| byteAt p (offset + 1) <<< 8).toUInt16

/-- `lgp_write_u32_le`. -/
def writeU32Le (v : UInt32) : Bytes :=
  [v.toUInt8, (v >>> 8).toUInt8, (v >>> 16).toUInt8, (v >>> 24).toUInt8]

def writeU16Le (v : UInt16) : Bytes := [v.toUInt8, (v >>> 8).toUInt8]

/-- Where no bit is in common, this is a sum. -/
theorem or_shiftLeft {a i : Nat} (h : a < 2 ^ i) (b : Nat) : a ||| b <<< i = a + b * 2 ^ i := by
  rw [Nat.or_comm, ← Nat.shiftLeft_add_eq_or_of_lt h, Nat.shiftLeft_eq, Nat.add_comm]

theorem toNat_bytes {n : Nat} (h : n < 2 ^ 32) :
    n % 2 ^ 8 ||| (n >>> 8 % 2 ^ 8) <<< 8 % 2 ^ 32 ||| (n >>> 16 % 2 ^ 8) <<< 16 % 2 ^ 32 |||
      (n >>> 24 % 2 ^ 8) <<< 24 % 2 ^ 32 = n := by
  have hmod : ∀ {b i : Nat}, i ≤ 24 → (b % 2 ^ 8) <<< i % 2 ^ 32 = (b % 2 ^ 8) <<< i :=
    fun {b i} hi => by
      refine Nat.mod_eq_of_lt ?_
      rw [Nat.shiftLeft_eq]
      calc b % 2 ^ 8 * 2 ^ i < 2 ^ 8 * 2 ^ i :=
            Nat.mul_lt_mul_of_pos_right (Nat.mod_lt _ (by decide)) (Nat.two_pow_pos i)
        _ ≤ 2 ^ 8 * 2 ^ 24 := Nat.mul_le_mul_left _ (Nat.pow_le_pow_right (by decide) hi)
        _ = 2 ^ 32 := by decide
  rw [hmod (by decide), hmod (by decide), hmod (by decide)]
  rw [or_shiftLeft (i := 8) (by omega), or_shiftLeft (i := 16) (by omega),
    or_shiftLeft (i := 24) (by omega)]
  omega

theorem readU32Le_writeU32Le (p q : Bytes) (v : UInt32) :
    readU32Le (p ++ (writeU32Le v ++ q)) p.length = v := by
  have hbyte : ∀ k (hk : k < (writeU32Le v).length),
      byteAt (p ++ (writeU32Le v ++ q)) (p.length + k) = (writeU32Le v)[k].toUInt32 := by
    intro k hk
    rw [byteAt, getD_eq_getElem?_getD, getElem?_append_right (Nat.le_add_right _ _),
      Nat.add_sub_cancel_left, getElem?_append_left hk, getElem?_eq_getElem hk]
    rfl
  have hlen : (writeU32Le v).length = 4 := rfl
  have hfirst := hbyte 0 (by omega)
  rw [Nat.add_zero] at hfirst
  rw [readU32Le, hfirst, hbyte 1 (by omega), hbyte 2 (by omega), hbyte 3 (by omega)]
  apply UInt32.toNat.inj
  exact toNat_bytes v.toNat_lt

/-! ## Frames -/

def headerSize : Nat := 6

namespace MsgType

def hello : UInt16 := 0x0001
def helloReply : UInt16 := 0x0002
def fillRect : UInt16 := 0x0010
def createSurface : UInt16 := 0x0100
def createSurfaceReply : UInt16 := 0x0101
def destroySurface : UInt16 := 0x0102
def commitBuffer : UInt16 := 0x0103
def pointerMotion : UInt16 := 0x0110
def pointerButton : UInt16 := 0x0111
def keyboardKey : UInt16 := 0x0112
def clipboardSet : UInt16 := 0x0120
def clipboardGet : UInt16 := 0x0121
def clipboardData : UInt16 := 0x0122
def wmSurfaceCreated : UInt16 := 0x0200
def wmSurfaceDestroyed : UInt16 := 0x0201
def wmSetSurfacePosition : UInt16 := 0x0202
def wmSetFocus : UInt16 := 0x0203
def wmSetState : UInt16 := 0x0204
def wmGrabKey : UInt16 := 0x0205
def outputGeometry : UInt16 := 0x0300

end MsgType

/-- A message.  Its `length` in the source is that of the payload plus `headerSize`. -/
structure Msg where
  type : UInt16
  payload : Bytes
  deriving DecidableEq, Repr

/-- The frame of a message: `lgp_tlv_encode_header` and the payload. -/
def Msg.encode (msg : Msg) : Bytes :=
  writeU16Le msg.type ++ writeU32Le (UInt32.ofNat (headerSize + msg.payload.length)) ++ msg.payload

/-- `lgp_tlv_peek_header`. -/
def tlvPeekHeader (buf : Bytes) : Option (UInt16 × UInt32) :=
  if buf.length < headerSize then none else some (readU16Le buf 0, readU32Le buf 2)

/-- `lgp_tlv_decode`. -/
def tlvDecode (buf : Bytes) : Option Msg :=
  match tlvPeekHeader buf with
  | none => none
  | some (type, length) =>
    if length.toNat < headerSize ∨ buf.length < length.toNat then none
    else some ⟨type, (buf.take length.toNat).drop headerSize⟩

/-! ## Requests -/

structure CreatePayload where
  surfaceType : UInt32
  x : Int32
  y : Int32
  width : UInt32
  height : UInt32
  layer : UInt32
  deriving DecidableEq, Repr

/-- `lgp_surface_decode_create`. -/
def decodeCreate (msg : Msg) : Option CreatePayload :=
  if msg.type ≠ MsgType.createSurface ∨ msg.payload.length ≠ 24 then none
  else
    some
      { surfaceType := readU32Le msg.payload 0
        x := readI32Le msg.payload 4
        y := readI32Le msg.payload 8
        width := readU32Le msg.payload 12
        height := readU32Le msg.payload 16
        layer := readU32Le msg.payload 20 }

/-- `lgp_surface_decode_destroy`: the surface id. -/
def decodeDestroy (msg : Msg) : Option UInt32 :=
  if msg.type ≠ MsgType.destroySurface ∨ msg.payload.length ≠ 4 then none
  else some (readU32Le msg.payload 0)

structure CommitPayload where
  surfaceId : UInt32
  width : UInt32
  height : UInt32
  stride : UInt32
  pixelFormat : UInt32
  byteSize : UInt32
  deriving DecidableEq, Repr

/-- `lgp_surface_decode_commit`. -/
def decodeCommit (msg : Msg) : Option CommitPayload :=
  if msg.type ≠ MsgType.commitBuffer ∨ msg.payload.length ≠ 24 then none
  else
    some
      { surfaceId := readU32Le msg.payload 0
        width := readU32Le msg.payload 4
        height := readU32Le msg.payload 8
        stride := readU32Le msg.payload 12
        pixelFormat := readU32Le msg.payload 16
        byteSize := readU32Le msg.payload 20 }

structure SetPositionPayload where
  surfaceId : UInt32
  x : Int32
  y : Int32
  deriving DecidableEq, Repr

/-- `lgp_wm_decode_set_position`. -/
def decodeSetPosition (msg : Msg) : Option SetPositionPayload :=
  if msg.type ≠ MsgType.wmSetSurfacePosition ∨ msg.payload.length < 12 then none
  else some ⟨readU32Le msg.payload 0, readI32Le msg.payload 4, readI32Le msg.payload 8⟩

/-- `lgp_wm_decode_set_focus`: the surface id. -/
def decodeSetFocus (msg : Msg) : Option UInt32 :=
  if msg.type ≠ MsgType.wmSetFocus ∨ msg.payload.length < 4 then none
  else some (readU32Le msg.payload 0)

/-- `lgp_wm_decode_set_state`: the surface id and the state. -/
def decodeSetState (msg : Msg) : Option (UInt32 × UInt32) :=
  if msg.type ≠ MsgType.wmSetState ∨ msg.payload.length < 8 then none
  else some (readU32Le msg.payload 0, readU32Le msg.payload 4)

/-- `lgp_wm_decode_grab_key`: the key and the modifiers. -/
def decodeGrabKey (msg : Msg) : Option (UInt32 × UInt32) :=
  if msg.type ≠ MsgType.wmGrabKey ∨ msg.payload.length < 8 then none
  else some (readU32Le msg.payload 0, readU32Le msg.payload 4)

/-! ## Replies and events -/

def versionMajor : UInt16 := 1

def versionMinor : UInt16 := 0

def encodeHelloReply (caps : UInt32) : Msg :=
  ⟨MsgType.helloReply, writeU16Le versionMajor ++ writeU16Le versionMinor ++ writeU32Le caps⟩

def encodeOutputGeometry (w h : UInt32) : Msg :=
  ⟨MsgType.outputGeometry, writeU32Le w ++ writeU32Le h⟩

/-- `lgp_surface_encode_create_reply`. -/
def encodeCreateReply (status surfaceId : UInt32) : Msg :=
  ⟨MsgType.createSurfaceReply, writeU32Le status ++ writeU32Le surfaceId⟩

/-- `lgp_wm_encode_surface_created`. -/
def encodeSurfaceCreated (surfaceId type w h : UInt32) : Msg :=
  ⟨MsgType.wmSurfaceCreated,
    writeU32Le surfaceId ++ writeU32Le type ++ writeU32Le w ++ writeU32Le h⟩

/-- `lgp_wm_encode_surface_destroyed`. -/
def encodeSurfaceDestroyed (surfaceId : UInt32) : Msg :=
  ⟨MsgType.wmSurfaceDestroyed, writeU32Le surfaceId⟩

/-- The clipboard is sent with its terminating NUL. -/
def encodeClipboardData (text : Bytes) : Msg := ⟨MsgType.clipboardData, text ++ [0]⟩

def encodePointerMotion (x y : Int32) : Msg :=
  ⟨MsgType.pointerMotion, writeU32Le x.toUInt32 ++ writeU32Le y.toUInt32⟩

def encodePointerButton (button : UInt8) (pressed : Bool) : Msg :=
  ⟨MsgType.pointerButton, [button, if pressed then 1 else 0]⟩

def encodeKeyboardKey (key keyState modifiers : UInt32) : Msg :=
  ⟨MsgType.keyboardKey, writeU32Le key ++ writeU32Le keyState ++ writeU32Le modifiers⟩

/-- A greeting that asks for capabilities. -/
def greeting (caps : UInt8) : Msg := ⟨MsgType.hello, [1, 0, 0, 0, caps, 0, 0, 0]⟩

/-- A window of two pixels. -/
def newWindow : Msg :=
  ⟨MsgType.createSurface, [4, 0, 0, 0] ++ [0, 0, 0, 0] ++ [0, 0, 0, 0] ++ [2, 0, 0, 0] ++
    [1, 0, 0, 0] ++ [100, 0, 0, 0]⟩

/-- A buffer for such a window. -/
def newBuffer (id : UInt8) : Msg :=
  ⟨MsgType.commitBuffer, [id, 0, 0, 0] ++ [2, 0, 0, 0] ++ [1, 0, 0, 0] ++ [8, 0, 0, 0] ++
    [0x41, 0x52, 0x32, 0x34] ++ [8, 0, 0, 0]⟩

def Msg.isInput (msg : Msg) : Bool :=
  msg.type == MsgType.keyboardKey || msg.type == MsgType.pointerButton ||
    msg.type == MsgType.pointerMotion

/-! ## Clients and capabilities -/

namespace Cap

def canvasSurface : UInt32 := (1 : UInt32) <<< 1
def directLgp : UInt32 := (1 : UInt32) <<< 2
def layerShell : UInt32 := (1 : UInt32) <<< 3
def lunaIsland : UInt32 := (1 : UInt32) <<< 4
def clipboard : UInt32 := (1 : UInt32) <<< 6
def windowManager : UInt32 := (1 : UInt32) <<< 7

end Cap

/-- The capability if it was requested. -/
def grant (requested cap : UInt32) : UInt32 := if requested &&& cap ≠ 0 then cap else 0

/-- `lgp_caps_negotiate`. -/
def capsNegotiate (uid requested : UInt32) : UInt32 :=
  let granted := grant requested Cap.canvasSurface ||| grant requested Cap.directLgp |||
    grant requested Cap.clipboard
  if uid = 0 then
    granted ||| grant requested Cap.layerShell ||| grant requested Cap.lunaIsland |||
      grant requested Cap.windowManager
  else granted

def rxBufferSize : Nat := 4096

def maxPendingFds : Nat := 8

/-- `lgp_client_t`, without the process and group ids, which are only logged. -/
structure Client where
  fd : Nat
  uid : UInt32
  sessionId : UInt32
  capsGranted : UInt32 := 0
  helloDone : Bool := false
  rxBuf : Bytes := []
  pendingFds : List Nat := []
  deriving DecidableEq, Repr

/-- `client->caps_granted & cap`. -/
def Client.hasCap (client : Client) (cap : UInt32) : Bool := client.capsGranted &&& cap ≠ 0

/-- The connected clients, the latest first. -/
structure Clients where
  list : List Client
  nodup : (list.map Client.fd).Nodup

namespace Clients

def empty : Clients := ⟨[], nodup_nil⟩

/-- `lgp_state_find_client`. -/
def find (cs : Clients) (fd : Nat) : Option Client := cs.list.find? (·.fd = fd)

/-- `lgp_state_add_client`. -/
def add (cs : Clients) (client : Client) (h : client.fd ∉ cs.list.map Client.fd) : Clients :=
  ⟨client :: cs.list, nodup_cons.2 ⟨h, cs.nodup⟩⟩

/-- `lgp_state_remove_client`. -/
def remove (cs : Clients) (fd : Nat) : Clients :=
  ⟨cs.list.filter (·.fd ≠ fd), cs.nodup.sublist (filter_sublist.map _)⟩

def modify (cs : Clients) (fd : Nat) (f : Client → Client) : Clients where
  list := cs.list.map fun c => if c.fd = fd then { f c with fd := c.fd } else c
  nodup := by
    have hfd : ∀ c : Client, (if c.fd = fd then { f c with fd := c.fd } else c).fd = c.fd := by
      intro c
      split <;> rfl
    simpa only [map_map, Function.comp_def, hfd] using cs.nodup

variable {cs : Clients} {c : Client} {fd : Nat}

theorem eq_of_fd {d : Client} (hc : c ∈ cs.list) (hd : d ∈ cs.list) (h : c.fd = d.fd) : c = d :=
  inj_on_of_nodup_map cs.nodup hc hd h

theorem find_eq_some : cs.find fd = some c ↔ c ∈ cs.list ∧ c.fd = fd :=
  ListUpdate.find?_key_iff cs.nodup

theorem mem_modify {f : Client → Client} :
    c ∈ (cs.modify fd f).list ↔
      ∃ d ∈ cs.list, (if d.fd = fd then { f d with fd := d.fd } else d) = c := mem_map

/-- A write only depends on what it does to the client it is for. -/
theorem modify_congr (hc : cs.find fd = some c) {f g : Client → Client} (hfg : f c = g c) :
    cs.modify fd f = cs.modify fd g := by
  obtain ⟨hmem, rfl⟩ := find_eq_some.1 hc
  have hlist : (cs.modify c.fd f).list = (cs.modify c.fd g).list := by
    refine map_congr_left fun d hd => ?_
    split
    · next hfd => rw [eq_of_fd hd hmem hfd, hfg]
    · rfl
  cases h : cs.modify c.fd f
  rw [h] at hlist
  cases hlist
  rfl

theorem modify_modify (cs : Clients) (fd : Nat) (f g : Client → Client) :
    (cs.modify fd f).modify fd g = cs.modify fd fun c => g { f c with fd := c.fd } := by
  have hlist : ((cs.modify fd f).modify fd g).list =
      (cs.modify fd fun c => g { f c with fd := c.fd }).list := by
    simp only [modify, map_map]
    refine map_congr_left fun c _ => ?_
    by_cases hc : c.fd = fd <;> simp [hc]
  cases h : (cs.modify fd f).modify fd g
  rw [h] at hlist
  cases hlist
  rfl

theorem find_modify (hc : cs.find fd = some c) (f : Client → Client) :
    (cs.modify fd f).find fd = some { f c with fd := c.fd } := by
  obtain ⟨hmem, hfd⟩ := find_eq_some.1 hc
  exact find_eq_some.2 ⟨mem_modify.2 ⟨c, hmem, if_pos hfd⟩, hfd⟩

theorem mem_remove : c ∈ (cs.remove fd).list ↔ c ∈ cs.list ∧ c.fd ≠ fd := by
  simp [remove]

theorem mem_remove_of_session {client : Client} (hc : c ∈ cs.list) (hclient : client ∈ cs.list)
    (hne : c.sessionId ≠ client.sessionId) : c ∈ (cs.remove client.fd).list :=
  mem_remove.2 ⟨hc, fun hfd => hne (congrArg Client.sessionId (eq_of_fd hc hclient hfd))⟩

end Clients

end Compositor
