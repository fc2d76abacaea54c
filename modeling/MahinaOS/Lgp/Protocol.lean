import Mathlib.Algebra.Group.Nat.Defs
import MahinaOS.Lib.Bytes
import MahinaOS.Lib.Framing

/-!
# The client library

`lgp-rs` is the side of the protocol that the shell and the applications are linked with.  It has
its own description of the frames and payloads, written by hand next to the compositor's: a payload
is a vector of zeros into which the fields are written at their offsets.

* `LgpMessage`, its bytes, and `recvFrom`, which reads one message off the socket without a buffer
  (`protocol.rs`).
* `LgpSurface` with the requests it sends and what `LgpSurface::create` makes of the reply
  (`surface.rs`).
* The requests and the events of a window manager (`wm.rs`).

An access outside of a buffer panics in the source.  All offsets are constants below the lengths
that were allocated or checked, and here the slices of a list need no such proof.
-/

namespace Lgp

/-! ## Bytes -/

/-- `u32::to_le_bytes`. -/
def toLeBytes (v : UInt32) : Bytes :=
  [v.toUInt8, (v >>> 8).toUInt8, (v >>> 16).toUInt8, (v >>> 24).toUInt8]

/-- `u16::to_le_bytes`. -/
def toLeBytes16 (v : UInt16) : Bytes := [v.toUInt8, (v >>> 8).toUInt8]

/-- `u32::from_le_bytes`. -/
def fromLeBytes (b0 b1 b2 b3 : UInt8) : UInt32 :=
  b0.toUInt32 ||| b1.toUInt32 <<< 8 ||| b2.toUInt32 <<< 16 ||| b3.toUInt32 <<< 24

/-- `u16::from_le_bytes`. -/
def fromLeBytes16 (b0 b1 : UInt8) : UInt16 := (b0.toUInt32 ||| b1.toUInt32 <<< 8).toUInt16

/-- `copy_from_slice` into the bytes from an offset on. -/
def copyAt (buf : Bytes) (offset : Nat) (bytes : Bytes) : Bytes :=
  buf.take offset ++ bytes ++ buf.drop (offset + bytes.length)

/-- `write_u32_le`. -/
def writeU32Le (buf : Bytes) (offset : Nat) (val : UInt32) : Bytes :=
  copyAt buf offset (toLeBytes val)

/-- `write_i32_le`. -/
def writeI32Le (buf : Bytes) (offset : Nat) (val : Int32) : Bytes :=
  copyAt buf offset (toLeBytes val.toUInt32)

/-- `read_u32_le`. -/
def readU32Le (buf : Bytes) (offset : Nat) : UInt32 :=
  fromLeBytes (buf.getD offset 0) (buf.getD (offset + 1) 0) (buf.getD (offset + 2) 0)
    (buf.getD (offset + 3) 0)

def readU16Le (buf : Bytes) (offset : Nat) : UInt16 :=
  fromLeBytes16 (buf.getD offset 0) (buf.getD (offset + 1) 0)

/-- `vec![0u8; n]`. -/
def zeros (n : Nat) : Bytes := List.replicate n 0

/-! ## Messages -/

def headerSize : Nat := 6

def maxMsgSize : Nat := 65536

/-- `LgpMessageType`. -/
inductive LgpMessageType where
  | hello
  | helloReply
  | createSurface
  | createSurfaceReply
  | destroySurface
  | commitBuffer
  | pointerMotion
  | pointerButton
  | keyboardKey
  | pointerScroll
  | clipboardSet
  | clipboardGet
  | clipboardData
  | wmSurfaceCreated
  | wmSurfaceDestroyed
  | wmSetSurfacePosition
  | wmSetFocus
  | wmSetState
  | wmGrabKey
  | outputGeometry
  | error
  deriving DecidableEq, Repr

def LgpMessageType.toU16 : LgpMessageType → UInt16
  | hello => 0x0001
  | helloReply => 0x0002
  | createSurface => 0x0100
  | createSurfaceReply => 0x0101
  | destroySurface => 0x0102
  | commitBuffer => 0x0103
  | pointerMotion => 0x0110
  | pointerButton => 0x0111
  | keyboardKey => 0x0112
  | pointerScroll => 0x0113
  | clipboardSet => 0x0120
  | clipboardGet => 0x0121
  | clipboardData => 0x0122
  | wmSurfaceCreated => 0x0200
  | wmSurfaceDestroyed => 0x0201
  | wmSetSurfacePosition => 0x0202
  | wmSetFocus => 0x0203
  | wmSetState => 0x0204
  | wmGrabKey => 0x0205
  | outputGeometry => 0x0300
  | error => 0xFFFF

structure LgpMessage where
  msgType : UInt16
  payload : Bytes
  deriving DecidableEq, Repr

/-- `LgpMessage::new`. -/
def LgpMessage.new (msgType : LgpMessageType) (payload : Bytes) : LgpMessage :=
  ⟨msgType.toU16, payload⟩

/-- `LgpMessage::encode`. -/
def LgpMessage.encode (msg : LgpMessage) : Bytes :=
  toLeBytes16 msg.msgType ++ toLeBytes (UInt32.ofNat (headerSize + msg.payload.length)) ++
    msg.payload

/-- `LgpMessage::decode`.  The slice of the payload panics if it ends before it begins. -/
def LgpMessage.decode (data : Bytes) : Except Unit (Option LgpMessage) :=
  if data.length < headerSize then .ok none
  else
    let totalLen := (readU32Le data 2).toNat
    if data.length < totalLen then .ok none
    else if totalLen < headerSize then .error ()
    else .ok (some ⟨readU16Le data 0, (data.take totalLen).drop headerSize⟩)

/-! ## The socket -/

/-- The kinds of `std::io::Error` that the library makes, or gets from the system. -/
inductive ErrorKind where
  | invalidData
  | permissionDenied
  | unexpectedEof
  | os
  deriving DecidableEq, Repr

/-- `std::io::Error`. -/
structure IoError where
  kind : ErrorKind
  message : String
  deriving DecidableEq, Repr

/-- The receiving end of a stream socket: the bytes that have arrived and were not read, and whether
the other end is closed. -/
structure Socket where
  bytes : Bytes
  closed : Bool := false
  deriving DecidableEq, Repr

/-- `read_exact`.  The result is `none` while it waits for more bytes. -/
def Socket.readExact (s : Socket) (n : Nat) : Option (Except IoError Bytes × Socket) :=
  if n ≤ s.bytes.length then some (.ok (s.bytes.take n), { s with bytes := s.bytes.drop n })
  else if s.closed then
    some (.error ⟨.unexpectedEof, "failed to fill whole buffer"⟩, { s with bytes := [] })
  else none

/-- `LgpMessage::recv_from`; `none` while it waits. -/
def recvFrom (s : Socket) : Option (Except IoError LgpMessage × Socket) :=
  match s.readExact headerSize with
  | none => none
  | some (.error e, s) => some (.error e, s)
  | some (.ok header, s) =>
    let totalLen := (readU32Le header 2).toNat
    if totalLen < headerSize ∨ totalLen > maxMsgSize then
      some (.error ⟨.invalidData,
        "invalid or oversized LGP message total_len: " ++ toString totalLen⟩, s)
    else
      match s.readExact (totalLen - headerSize) with
      | none => none
      | some (.error e, s) => some (.error e, s)
      | some (.ok payload, s) => some (.ok ⟨readU16Le header 0, payload⟩, s)

/-! ## Surfaces -/

def pixelFormatXrgb8888 : UInt32 := 0x34325258

def pixelFormatArgb8888 : UInt32 := 0x34325241

/-- `LgpSurface`; the mapped buffer is known by its address. -/
structure LgpSurface where
  id : UInt32
  width : UInt32
  height : UInt32
  layer : UInt32
  argb : Bool
  bufferFd : Nat
  bufferSize : Nat
  bufferMap : Nat
  deriving DecidableEq, Repr

/-- A digit of `{:X}`. -/
def hexDigit (v : UInt16) : Char := "0123456789ABCDEF".toList.getD v.toNat '0'

/-- `{:04X}`. -/
def hex (v : UInt16) : String :=
  String.ofList [hexDigit (v >>> 12), hexDigit (v >>> 8 &&& 15), hexDigit (v >>> 4 &&& 15),
    hexDigit (v &&& 15)]

namespace LgpSurface

/-- The request of `LgpSurface::create`. -/
def createRequest (surfaceType : UInt32) (x y : Int32) (width height layer : UInt32) :
    LgpMessage :=
  let payload := zeros 24
  let payload := writeU32Le payload 0 surfaceType
  let payload := writeI32Le payload 4 x
  let payload := writeI32Le payload 8 y
  let payload := writeU32Le payload 12 width
  let payload := writeU32Le payload 16 height
  let payload := writeU32Le payload 20 layer
  .new .createSurface payload

/-- What `LgpSurface::create` reads in the reply: the id of the new surface. -/
def checkReply (reply : LgpMessage) : Except IoError UInt32 :=
  if reply.msgType ≠ LgpMessageType.createSurfaceReply.toU16 then
    .error ⟨.invalidData, "expected CREATE_SURFACE_REPLY, got 0x" ++ hex reply.msgType⟩
  else if reply.payload.length < 8 then
    .error ⟨.invalidData, "CREATE_SURFACE_REPLY payload too short"⟩
  else
    let status := readU32Le reply.payload 0
    let surfaceId := readU32Le reply.payload 4
    if status ≠ 0 then
      .error ⟨.permissionDenied, "CREATE_SURFACE rejected with status " ++ toString status⟩
    else .ok surfaceId

/-- `LgpSurface::create` from the reply on.  `memory` is what `create_memfd` and `mmap_buffer` give
for the size, which is a `usize` of 64 bits: a descriptor and an address, or the text of
`last_os_error`. -/
def ofReply (width height layer : UInt32) (argb : Bool) (memory : Except String (Nat × Nat))
    (reply : LgpMessage) : Except IoError LgpSurface :=
  match checkReply reply with
  | .error e => .error e
  | .ok surfaceId =>
    let bufferSize := width.toNat * height.toNat * 4 % 2 ^ 64
    match memory with
    | .error text => .error ⟨.os, text⟩
    | .ok (bufferFd, bufferMap) =>
      .ok ⟨surfaceId, width, height, layer, argb, bufferFd, bufferSize, bufferMap⟩

/-- The request of `LgpSurface::destroy`. -/
def destroyRequest (s : LgpSurface) : LgpMessage :=
  let payload := zeros 4
  let payload := writeU32Le payload 0 s.id
  .new .destroySurface payload

/-- The bytes that `LgpSurface::commit` sends along with `buffer_fd`. -/
def commitFrame (s : LgpSurface) : Bytes :=
  let pixelFmt := if s.argb then pixelFormatArgb8888 else pixelFormatXrgb8888
  let payload := zeros 24
  let payload := writeU32Le payload 0 s.id
  let payload := writeU32Le payload 4 s.width
  let payload := writeU32Le payload 8 s.height
  let payload := writeU32Le payload 12 (s.width * 4)
  let payload := writeU32Le payload 16 pixelFmt
  let payload := writeU32Le payload 20 (UInt32.ofNat s.bufferSize)
  let totalLen := headerSize + payload.length
  toLeBytes16 LgpMessageType.commitBuffer.toU16 ++ toLeBytes (UInt32.ofNat totalLen) ++ payload

/-- The request of `LgpSurface::set_position`. -/
def setPosition (s : LgpSurface) (x y : Int32) : LgpMessage :=
  let payload := zeros 12
  let payload := writeU32Le payload 0 s.id
  let payload := writeI32Le payload 4 x
  let payload := writeI32Le payload 8 y
  .new .wmSetSurfacePosition payload

end LgpSurface

/-! ## The window manager -/

structure WmSurfaceInfo where
  surfaceId : UInt32
  surfaceType : UInt32
  width : UInt32
  height : UInt32
  deriving DecidableEq, Repr

namespace WmState

/-- `WmState::parse_surface_created`. -/
def parseSurfaceCreated (payload : Bytes) : Option WmSurfaceInfo :=
  if payload.length < 16 then none
  else
    some
      { surfaceId := readU32Le payload 0
        surfaceType := readU32Le payload 4
        width := readU32Le payload 8
        height := readU32Le payload 12 }

/-- `WmState::parse_surface_destroyed`. -/
def parseSurfaceDestroyed (payload : Bytes) : Option UInt32 :=
  if payload.length < 4 then none else some (readU32Le payload 0)

/-- The request of `WmState::set_focus`. -/
def setFocus (surfaceId : UInt32) : LgpMessage :=
  let payload := zeros 4
  let payload := writeU32Le payload 0 surfaceId
  .new .wmSetFocus payload

/-- The request of `WmState::set_state`. -/
def setState (surfaceId state : UInt32) : LgpMessage :=
  let payload := zeros 8
  let payload := writeU32Le payload 0 surfaceId
  let payload := writeU32Le payload 4 state
  .new .wmSetState payload

/-- The request of `WmState::grab_key`. -/
def grabKey (key modifiers : UInt32) : LgpMessage :=
  let payload := zeros 8
  let payload := writeU32Le payload 0 key
  let payload := writeU32Le payload 4 modifiers
  .new .wmGrabKey payload

end WmState

end Lgp
