import Mathlib.Data.List.GetD
import Mathlib.Data.List.TakeWhile
import MahinaOS.Lgp.Codec

/-!
# The clipboard

`lgp-rs/src/clipboard.rs` sends a text with its length in front of it and expects an answer of the
same form.  The compositor between the two knows nothing of a length: what it stores is a C string,
and it answers with the bytes up to the first NUL and the NUL.

* `Clipboard.setText`, `Clipboard.requestText` and `Clipboard.parseData` are the client's side.
  `set_text` reserves room for its payload and then writes the length into a vector that has no
  elements yet, which is a panic (`setText_eq_none`).
* `transfer` hands a payload to the compositor as one client and asks for it as another.
* `parseData_reply`: whatever the clipboard holds, `parse_data` refuses the answer.  A length that
  fits has zeros in its upper bytes, and the string ends at the first of them.
* **`never_roundTrips`**: no text is read back, neither with the payload that `set_text` makes nor
  with any other.  **`greeting_lost`** follows one text.
-/

namespace Lgp

open List

open Compositor (Mode MsgEnv State Client Msg clipboardSize rxBufferSize tlvDecode
  handleClientMessage handleClipboardSet handleClipboardGet)

/-! ## The client -/

/-- `write_u32_le` on a slice; `none` is the panic where the slice is too short. -/
def writeU32LeChecked (buf : Bytes) (offset : Nat) (val : UInt32) : Option Bytes :=
  if offset + 4 ≤ buf.length then some (writeU32Le buf offset val) else none

namespace Clipboard

/-- `Clipboard::set_text`, up to the message it sends.  `Vec::with_capacity` is an empty vector. -/
def setText (text : String) : Option LgpMessage := do
  let bytes := text.toUTF8.toList
  let payload ← writeU32LeChecked [] 0 (UInt32.ofNat bytes.length)
  return .new .clipboardSet (payload ++ bytes)

/-- `Clipboard::request_text`. -/
def requestText : LgpMessage := .new .clipboardGet []

/-- `Clipboard::parse_data`. -/
def parseData (payload : Bytes) : Option String :=
  if payload.length < 4 then none
  else
    let len := (readU32Le payload 0).toNat
    if 4 + len > payload.length then none
    else String.fromUTF8? ⟨((payload.drop 4).take len).toArray⟩

end Clipboard

/-! ## From one client to another -/

/-- The compositor after a frame of a client. -/
def serve (mode : Mode) (env : MsgEnv) (st : State) (client : Client) (msg : LgpMessage) : State :=
  match tlvDecode msg.encode with
  | some msg => (handleClientMessage mode env st client msg).1
  | none => st

/-- The text that a client gets for its request: `none` without an answer, or where `parse_data`
refuses it. -/
def requested (mode : Mode) (env : MsgEnv) (st : State) (client : Client) : Option String := do
  let reply ← (serve mode env { st with sent := [] } client Clipboard.requestText).sent.find?
    (·.fd = client.fd)
  Clipboard.parseData reply.msg.payload

/-- One client stores a payload, and another one asks for it. -/
def transfer (mode : Mode) (env env' : MsgEnv) (st : State) (setter getter : Client)
    (payload : Bytes) : Option String :=
  requested mode env' (serve mode env st setter (.new .clipboardSet payload)) getter

/-- The text that one client sets is the one that another client gets. -/
def RoundTrips (mode : Mode) (env env' : MsgEnv) (st : State) (setter getter : Client)
    (text : String) : Prop :=
  ∃ msg, Clipboard.setText text = some msg ∧
    requested mode env' (serve mode env st setter msg) getter = some text

/-! ## Why nothing is read back -/

theorem setText_eq_none (text : String) : Clipboard.setText text = none := rfl

theorem toNat_readU32Le_ge {p : Bytes} (h : p.getD 2 0 ≠ 0) : 2 ^ 16 ≤ (readU32Le p 0).toNat := by
  have hpos : 1 ≤ (p.getD 2 0).toNat := by
    rw [Nat.one_le_iff_ne_zero]
    exact fun hzero => h (UInt8.toNat.inj hzero)
  have hlt := (p.getD 2 0).toNat_lt
  have hshift : ((p.getD 2 0).toUInt32 <<< 16).toNat = (p.getD 2 0).toNat * 2 ^ 16 := by
    rw [UInt32.toNat_shiftLeft, Nat.shiftLeft_eq]
    change (p.getD 2 0).toNat * 2 ^ 16 % 2 ^ 32 = _
    exact Nat.mod_eq_of_lt (by omega)
  rw [readU32Le, fromLeBytes, UInt32.toNat_or, UInt32.toNat_or, hshift]
  calc 2 ^ 16 ≤ (p.getD 2 0).toNat * 2 ^ 16 := Nat.le_mul_of_pos_left _ hpos
    _ ≤ _ := Nat.le_trans Nat.right_le_or Nat.left_le_or

/-- The length that `parse_data` reads in an answer of the compositor never fits. -/
theorem parseData_reply {text : Bytes} (hlen : text.length < clipboardSize)
    (htext : ∀ b ∈ text, b ≠ 0) : Clipboard.parseData (text ++ [0]) = none := by
  rw [Clipboard.parseData]
  split
  · rfl
  · next hlong =>
    have hthree : 2 < text.length := by
      rw [length_append, length_singleton] at hlong
      omega
    have hbyte : (text ++ [0]).getD 2 0 ≠ 0 := by
      rw [getD_append _ _ _ _ hthree, getD_eq_getElem _ _ hthree]
      exact htext _ (getElem_mem hthree)
    have hlen' : clipboardSize = 4096 := rfl
    have hge := toNat_readU32Le_ge hbyte
    rw [if_pos]
    rw [length_append, length_singleton]
    omega

variable {client : Client} {payload : Bytes}

theorem handleClientMessage_get (h : client.helloDone = true) (mode : Mode) (env : MsgEnv)
    (st : State) (payload : Bytes) :
    handleClientMessage mode env st client ⟨LgpMessageType.clipboardGet.toU16, payload⟩ =
      handleClipboardGet st client := by
  rw [handleClientMessage, h]
  rfl

theorem serve_new {type : LgpMessageType} (h : headerSize + payload.length < 2 ^ 32) (mode : Mode)
    (env : MsgEnv) (st : State) (client : Client) :
    serve mode env st client (.new type payload) =
      (handleClientMessage mode env st client ⟨type.toU16, payload⟩).1 := by
  rw [serve, tlvDecode_encode _ h]
  rfl

/-- No client reads the clipboard. -/
theorem requested_eq_none (mode : Mode) (env : MsgEnv) {st : State} (client : Client)
    (hst : st.globalClipboard.length < clipboardSize) : requested mode env st client = none := by
  rw [requested, Clipboard.requestText, serve_new (by decide)]
  by_cases hhello : client.helloDone = true
  · rw [handleClientMessage_get hhello, handleClipboardGet]
    split
    · rfl
    · -- the one answer is the string with its NUL
      have hlen : (st.globalClipboard.takeWhile (· != 0)).length < clipboardSize :=
        Nat.lt_of_le_of_lt (takeWhile_sublist _).length_le hst
      have hreply := parseData_reply hlen fun b hb => by simpa using mem_takeWhile_imp hb
      simpa [State.write, Compositor.encodeClipboardData] using hreply
  · rw [Bool.not_eq_true] at hhello
    rw [handleClientMessage, hhello]
    rfl

/-- A client with the capability leaves a string that fits. -/
theorem length_globalClipboard_serve {setter : Client} (hhello : setter.helloDone = true)
    (hcap : setter.hasCap Compositor.Cap.clipboard = true) (mode : Mode) (env : MsgEnv)
    (st : State) (hpayload : headerSize + payload.length ≤ rxBufferSize) :
    (serve mode env st setter (.new .clipboardSet payload)).globalClipboard.length <
      clipboardSize := by
  have hmax : rxBufferSize < 2 ^ 32 := by decide
  rw [serve_new (by omega), handleClientMessage, hhello]
  rw [handleClipboardSet, hcap]
  exact Nat.lt_of_le_of_lt (length_take_le _ _) (by decide)

/-- No text that one client sets is read by another, and no payload would be. -/
theorem never_roundTrips {setter : Client} (hhello : setter.helloDone = true)
    (hcap : setter.hasCap Compositor.Cap.clipboard = true) (mode : Mode) (env env' : MsgEnv)
    (st : State) (getter : Client) (text : String) :
    (RoundTrips mode env env' st setter getter text ↔ False) ∧
      Clipboard.setText text = none ∧
      ∀ payload : Bytes, headerSize + payload.length ≤ rxBufferSize →
        transfer mode env env' st setter getter payload = none := by
  refine ⟨iff_false_intro fun ⟨msg, hmsg, _⟩ => ?_, setText_eq_none text,
    fun payload hpayload => ?_⟩
  · cases hmsg
  · exact requested_eq_none mode env' getter
      (length_globalClipboard_serve hhello hcap mode env st hpayload)

def writer : Client :=
  { fd := 5, uid := 1000, sessionId := 1, capsGranted := Compositor.Cap.clipboard,
    helloDone := true }

def reader : Client :=
  { fd := 6, uid := 1000, sessionId := 2, capsGranted := Compositor.Cap.clipboard,
    helloDone := true }

theorem never_roundTrips_greeting :
    (RoundTrips ⟨800, 600⟩ {} {} {} writer reader "hi" ↔ False) ∧
      Clipboard.setText "hi" = none ∧
      ∀ payload : Bytes, headerSize + payload.length ≤ rxBufferSize →
        transfer ⟨800, 600⟩ {} {} {} writer reader payload = none :=
  never_roundTrips rfl (by decide) ⟨800, 600⟩ {} {} {} reader "hi"

/-- `set_text` of `hi` panics; its payload, had it been sent, comes back as the bytes before the
first zero of the length and the NUL, and is refused. -/
theorem greeting_lost :
    ¬ RoundTrips ⟨800, 600⟩ {} {} {} writer reader "hi" ∧
      (serve ⟨800, 600⟩ {} (serve ⟨800, 600⟩ {} {} writer
        (.new .clipboardSet [2, 0, 0, 0, 104, 105])) reader Clipboard.requestText).sent =
          [⟨6, ⟨LgpMessageType.clipboardData.toU16, [2, 0]⟩⟩] ∧
      Clipboard.parseData [2, 0] = none := by
  refine ⟨fun ⟨msg, hmsg, _⟩ => ?_, by decide +kernel, by decide +kernel⟩
  cases hmsg

end Lgp
