import Mathlib.Algebra.Group.Nat.Defs
import MahinaOS.Control.State

/-!
# The control protocol

Requests and responses of the control socket (`mahina-control/src/protocol.rs`): a request names a
method and carries JSON parameters, and `DomainCommand.parse` turns the two into a typed command.

The methods that act on one named thing share their parameter check, `requireStr`; each keeps its
own constructor.  `DomainCommand.isMutating` tells which commands the idempotency cache remembers.
**`parse_meant_iff`** says when a command is about the generation that its parameter stands for.
-/

namespace Control

/-! ## JSON values -/

/-- `serde_json::Number`. -/
inductive JsonNumber where
  | posInt (n : UInt64)
  | negInt (n : Int64)
  | float (bits : UInt64)
  deriving DecidableEq, Repr

/-- `serde_json::Value`.  The entries of an object have distinct keys. -/
inductive Json where
  | null
  | bool (b : Bool)
  | number (n : JsonNumber)
  | string (s : String)
  | array (items : List Json)
  | object (entries : List (String × Json))

namespace Json

/-- `Value::get` with a string index. -/
def get : Json → String → Option Json
  | object entries, key => entries.lookup key
  | _, _ => none

def asStr : Json → Option String
  | string s => some s
  | _ => none

def asBool : Json → Option Bool
  | bool b => some b
  | _ => none

def asU64 : Json → Option UInt64
  | number (.posInt n) => some n
  | _ => none

end Json

/-! ## Messages -/

/-- `Request`: a missing `params` is `null`. -/
structure Request where
  id : UInt64
  method : String
  params : Json := .null
  requestId : Option String := none
  capabilityToken : Option String := none

structure ErrorPayload where
  code : Int32
  message : String
  deriving DecidableEq, Repr

structure Response where
  id : UInt64
  ok : Bool
  result : Option Json
  error : Option ErrorPayload

def Response.success (id : UInt64) (result : Json) : Response :=
  { id := id, ok := true, result := some result, error := none }

def Response.failure (id : UInt64) (code : Int32) (message : String) : Response :=
  { id := id, ok := false, result := none, error := some ⟨code, message⟩ }

/-- The `Display` text of an error. -/
def ControlError.display : ControlError → String
  | permissionDenied reason => "Permission denied: " ++ reason
  | peerCredFailed reason => "Failed to determine peer credentials: " ++ reason
  | tokenExpired => "Capability token has expired"
  | tokenInvalid reason => "Invalid capability token: " ++ reason
  | notFound resource => "Resource not found: " ++ resource
  | invalidParameter param reason => "Invalid parameter '" ++ param ++ "': " ++ reason
  | io msg => "I/O error: " ++ msg
  | serialization msg => "Serialization error: " ++ msg
  | internal msg => "Internal error: " ++ msg

/-! ## Commands -/

inductive DomainCommand where
  | systemGetState
  | systemReboot
  | systemShutdown
  | servicesList
  | servicesStatus (name : Option String)
  | servicesStart (name : String)
  | servicesStop (name : String)
  | servicesRestart (name : String)
  | servicesReload (name : String)
  | usersList
  | packagesList
  | packagesInstall (target : String)
  | packagesRemove (name : String)
  | storageList
  | storageMount (source target : String) (fsType options : Option String)
  | generationsGetCurrent
  | generationsList
  | generationsCreate (description : String)
  | generationsActivate (id : UInt32)
  | generationsMarkHealthy (id : Option UInt32)
  | generationsRollback (targetId : Option UInt32)
  | generationsPin (id : UInt32) (pin : Bool)
  | generationsRecoveryCapabilities
  deriving DecidableEq, Repr

/-- The error for a parameter that is missing or of another type. -/
def missingParameter (key : String) : ControlError :=
  .invalidParameter key ("Missing required parameter '" ++ key ++ "'")

/-- A string parameter, if it is there. -/
def optionalStr (params : Json) (key : String) : Option String :=
  (params.get key).bind Json.asStr

/-- A number parameter, if it is there: the cast to `u32` keeps the low 32 bits. -/
def optionalId (params : Json) (key : String) : Option UInt32 :=
  ((params.get key).bind Json.asU64).map UInt64.toUInt32

def requireStr (params : Json) (key : String) : Except ControlError String :=
  (optionalStr params key).elim (.error (missingParameter key)) .ok

def requireId (params : Json) (key : String) : Except ControlError UInt32 :=
  (optionalId params key).elim (.error (missingParameter key)) .ok

namespace DomainCommand

/-- `DomainCommand::parse`. -/
def parse (method : String) (params : Json) : Except ControlError DomainCommand :=
  match method with
  | "system.get_state" => .ok systemGetState
  | "system.reboot" => .ok systemReboot
  | "system.shutdown" => .ok systemShutdown
  | "services.list" => .ok servicesList
  | "services.status" => .ok (servicesStatus (optionalStr params "name"))
  | "services.start" => (requireStr params "name").map servicesStart
  | "services.stop" => (requireStr params "name").map servicesStop
  | "services.restart" => (requireStr params "name").map servicesRestart
  | "services.reload" => (requireStr params "name").map servicesReload
  | "users.list" => .ok usersList
  | "packages.list" => .ok packagesList
  | "packages.install" => (requireStr params "target").map packagesInstall
  | "packages.remove" => (requireStr params "name").map packagesRemove
  | "storage.list" => .ok storageList
  | "storage.mount" => do
    let source ← requireStr params "source"
    let target ← requireStr params "target"
    .ok (storageMount source target (optionalStr params "fs_type") (optionalStr params "options"))
  | "generation.get_current" | "generations.get_current" => .ok generationsGetCurrent
  | "generation.list" | "generations.list" => .ok generationsList
  | "generation.create" | "generations.create" =>
    .ok (generationsCreate
      ((optionalStr params "description").getD "User created generation snapshot"))
  | "generation.activate" | "generations.activate" =>
    (requireId params "id").map generationsActivate
  | "generation.mark_healthy" | "generations.mark_healthy" =>
    .ok (generationsMarkHealthy (optionalId params "id"))
  | "generation.rollback" | "generations.rollback" =>
    .ok (generationsRollback (optionalId params "target_id"))
  | "generation.pin" | "generations.pin" =>
    (requireId params "id").map fun id =>
      generationsPin id (((params.get "pin").bind Json.asBool).getD true)
  | "generation.capabilities" | "generations.capabilities" => .ok generationsRecoveryCapabilities
  | other => .error (.notFound ("Unknown method '" ++ other ++ "'"))

/-- `DomainCommand::method_name`. -/
def methodName : DomainCommand → String
  | systemGetState => "system.get_state"
  | systemReboot => "system.reboot"
  | systemShutdown => "system.shutdown"
  | servicesList => "services.list"
  | servicesStatus _ => "services.status"
  | servicesStart _ => "services.start"
  | servicesStop _ => "services.stop"
  | servicesRestart _ => "services.restart"
  | servicesReload _ => "services.reload"
  | usersList => "users.list"
  | packagesList => "packages.list"
  | packagesInstall _ => "packages.install"
  | packagesRemove _ => "packages.remove"
  | storageList => "storage.list"
  | storageMount _ _ _ _ => "storage.mount"
  | generationsGetCurrent => "generation.get_current"
  | generationsList => "generation.list"
  | generationsCreate _ => "generation.create"
  | generationsActivate _ => "generation.activate"
  | generationsMarkHealthy _ => "generation.mark_healthy"
  | generationsRollback _ => "generation.rollback"
  | generationsPin _ _ => "generation.pin"
  | generationsRecoveryCapabilities => "generation.capabilities"

/-- `DomainCommand::is_mutating`. -/
def isMutating : DomainCommand → Bool
  | systemGetState | servicesList | servicesStatus _ | usersList | packagesList | storageList
  | generationsGetCurrent | generationsList | generationsRecoveryCapabilities => false
  | systemReboot | systemShutdown | servicesStart _ | servicesStop _ | servicesRestart _
  | servicesReload _ | packagesInstall _ | packagesRemove _ | storageMount _ _ _ _
  | generationsCreate _ | generationsActivate _ | generationsMarkHealthy _
  | generationsRollback _ | generationsPin _ _ => true

/-! ## The generation a command names -/

/-- The commands that name a generation. -/
inductive IdMethod where
  | activate | pin | markHealthy | rollback
  deriving DecidableEq, Repr

namespace IdMethod

def names : IdMethod → List String
  | activate => ["generation.activate", "generations.activate"]
  | pin => ["generation.pin", "generations.pin"]
  | markHealthy => ["generation.mark_healthy", "generations.mark_healthy"]
  | rollback => ["generation.rollback", "generations.rollback"]

def key : IdMethod → String
  | rollback => "target_id"
  | activate | pin | markHealthy => "id"

/-- The command for a generation, or for the default one if there is a default. -/
def command (params : Json) : IdMethod → Option UInt32 → Option DomainCommand
  | activate, id => id.map generationsActivate
  | pin, id => id.map fun id => generationsPin id (((params.get "pin").bind Json.asBool).getD true)
  | markHealthy, id => some (generationsMarkHealthy id)
  | rollback, id => some (generationsRollback id)

/-- What a parameter stands for: an integer below 2^32 for itself, a missing one for the default,
and everything else for nothing. -/
def meant : Option Json → Option (Option UInt32)
  | none => some none
  | some (.number (.posInt n)) =>
    if n.toNat < 2 ^ 32 then some (some (UInt32.ofNat n.toNat)) else none
  | some _ => none

/-- The parameter is missing, or an integer below 2^32, or the command has no default and it is
not an unsigned number. -/
def Plain (k : IdMethod) : Option Json → Prop
  | none => True
  | some (.number (.posInt n)) => n.toNat < 2 ^ 32
  | some _ => k = .activate ∨ k = .pin

theorem toOption_parse {k : IdMethod} {method : String} (hm : method ∈ k.names) (params : Json) :
    (parse method params).toOption = k.command params (optionalId params k.key) := by
  have hrequire (f : UInt32 → DomainCommand) (key : String) :
      ((requireId params key).map f).toOption = (optionalId params key).map f := by
    rw [requireId]
    rcases optionalId params key with - | id <;> rfl
  rcases k with - | - | - | -
  all_goals
    rcases List.mem_pair.1 hm with rfl | rfl
    all_goals first | rfl | exact hrequire _ _

/-- **Which generation a command is about**: exactly the one that its parameter stands for, or an
error if it stands for none, iff the parameter is `Plain`. -/
theorem parse_meant_iff {k : IdMethod} {method : String} (hm : method ∈ k.names) (params : Json) :
    (parse method params).toOption = (meant (params.get k.key)).bind (k.command params) ↔
      k.Plain (params.get k.key) := by
  have hsome (id : UInt32) : k.command params (some id) ≠ none := by
    rcases k with - | - | - | - <;> exact Option.some_ne_none _
  have hnone : k.command params none = none ↔ k = .activate ∨ k = .pin := by
    rcases k with - | - | - | - <;> simp [command]
  rw [toOption_parse hm, optionalId]
  rcases params.get k.key with - | (- | - | (n | - | -) | - | - | -)
  case none => exact iff_of_true rfl trivial
  case some.number.posInt =>
    rw [meant]
    split_ifs with hn
    · exact iff_of_true rfl hn
    · exact iff_of_false (hsome _) hn
  all_goals exact hnone

/-- A rollback to generation 102. -/
theorem parse_meant_iff_rollback :
    let params : Json := .object [("target_id", .number (.posInt 102))]
    (parse "generation.rollback" params).toOption = some (generationsRollback (some 102)) ∧
      IdMethod.rollback.Plain (params.get "target_id") :=
  ⟨rfl, (parse_meant_iff (k := .rollback) List.mem_cons_self _).1 rfl⟩

/-- A request to activate generation 2^32 + 101 activates 101, and a request to roll back to a
generation given as text rolls back to the fallback. -/
theorem parse_other_generation :
    parse "generation.activate" (.object [("id", .number (.posInt 4294967397))]) =
        .ok (generationsActivate 101) ∧
      parse "generation.rollback" (.object [("target_id", .string "102")]) =
        .ok (generationsRollback none) := ⟨rfl, rfl⟩

end IdMethod

end DomainCommand

end Control
