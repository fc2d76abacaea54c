import MahinaOS.Control.Daemon

/-!
# The control client and its responses

`ControlClient` (`mahina-control/src/client.rs`) has one function for each command.  Each names a
method and builds the JSON parameters, and `call` sends the two with the next number of the
connection as the id.  The daemon parses them with its own list of methods and parameters.

* **`ClientCall.parse_request`**: the daemon parses every request to the command that was meant;
* **`response_id_iff`**: when the responses carry the ids of their requests.  The cache keeps a
  response as it was sent, with the id of the request that was dispatched;
* `ClientCall.response_id`: a call of the client sends no request id, so its response carries its
  own id in every state of the daemon.
-/

namespace Control

open Run

/-! ## Building parameters -/

namespace Json

/-- An id as a JSON value: `serde_json` widens it to 64 bits. -/
def ofU32 (n : UInt32) : Json := number (.posInt n.toUInt64)

/-- `params[key] = value` for a key that the object does not have yet. -/
def set : Json → String → Json → Json
  | object entries, key, value => object (entries ++ [(key, value)])
  | other, _, _ => other

/-- The value is set if there is one. -/
def setSome (params : Json) (key : String) (value : Option Json) : Json :=
  value.elim params (params.set key)

end Json

/-! ## The client -/

/-- A call of one of the functions of `ControlClient`, with its arguments. -/
inductive ClientCall where
  | systemGetState
  | systemReboot (token : Option String)
  | systemShutdown (token : Option String)
  | servicesList
  | servicesStatus (name : Option String)
  | servicesStart (name : String) (token : Option String)
  | servicesStop (name : String) (token : Option String)
  | servicesRestart (name : String) (token : Option String)
  | servicesReload (name : String) (token : Option String)
  | usersList
  | packagesList
  | packagesInstall (target : String) (token : Option String)
  | packagesRemove (name : String) (token : Option String)
  | storageList
  | storageMount (source target : String) (fsType options : Option String) (token : Option String)
  | generationGetCurrent
  | generationList
  | generationCreate (description : String) (token : Option String)
  | generationActivate (id : UInt32) (token : Option String)
  | generationMarkHealthy (id : Option UInt32) (token : Option String)
  | generationRollback (targetId : Option UInt32) (token : Option String)
  | generationPin (id : UInt32) (pin : Bool) (token : Option String)
  | generationCapabilities
  deriving DecidableEq, Repr

/-- `ControlClient`, without its connection. -/
structure ControlClient where
  nextId : UInt64

/-- `ControlClient::connect`. -/
def ControlClient.connect : ControlClient := { nextId := 1 }

/-- `ControlClient::call`, up to what it sends. -/
def ControlClient.call (client : ControlClient) (method : String) (params : Json)
    (requestId token : Option String) : Request × ControlClient :=
  ({ id := client.nextId, method := method, params := params, requestId := requestId,
     capabilityToken := token }, { nextId := client.nextId + 1 })

namespace ClientCall

/-- The functions of `ControlClient`: what each passes to `call`. -/
def send (client : ControlClient) : ClientCall → Request × ControlClient
  | systemGetState => client.call "system.get_state" (.object []) none none
  | systemReboot token => client.call "system.reboot" (.object []) none token
  | systemShutdown token => client.call "system.shutdown" (.object []) none token
  | servicesList => client.call "services.list" (.object []) none none
  | servicesStatus name =>
    let params :=
      match name with
      | some n => .object [("name", .string n)]
      | none => .object []
    client.call "services.status" params none none
  | servicesStart name token =>
    client.call "services.start" (.object [("name", .string name)]) none token
  | servicesStop name token =>
    client.call "services.stop" (.object [("name", .string name)]) none token
  | servicesRestart name token =>
    client.call "services.restart" (.object [("name", .string name)]) none token
  | servicesReload name token =>
    client.call "services.reload" (.object [("name", .string name)]) none token
  | usersList => client.call "users.list" (.object []) none none
  | packagesList => client.call "packages.list" (.object []) none none
  | packagesInstall target token =>
    client.call "packages.install" (.object [("target", .string target)]) none token
  | packagesRemove name token =>
    client.call "packages.remove" (.object [("name", .string name)]) none token
  | storageList => client.call "storage.list" (.object []) none none
  | storageMount source target fsType options token =>
    let params := Json.object [("source", .string source), ("target", .string target)]
    let params := params.setSome "fs_type" (fsType.map .string)
    let params := params.setSome "options" (options.map .string)
    client.call "storage.mount" params none token
  | generationGetCurrent => client.call "generation.get_current" (.object []) none none
  | generationList => client.call "generation.list" (.object []) none none
  | generationCreate description token =>
    client.call "generation.create" (.object [("description", .string description)]) none token
  | generationActivate id token =>
    client.call "generation.activate" (.object [("id", .ofU32 id)]) none token
  | generationMarkHealthy id token =>
    client.call "generation.mark_healthy" ((Json.object []).setSome "id" (id.map .ofU32)) none token
  | generationRollback targetId token =>
    client.call "generation.rollback"
      ((Json.object []).setSome "target_id" (targetId.map .ofU32)) none token
  | generationPin id pin token =>
    client.call "generation.pin" (.object [("id", .ofU32 id), ("pin", .bool pin)]) none token
  | generationCapabilities => client.call "generation.capabilities" (.object []) none none

/-- The command that the caller means. -/
def command : ClientCall → DomainCommand
  | systemGetState => .systemGetState
  | systemReboot _ => .systemReboot
  | systemShutdown _ => .systemShutdown
  | servicesList => .servicesList
  | servicesStatus name => .servicesStatus name
  | servicesStart name _ => .servicesStart name
  | servicesStop name _ => .servicesStop name
  | servicesRestart name _ => .servicesRestart name
  | servicesReload name _ => .servicesReload name
  | usersList => .usersList
  | packagesList => .packagesList
  | packagesInstall target _ => .packagesInstall target
  | packagesRemove name _ => .packagesRemove name
  | storageList => .storageList
  | storageMount source target fsType options _ => .storageMount source target fsType options
  | generationGetCurrent => .generationsGetCurrent
  | generationList => .generationsList
  | generationCreate description _ => .generationsCreate description
  | generationActivate id _ => .generationsActivate id
  | generationMarkHealthy id _ => .generationsMarkHealthy id
  | generationRollback targetId _ => .generationsRollback targetId
  | generationPin id pin _ => .generationsPin id pin
  | generationCapabilities => .generationsRecoveryCapabilities

end ClientCall

/-- **The client and the daemon agree on the methods and their parameters.**  The request of every
call, with any arguments, is parsed to the command that the caller means. -/
theorem ClientCall.parse_request (client : ControlClient) (c : ClientCall) :
    DomainCommand.parse (c.send client).1.method (c.send client).1.params = .ok c.command := by
  -- methods and keys are literals, so all but the cast of an id is by computation
  have hcast (id : UInt32) : id.toUInt64.toUInt32 = id := UInt32.toUInt32_toUInt64 id
  cases c with
  | servicesStatus name => cases name <;> rfl
  | storageMount source target fsType options token => cases fsType <;> cases options <;> rfl
  | generationActivate id token =>
    exact congrArg (fun id => Except.ok (DomainCommand.generationsActivate id)) (hcast id)
  | generationMarkHealthy id token =>
    rcases id with - | id
    · rfl
    · exact congrArg (fun id => Except.ok (DomainCommand.generationsMarkHealthy (some id)))
        (hcast id)
  | generationRollback targetId token =>
    rcases targetId with - | id
    · rfl
    · exact congrArg (fun id => Except.ok (DomainCommand.generationsRollback (some id))) (hcast id)
  | generationPin id pin token =>
    exact congrArg (fun id => Except.ok (DomainCommand.generationsPin id pin)) (hcast id)
  | systemGetState | systemReboot | systemShutdown | servicesList | usersList | packagesList
  | storageList | generationGetCurrent | generationList | generationCapabilities => rfl
  | servicesStart | servicesStop | servicesRestart | servicesReload | packagesInstall
  | packagesRemove | generationCreate => rfl

/-! ## Whose response it is -/

/-- The response to a request carries its id. -/
def SameId (fromStr : Decoder) (s : History) (i : Incoming) : Prop :=
  ∀ req, requestOf fromStr i = some req → (s.respond fromStr i).id = req.id

/-- No recent stored request had the same request id and another id. -/
def NoOtherId (fromStr : Decoder) (s : History) (i : Incoming) : Prop :=
  ∀ req, requestOf fromStr i = some req →
    ∀ e ∈ Fifo.recent defaultCapacity s.remembered,
      req.requestId = some e.requestId → e.responseId = req.id

@[simp] theorem dispatchResponse_id (id : UInt64) (outcome : Except ControlError Json) :
    (dispatchResponse id outcome).id = id := by
  cases outcome <;> rfl

/-- On a cache miss the response carries the id of the request. -/
theorem Daemon.execute_id (d : Daemon) (i : Incoming) (req : Request) :
    (d.execute i req).2.id = req.id := by
  rw [Daemon.execute]
  split
  · rfl
  · split
    · rfl
    · exact dispatchResponse_id _ _

variable {fromStr : Decoder} {s : History} {i : Incoming} {req : Request}

theorem History.respond_of_miss (hreq : requestOf fromStr i = some req)
    (hmiss : req.requestId.bind s.daemon.idempotency.get = none) :
    (s.respond fromStr i).id = req.id := by
  rw [History.respond, Daemon.processRequest, requestOf_eq_some.1 hreq]
  dsimp only
  rw [hmiss]
  exact s.daemon.execute_id i req

/-- **One request**: its response carries another id exactly if it comes from the cache and was
stored for a request with another id. -/
theorem History.Inv.sameId_iff (h : s.Inv) (i : Incoming) :
    SameId fromStr s i ↔ NoOtherId fromStr s i := by
  refine forall_congr' fun req => imp_congr_right fun hreq => ?_
  rcases hget : req.requestId.bind s.daemon.idempotency.get with - | r
  · refine iff_of_true (History.respond_of_miss hreq hget) fun e he hid => ?_
    rw [hid, Option.bind_some, h.get_eq_some.2 ⟨e, he, rfl, rfl⟩] at hget
    cases hget
  · obtain ⟨id, hid, hcached⟩ := Option.bind_eq_some_iff.1 hget
    rw [History.respond, Daemon.processRequest, requestOf_eq_some.1 hreq]
    dsimp only
    rw [hget]
    constructor
    · intro hr e he hide
      have hstored := h.get_eq_some.2 ⟨e, he, rfl, rfl⟩
      rw [hid, Option.some.injEq] at hide
      rw [← hide, hcached] at hstored
      rw [← hr, hstored, Remembered.response, dispatchResponse_id]
    · intro hno
      obtain ⟨e, he, rfl, rfl⟩ := h.get_eq_some.1 hcached
      rw [← hno e he hid, Remembered.response, dispatchResponse_id]

/-- **Whose response it is.**  Along every sequence of requests, each response carries the id of its
request exactly if no request repeats the request id of one of the last 1024 stored requests with
another id. -/
theorem response_id_iff (fromStr : Decoder) (requests : List Incoming) :
    Along (History.step fromStr) (SameId fromStr) History.start requests ↔
      Along (History.step fromStr) (NoOtherId fromStr) History.start requests :=
  along_iff (I := History.Inv) (H := fun _ _ => True) (fun _ i h _ _ => h.step i)
    (fun _ i h _ => h.sameId_iff i) History.inv_start (along_trivial _ _)

theorem ClientCall.requestId_send (client : ControlClient) (c : ClientCall) :
    (c.send client).1.requestId = none := by
  cases c <;> rfl

/-- Every call of the client gets a response with its own id. -/
theorem ClientCall.response_id {client : ControlClient} {c : ClientCall}
    (hreq : requestOf fromStr i = some (c.send client).1) (s : History) :
    (s.respond fromStr i).id = client.nextId := by
  rw [History.respond_of_miss hreq (by rw [c.requestId_send client]; rfl)]
  cases c <;> rfl

/-! ## A repeated request -/

/-- The line of the sample, sent again under the next id of the connection. -/
def sampleRetryLine : String :=
  "\x7b\"id\":13,\"method\":\"system.reboot\",\"request_id\":\"uuid-test-1\"\x7d"

/-- The decoder on both lines. -/
def sampleRetryDecoder : Decoder := fun line =>
  if line = sampleRetryLine.toList then
    .ok { id := 13, method := "system.reboot", requestId := some "uuid-test-1" }
  else sampleDecoder line

/-- Root reboots, and repeats the request with the same request id as its next request.  The second
response carries the id of the first request. -/
theorem response_of_earlier_id :
    requestOf sampleRetryDecoder { sampleIncoming 0 with line := sampleRetryLine.toList } =
        some { id := 13, method := "system.reboot", requestId := some "uuid-test-1" } ∧
      ((History.start.step sampleRetryDecoder (sampleIncoming 0)).respond sampleRetryDecoder
        { sampleIncoming 0 with line := sampleRetryLine.toList }).id = 12 := by
  constructor
  · rfl
  · decide +kernel

end Control
