import MahinaOS.Control.Auth
import MahinaOS.Control.Idempotency
import MahinaOS.Lib.Run

/-!
# The control daemon

`process_request` (`mahina-control/src/daemon.rs`) handles one line of a peer: it decodes the line,
answers from the idempotency cache if the request id is known, and otherwise parses, authorises and
dispatches the command and remembers the response of a mutating one.  The decoder is `serde_json`'s
and a parameter; the outcome of the dispatch comes with the request, since it depends on the rest of
the system.

The cache is looked up *before* the peer is authorised.  `History` keeps, beside the daemon, the
requests whose responses were stored (`Remembered`), and `History.Inv` ties the cache to it: it
holds the responses of the last 1024 of them.  From that

* **`rejected_never_ok_iff`**: when the daemon never answers `ok` to a peer that it would reject;
* `cached_for_another_peer`: an ordinary user repeats the request id of root's reboot and is told
  that it succeeded.
-/

namespace Control

open Run

/-! ## The audit log -/

/-- An entry of the audit log. -/
structure AuditEvent where
  timestampEpochSecs : UInt64
  requestId : Option String
  callerUid : UInt32
  callerPid : Int32
  identityTier : String
  operation : String
  authorization : String
  result : String
  error : Option String
  deriving DecidableEq, Repr

/-- The event that `AuditLogger::log` makes of its arguments. -/
def auditEvent (now : UInt64) (requestId : Option String) (peer : PeerCredentials)
    (identityTier operation : String) (authorized resultOk : Bool) (error : Option String) :
    AuditEvent where
  timestampEpochSecs := now
  requestId := requestId
  callerUid := peer.uid
  callerPid := peer.pid
  identityTier := identityTier
  operation := operation
  authorization := if authorized then "approved" else "rejected"
  result := if resultOk then "success" else "error"
  error := error

/-- The events in memory, and the events on the lines of the log file if the logger has one. -/
structure AuditLogger where
  inMemory : List AuditEvent
  logFile : Option (List AuditEvent)

/-- `AuditLogger::new`, with a log file that is still empty. -/
def AuditLogger.new : AuditLogger := { inMemory := [], logFile := some [] }

/-- `AuditLogger::log`: every failure on the way to the line in the file is ignored. -/
def AuditLogger.log (l : AuditLogger) (appends : Bool) (e : AuditEvent) : AuditLogger where
  inMemory := l.inMemory ++ [e]
  logFile := l.logFile.map fun file => if appends then file ++ [e] else file

/-! ## Processing a request -/

/-- The control daemon: the responses it remembers, and its audit log. -/
structure Daemon where
  idempotency : IdempotencyStore
  audit : AuditLogger

/-- `ControlDaemon::new`. -/
def Daemon.new : Daemon := { idempotency := .new, audit := .new }

/-- One line from a peer, with the clock, with what the providers would answer to a command, and
with whether a line can be appended to the log file. -/
structure Incoming where
  peer : PeerCredentials
  line : List Char
  now : UInt64
  outcome : DomainCommand → Except ControlError Json
  appends : Bool := true

/-- The decoder of request lines, `serde_json::from_str`, with the text of its error. -/
abbrev Decoder := List Char → Except String Request

/-- The daemon logs an event of a request. -/
def Daemon.log (d : Daemon) (i : Incoming) (e : AuditEvent) : Daemon :=
  { d with audit := d.audit.log i.appends e }

/-- The response to a dispatched command. -/
def dispatchResponse (id : UInt64) : Except ControlError Json → Response
  | .ok value => .success id value
  | .error e => .failure id 500 e.display

/-- The last steps of `process_request`: dispatch, log, and remember the response of a mutating
command. -/
def Daemon.dispatch (d : Daemon) (i : Incoming) (req : Request) (cmd : DomainCommand)
    (tier : IdentityTier) : Daemon × Response :=
  let response := dispatchResponse req.id (i.outcome cmd)
  let event :=
    match i.outcome cmd with
    | .ok _ => auditEvent i.now req.requestId i.peer tier.asStr cmd.methodName true true none
    | .error e =>
      auditEvent i.now req.requestId i.peer tier.asStr cmd.methodName true false (some e.display)
  let d := d.log i event
  (if cmd.isMutating then
    match req.requestId with
    | some id => { d with idempotency := d.idempotency.insert id response }
    | none => d
  else d, response)

/-- `process_request` after a cache miss. -/
def Daemon.execute (d : Daemon) (i : Incoming) (req : Request) : Daemon × Response :=
  match DomainCommand.parse req.method req.params with
  | .error e =>
    (d.log i
        (auditEvent i.now req.requestId i.peer "Unknown" req.method false false (some e.display)),
      .failure req.id 404 e.display)
  | .ok cmd =>
    match authorize i.peer cmd req.capabilityToken with
    | .error e =>
      (d.log i (auditEvent i.now req.requestId i.peer "Unauthorized" cmd.methodName false false
        (some e.display)), .failure req.id 403 e.display)
    | .ok tier => d.dispatch i req cmd tier

/-- `ControlDaemon::process_request`. -/
def Daemon.processRequest (fromStr : Decoder) (d : Daemon) (i : Incoming) : Daemon × Response :=
  match fromStr (Text.trim i.line) with
  | .error e =>
    (d.log i (auditEvent i.now none i.peer "Unknown" "invalid.json" false false (some e)),
      .failure 0 400 ("Malformed JSON request: " ++ e))
  | .ok req =>
    match req.requestId.bind d.idempotency.get with
    | some cached => (d, cached)
    | none => d.execute i req

/-! ## Rejected requests -/

/-- The request on the line, if it decodes. -/
def requestOf (fromStr : Decoder) (i : Incoming) : Option Request :=
  (fromStr (Text.trim i.line)).toOption

variable {fromStr : Decoder} {i : Incoming} {req : Request} {cmd : DomainCommand}

theorem requestOf_eq_some :
    requestOf fromStr i = some req ↔ fromStr (Text.trim i.line) = .ok req := by
  rw [requestOf]
  rcases fromStr (Text.trim i.line) with e | r
  · simp [Except.toOption]
  · simp [Except.toOption]

/-- The line is a request for a command that the authoriser rejects for this peer. -/
def Rejected (fromStr : Decoder) (i : Incoming) : Prop :=
  ∃ req cmd e, requestOf fromStr i = some req ∧
    DomainCommand.parse req.method req.params = .ok cmd ∧
    authorize i.peer cmd req.capabilityToken = .error e

/-- The line is a request for a mutating command with a request id, and the peer may have it. -/
def Accepts (i : Incoming) (req : Request) (id : String) (cmd : DomainCommand) : Prop :=
  req.requestId = some id ∧ DomainCommand.parse req.method req.params = .ok cmd ∧
    cmd.isMutating = true ∧ ∃ tier, authorize i.peer cmd req.capabilityToken = .ok tier

theorem Daemon.dispatch_idempotency (d : Daemon) (i : Incoming) (req : Request)
    (cmd : DomainCommand) (tier : IdentityTier) :
    (d.dispatch i req cmd tier).1.idempotency =
      if cmd.isMutating then
        match req.requestId with
        | some id => d.idempotency.insert id (dispatchResponse req.id (i.outcome cmd))
        | none => d.idempotency
      else d.idempotency := by
  rw [Daemon.dispatch]
  split
  · cases req.requestId <;> rfl
  · rfl

theorem Daemon.execute_authorized {d : Daemon} {tier : IdentityTier}
    (hcmd : DomainCommand.parse req.method req.params = .ok cmd)
    (hauth : authorize i.peer cmd req.capabilityToken = .ok tier) :
    d.execute i req = d.dispatch i req cmd tier := by
  simp only [Daemon.execute, hcmd, hauth]

/-- What happens to a request that is not in the cache: it is rejected or fails, it is dispatched
without leaving a trace in the cache, or it is accepted and its response is stored. -/
theorem Daemon.execute_cases (d : Daemon) (i : Incoming) (req : Request) :
    (d.execute i req).1.idempotency = d.idempotency ∧ (∀ id cmd, ¬ Accepts i req id cmd) ∨
      ∃ id cmd, Accepts i req id cmd ∧
        (d.execute i req).1.idempotency =
          d.idempotency.insert id (dispatchResponse req.id (i.outcome cmd)) := by
  unfold Accepts
  rcases hparse : DomainCommand.parse req.method req.params with e | cmd
  · exact .inl ⟨by simp only [Daemon.execute, hparse, Daemon.log], by simp⟩
  · rcases hauth : authorize i.peer cmd req.capabilityToken with e | tier
    · refine .inl ⟨by simp only [Daemon.execute, hparse, hauth, Daemon.log], ?_⟩
      rintro id cmd' ⟨-, hcmd, -, tier, htier⟩
      obtain rfl := Except.ok.inj hcmd
      rw [hauth] at htier
      cases htier
    · rw [Daemon.execute_authorized hparse hauth, Daemon.dispatch_idempotency]
      rcases hmut : cmd.isMutating with - | -
      · refine .inl ⟨rfl, ?_⟩
        rintro id cmd' ⟨-, hcmd, hm, -⟩
        obtain rfl := Except.ok.inj hcmd
        rw [hmut] at hm
        cases hm
      · rcases hid : req.requestId with - | id
        · refine .inl ⟨rfl, ?_⟩
          rintro id cmd' ⟨hno, -⟩
          cases hno
        · exact .inr ⟨id, cmd, ⟨rfl, rfl, hmut, tier, hauth⟩, rfl⟩

theorem Daemon.execute_rejected {d : Daemon} {e : ControlError}
    (hcmd : DomainCommand.parse req.method req.params = .ok cmd)
    (hauth : authorize i.peer cmd req.capabilityToken = .error e) :
    (d.execute i req).2 = .failure req.id 403 e.display := by
  simp [Daemon.execute, hcmd, hauth]

/-! ## Histories -/

/-- A request whose response was stored: who sent it, what was asked, and what came of it. -/
structure Remembered where
  requestId : String
  peer : PeerCredentials
  command : DomainCommand
  responseId : UInt64
  outcome : Except ControlError Json

/-- The response that was stored. -/
def Remembered.response (e : Remembered) : Response := dispatchResponse e.responseId e.outcome

/-- The dispatch of the request succeeded. -/
def Remembered.Succeeded (e : Remembered) : Prop := ∃ value, e.outcome = .ok value

/-- The daemon, and the requests whose responses it has stored. -/
structure History where
  daemon : Daemon
  remembered : List Remembered

/-- The entry that the request adds to the history if it is not answered from the cache. -/
def rememberedEntry (i : Incoming) (req : Request) : Option Remembered :=
  match req.requestId, DomainCommand.parse req.method req.params with
  | some id, .ok cmd =>
    if cmd.isMutating then
      match authorize i.peer cmd req.capabilityToken with
      | .ok _ => some ⟨id, i.peer, cmd, req.id, i.outcome cmd⟩
      | .error _ => none
    else none
  | _, _ => none

/-- One request.  The history grows by the requests that are accepted on a cache miss. -/
def History.step (fromStr : Decoder) (s : History) (i : Incoming) : History where
  daemon := (s.daemon.processRequest fromStr i).1
  remembered :=
    match requestOf fromStr i with
    | none => s.remembered
    | some req =>
      match req.requestId.bind s.daemon.idempotency.get with
      | some _ => s.remembered
      | none => s.remembered ++ (rememberedEntry i req).toList

/-- What the peer is answered. -/
def History.respond (fromStr : Decoder) (s : History) (i : Incoming) : Response :=
  (s.daemon.processRequest fromStr i).2

/-- A new daemon. -/
def History.start : History := { daemon := .new, remembered := [] }

theorem rememberedEntry_eq_some {id : String} (h : Accepts i req id cmd) :
    rememberedEntry i req = some ⟨id, i.peer, cmd, req.id, i.outcome cmd⟩ := by
  obtain ⟨hid, hcmd, hmut, tier, hauth⟩ := h
  simp [rememberedEntry, hid, hcmd, hmut, hauth]

theorem rememberedEntry_eq_none (h : ∀ id cmd, ¬ Accepts i req id cmd) :
    rememberedEntry i req = none := by
  rw [rememberedEntry]
  split
  · next id cmd hid hcmd =>
    split
    · next hmut =>
      split
      · next tier hauth => exact absurd ⟨hid, hcmd, hmut, tier, hauth⟩ (h id cmd)
      · rfl
    · rfl
  · rfl

/-- The entry of the cache for a stored request. -/
def Remembered.cached (e : Remembered) : String × Response := (e.requestId, e.response)

/-- The cache holds the responses of the last 1024 stored requests. -/
structure History.Inv (s : History) : Prop where
  capacity : s.daemon.idempotency.capacity = defaultCapacity
  holds : s.daemon.idempotency.Holds
    (Fifo.recent defaultCapacity (s.remembered.map Remembered.cached))

theorem History.inv_start : History.start.Inv := ⟨rfl, Fifo.represents_empty⟩

variable {s : History}

/-- **One request keeps the invariant.**  A response is stored only on a cache miss, so its id is
new. -/
theorem History.Inv.step (h : s.Inv) (i : Incoming) : (s.step fromStr i).Inv := by
  unfold History.step Daemon.processRequest requestOf
  rcases hdec : fromStr (Text.trim i.line) with e | req
  · exact ⟨h.capacity, h.holds⟩
  · simp only [Except.toOption]
    cases hget : req.requestId.bind s.daemon.idempotency.get with
    | some cached => exact ⟨h.capacity, h.holds⟩
    | none =>
      rcases s.daemon.execute_cases i req with ⟨hsame, hno⟩ | ⟨id, cmd, hacc, hins⟩
      · rw [rememberedEntry_eq_none hno]
        refine ⟨?_, ?_⟩
        · dsimp only
          rw [hsame]
          exact h.capacity
        · simpa [hsame] using h.holds
      · rw [rememberedEntry_eq_some hacc]
        have hnew : id ∉ (Fifo.recent defaultCapacity
            (s.remembered.map Remembered.cached)).map Prod.fst := by
          rw [← Fifo.get_eq_none, ← h.holds.get]
          simpa [hacc.1] using hget
        have hholds := h.holds.insert id (dispatchResponse req.id (i.outcome cmd))
        rw [h.capacity, Fifo.insert_recent (by decide) _ hnew] at hholds
        refine ⟨?_, ?_⟩
        · dsimp only
          rw [hins, IdempotencyStore.insert_capacity]
          exact h.capacity
        · dsimp only
          rw [hins, Option.toList_some, List.map_append, List.map_singleton]
          exact hholds

/-! ## What a rejected peer is told -/

/-- A rejected peer does not get a success. -/
def NeverOk (fromStr : Decoder) (s : History) (i : Incoming) : Prop :=
  Rejected fromStr i → (s.respond fromStr i).ok = false

/-- A rejected request does not repeat the id of a recent request that succeeded. -/
def NoRepeat (fromStr : Decoder) (s : History) (i : Incoming) : Prop :=
  Rejected fromStr i → ∀ req, requestOf fromStr i = some req →
    ∀ e ∈ Fifo.recent defaultCapacity s.remembered, req.requestId = some e.requestId → ¬ e.Succeeded

theorem Remembered.response_ok {e : Remembered} : e.response.ok = true ↔ e.Succeeded := by
  unfold Remembered.response Remembered.Succeeded
  cases e.outcome with
  | ok value => exact ⟨fun _ => ⟨value, rfl⟩, fun _ => rfl⟩
  | error err =>
    refine ⟨fun h => ?_, ?_⟩
    · cases h
    · rintro ⟨value, h⟩
      cases h

theorem map_recent {α β : Type} (f : α → β) (c : Nat) (l : List α) :
    Fifo.recent c (l.map f) = (Fifo.recent c l).map f := by
  rw [Fifo.recent, Fifo.recent, List.map_drop, List.length_map]

/-- What the cache has for an id is the response of a recent stored request. -/
theorem History.Inv.get_eq_some (h : s.Inv) {id : String} {r : Response} :
    s.daemon.idempotency.get id = some r ↔
      ∃ e ∈ Fifo.recent defaultCapacity s.remembered, e.requestId = id ∧ e.response = r := by
  rw [h.holds.get, Fifo.get_eq_some h.holds.nodup, map_recent, List.mem_map]
  simp only [Remembered.cached, Prod.mk.injEq]

/-- **One request**: the answer to a rejected peer is a success exactly if it comes from the cache,
as the response to an earlier request that succeeded. -/
theorem History.Inv.neverOk_iff (h : s.Inv) (i : Incoming) :
    NeverOk fromStr s i ↔ NoRepeat fromStr s i := by
  refine imp_congr_right fun hrej => ?_
  obtain ⟨req, cmd, e, hreq, hcmd, hauth⟩ := hrej
  have hdec := requestOf_eq_some.1 hreq
  unfold History.respond Daemon.processRequest
  simp only [hdec, hreq, Option.some.injEq, forall_eq']
  rcases hid : req.requestId with - | id
  · simp [Daemon.execute_rejected hcmd hauth, Response.failure]
  · simp only [Option.bind_some, Option.some.injEq]
    rcases hget : s.daemon.idempotency.get id with - | r
    · simp only [Daemon.execute_rejected hcmd hauth, Response.failure, true_iff]
      rintro a ha rfl
      have hhit := h.get_eq_some.2 ⟨a, ha, rfl, rfl⟩
      rw [hget] at hhit
      cases hhit
    · obtain ⟨a, ha, hida, hresp⟩ := h.get_eq_some.1 hget
      constructor
      · intro hok b hb hidb hsucc
        have hhit := h.get_eq_some.2 ⟨b, hb, hidb.symm, rfl⟩
        rw [hget] at hhit
        rw [hhit, Remembered.response_ok.2 hsucc] at hok
        cases hok
      · intro hno
        have hfail := hno a ha hida.symm
        rw [← Remembered.response_ok, hresp] at hfail
        simpa using hfail

/-- **Who is told that it succeeded.**  Along every sequence of requests from arbitrary peers, no
peer is answered `ok` to a request that the authoriser rejects exactly if no rejected request
repeats the id of one of the last 1024 stored requests whose dispatch succeeded. -/
theorem rejected_never_ok_iff (fromStr : Decoder) (requests : List Incoming) :
    Along (History.step fromStr) (NeverOk fromStr) History.start requests ↔
      Along (History.step fromStr) (NoRepeat fromStr) History.start requests :=
  along_iff (I := History.Inv) (H := fun _ _ => True) (fun _ i h _ _ => h.step i)
    (fun _ i h _ => h.neverOk_iff i) History.inv_start (along_trivial _ _)

/-! ## Another peer's reboot -/

def sampleLine : String :=
  "\x7b\"id\":12,\"method\":\"system.reboot\",\"request_id\":\"uuid-test-1\"\x7d"

def sampleDecoder : Decoder := fun line =>
  if line = sampleLine.toList then
    .ok { id := 12, method := "system.reboot", requestId := some "uuid-test-1" }
  else .error "expected value at line 1 column 1"

/-- The line from a peer; the providers do what they are asked. -/
def sampleIncoming (uid : UInt32) : Incoming where
  peer := ⟨42, uid, uid⟩
  line := sampleLine.toList
  now := 0
  outcome _ := .ok (.object [("message", .string "Reboot initiated")])

/-- Root reboots.  User 1000 sends the same line, which the authoriser rejects, and is answered that
the reboot was initiated. -/
theorem cached_for_another_peer :
    Rejected sampleDecoder (sampleIncoming 1000) ∧
      ((History.start.step sampleDecoder (sampleIncoming 0)).respond sampleDecoder
        (sampleIncoming 1000)).ok = true := by
  refine ⟨⟨_, .systemReboot, _, rfl, rfl, rfl⟩, by decide +kernel⟩

end Control
