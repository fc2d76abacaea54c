import MahinaOS.Control.Client
import MahinaOS.Control.Dispatch
import MahinaOS.LunaInit.Ctl

/-!
# Service commands on their way to luna-init

A command on a service is authorized by name in mahina-control and carried out by luna-init, which
gets it as a line of JSON.  `ServiceProvider` writes the line with `format!`, without escaping, and
luna-init looks for its two members in the text and cuts the name off at the first quote, at the
first NUL and after 63 bytes.

`heardName` is what luna-init makes of a name (`request_sent`), and `Untouched` says that it reports
an error and does nothing.

* **`provider_agrees_iff`**: when luna-init gets the command and the name that were authorized, or
  reports an error without acting.
* `provider_other_service`: a stop that was authorized for one name and is carried out on another.
* **`service_call_served`**: a call of the control client, from the client to luna-init.
-/

namespace Control

open LunaInit JsonText List Option

/-! ## The lines -/

/-- A command with a name, as `format!` puts it together. -/
def formatCommand (cmd : String) (name : String) : Bytes :=
  utf8 "\x7b\"cmd\":\"" ++ (utf8 cmd ++ (utf8 "\",\"name\":\"" ++ (utf8 name ++ utf8 "\"\x7d")))

namespace ServiceProvider

def list : Bytes := utf8 "\x7b\"cmd\":\"list\"\x7d"

def status : Option String → Bytes
  | some name => formatCommand "status" name
  | none => utf8 "\x7b\"cmd\":\"status\"\x7d"

def start (name : String) : Bytes := formatCommand "start" name

def stop (name : String) : Bytes := formatCommand "stop" name

def restart (name : String) : Bytes := formatCommand "restart" name

def reload (name : String) : Bytes := formatCommand "reload" name

/-- What `send_command` writes to the socket. -/
def sendCommand (cmdJson : Bytes) : Bytes := cmdJson ++ utf8 "\n"

end ServiceProvider

/-- What the provider sends for a command on services. -/
def DomainCommand.sent : DomainCommand → Option Bytes
  | servicesList => some (ServiceProvider.sendCommand ServiceProvider.list)
  | servicesStatus name => some (ServiceProvider.sendCommand (ServiceProvider.status name))
  | servicesStart name => some (ServiceProvider.sendCommand (ServiceProvider.start name))
  | servicesStop name => some (ServiceProvider.sendCommand (ServiceProvider.stop name))
  | servicesRestart name => some (ServiceProvider.sendCommand (ServiceProvider.restart name))
  | servicesReload name => some (ServiceProvider.sendCommand (ServiceProvider.reload name))
  | _ => none

/-- What is authorized when a command names a service. -/
def DomainCommand.named : DomainCommand → Option (CtlCommand × String)
  | servicesStatus (some name) => some (.status, name)
  | servicesStart name => some (.start, name)
  | servicesStop name => some (.stop, name)
  | servicesRestart name => some (.restart, name)
  | servicesReload name => some (.reload, name)
  | _ => none

/-! ## What luna-init makes of them -/

def endsName (b : UInt8) : Bool := b = 34 || b = 0

def heardName (name : String) : Bytes := ((utf8 name).takeWhile fun b => !endsName b).take 63

theorem takeWhile_take {α : Type} (p : α → Bool) (k : Nat) (l : List α) :
    (l.take k).takeWhile p = (l.takeWhile p).take k := by
  induction l generalizing k with
  | nil => simp
  | cons a l ih =>
    rcases k with - | k
    · simp
    · rw [take_succ_cons, takeWhile_cons, takeWhile_cons]
      split
      · rw [ih, take_succ_cons]
      · rw [take_nil]

/-- The name ends at the quote that `format!` puts behind it, if not before. -/
theorem takeWhile_name (l rest : Bytes) :
    (l ++ 34 :: rest).takeWhile (fun b => !endsName b) = l.takeWhile fun b => !endsName b := by
  induction l with
  | nil => rfl
  | cons b l ih =>
    rw [cons_append, takeWhile_cons, takeWhile_cons, ih]

/-- What the extraction does after the quote in front of the name. -/
theorem heard_value (name : String) {k : Nat} (hk : 63 ≤ k) (rest : Bytes) :
    ((cString ((utf8 name ++ 34 :: rest).take k)).takeWhile fun b => b ≠ 34).take 63 =
      heardName name := by
  have hboth : (fun b : UInt8 => decide (decide (b ≠ 34) = true ∧ decide (b ≠ 0) = true)) =
      fun b => !endsName b := by
    funext b
    simp [endsName]
  rw [cString, takeWhile_take, takeWhile_take, takeWhile_takeWhile, hboth, takeWhile_name,
    take_take, Nat.min_eq_left hk, heardName]

/-- A line up to the name. -/
def untilName (cmd : String) : Bytes := utf8 "\x7b\"cmd\":\"" ++ (utf8 cmd ++ utf8 "\",\"name\":\"")

variable {word : CtlCommand} {cmd : DomainCommand} {name : String}

/-- What luna-init reads of a line, if it finds the two members in what comes before the name. -/
theorem request_format {cmd : String} (hword : ctlCommand (utf8 cmd) = word)
    (hlen : (untilName cmd).length ≤ 64) (hnul : ∀ b ∈ untilName cmd, b ≠ 0)
    (hcmd : ∀ rest, jsonGetField (untilName cmd ++ rest) "cmd" = utf8 cmd)
    (hname : ∀ rest, jsonGetField (untilName cmd ++ rest) "name" =
      (rest.takeWhile fun b => b ≠ 34).take 63) (name : String) :
    let line := ServiceProvider.sendCommand (formatCommand cmd name)
    line ≠ [] ∧ ctlCommand (requestCmd (line.take 4095)) = word ∧
      requestName (line.take 4095) = heardName name := by
  have hline : ServiceProvider.sendCommand (formatCommand cmd name) =
      untilName cmd ++ (utf8 name ++ 34 :: [125, 10]) := by
    simp only [ServiceProvider.sendCommand, formatCommand, untilName, append_assoc]
    rfl
  have hcut : cString ((untilName cmd ++ (utf8 name ++ 34 :: [125, 10])).take 4095) =
      untilName cmd ++ cString ((utf8 name ++ 34 :: [125, 10]).take
        (4095 - (untilName cmd).length)) := by
    rw [take_append, take_of_length_le (by omega), cString,
      takeWhile_append_of_pos (by simpa using hnul), cString]
  refine ⟨cons_ne_nil 123 _, ?_, ?_⟩
  · rw [hline, requestCmd, hcut, hcmd, hword]
  · rw [hline, requestName, hcut, hname]
    exact heard_value name (by omega) [125, 10]

/-- **What luna-init reads** of a line with a name in it. -/
theorem request_sent (h : cmd.named = some (word, name)) :
    ∃ line, cmd.sent = some line ∧ line ≠ [] ∧
      ctlCommand (requestCmd (line.take 4095)) = word ∧
      requestName (line.take 4095) = heardName name := by
  cases cmd with
  | servicesStatus n =>
    rcases n with - | n
    · cases h
    · cases h
      exact ⟨_, rfl, request_format (by decide) (by decide) (by decide +kernel) (fun _ => rfl)
        (fun _ => rfl) name⟩
  | servicesStart | servicesStop | servicesRestart | servicesReload =>
    cases h
    exact ⟨_, rfl, request_format (by decide) (by decide) (by decide +kernel) (fun _ => rfl)
      (fun _ => rfl) name⟩
  | _ => cases h

/-- The name gets through: it has no quote and no NUL in it, and at most 63 bytes. -/
def GetsThrough (name : String) : Prop :=
  (∀ b ∈ utf8 name, b ≠ 34 ∧ b ≠ 0) ∧ (utf8 name).length ≤ 63

instance (name : String) : Decidable (GetsThrough name) := inferInstanceAs (Decidable (_ ∧ _))

theorem heardName_eq_iff : heardName name = utf8 name ↔ GetsThrough name := by
  have hends : (∀ b ∈ utf8 name, (!endsName b) = true) ↔ ∀ b ∈ utf8 name, b ≠ 34 ∧ b ≠ 0 := by
    simp [endsName]
  rw [heardName, GetsThrough, ← hends, ← takeWhile_eq_self_iff]
  constructor
  · intro h
    have hlen : (utf8 name).length ≤ 63 := by
      rw [← h]
      exact length_take_le ..
    refine ⟨?_, hlen⟩
    rwa [take_of_length_le] at h
    exact ((takeWhile_sublist _).length_le).trans hlen
  · rintro ⟨hself, hlen⟩
    rw [hself, take_of_length_le hlen]

/-! ## Errors without an action -/

/-- The reply reports an error, and nothing has been done. -/
structure Untouched (sup : Supervisor) (r : Served) : Prop where
  error : ∃ out, r.written = some out ∧ utf8 "\x7b\"ok\":false,\"error\":\"" <+: out
  sup : r.sup = sup
  attempts : r.attempts = []
  hups : r.hups = []
  down : r.down = false

/-- The names that luna-init refuses. -/
def Refuses (sup : Supervisor) (name : Bytes) : CtlCommand → Prop
  | .start => name = [] ∨ serviceFind sup.table (cText name) = none
  | .stop | .restart => name = []
  | .reload => ∀ i, serviceFind sup.table (cText name) = some i → (sup.table.svc i).pid = 0
  | .status => name ≠ [] ∧ serviceFind sup.table (cText name) = none
  | .list | .shutdown | .reboot | .unknown => False

section

variable {env : PumpEnv} {name : Bytes} {sup : Supervisor} {out : Bytes}

theorem Untouched.isPrefixOf {r : Served} (h : Untouched sup r) (hw : r.written = some out) :
    (utf8 "\x7b\"ok\":false,\"error\":\"").isPrefixOf out = true := by
  obtain ⟨out', hw', hbegins⟩ := h.error
  rw [hw, some.injEq] at hw'
  rw [hw', isPrefixOf_iff_prefix]
  exact hbegins

theorem not_untouched {r : Served} (hw : r.written = some out)
    (hbegins : (utf8 "\x7b\"ok\":false,\"error\":\"").isPrefixOf out = false) :
    ¬ Untouched sup r := fun h =>
  Bool.false_ne_true (hbegins.symm.trans (h.isPrefixOf hw))

theorem untouched_error (h : (utf8 "\x7b\"ok\":false,\"error\":\"").isPrefixOf out = true) :
    Untouched sup { written := some out, sup := sup } :=
  ⟨⟨out, rfl, isPrefixOf_iff_prefix.1 h⟩, rfl, rfl, rfl, rfl⟩

theorem handleStart_untouched_iff : Untouched sup (handleStart env name sup) ↔
    name = [] ∨ serviceFind sup.table (cText name) = none := by
  rw [handleStart]
  split
  · next hname =>
    exact iff_of_true (untouched_error (by decide)) (.inl hname)
  · next hname =>
    rw [or_iff_right hname]
    dsimp only
    rcases hf : serviceFind sup.table (cText name) with - | i
    · rw [supervisorStartOne_of_none hf]
      exact iff_of_true (untouched_error rfl) rfl
    · refine iff_of_false (fun h => ?_) nofun
      have hans : (supervisorStartOne env (cText name) sup).2 = false := by
        by_contra hok
        rw [Bool.not_eq_false] at hok
        rw [hok, if_pos rfl] at h
        exact not_untouched rfl (by decide) h
      cases hactive : (sup.table.svc i).active with
      | true =>
        rw [supervisorStartOne_of_active hf hactive] at hans
        cases hans
      | false =>
        -- an error means that the service was to be spawned
        have hattempts : (supervisorStartOne env (cText name) sup).1.2 = [] := h.attempts
        rw [supervisorStartOne_of_idle hf hactive] at hattempts
        have hmem : i ∉ attempted (supervisorPump env (asked sup i)).2 := by
          simp [hattempts, attempted]
        rw [supervisorStartOne_answer hf hactive, supervisorPump_of_not_attempted hmem,
          polled_asked] at hans
        cases hans

theorem handleStop_untouched_iff : Untouched sup (handleStop name sup) ↔ name = [] := by
  rw [handleStop]
  split
  · next hname =>
    exact iff_of_true (untouched_error (by decide)) hname
  · next hname => exact iff_of_false (not_untouched rfl (by decide)) hname

theorem handleRestart_untouched_iff : Untouched sup (handleRestart env name sup) ↔ name = [] := by
  by_cases hname : name = []
  · refine iff_of_true ?_ hname
    have hrestart : handleRestart env name sup =
        { written := some (nameRequired ++ nameRequired), sup := sup } := by
      simp [handleRestart, handleStop, handleStart, if_pos hname, bind_some, map_some]
    rw [hrestart]
    exact untouched_error (by decide)
  · refine iff_of_false (fun h => ?_) hname
    simp only [handleRestart, handleStop, handleStart, if_neg hname] at h
    exact not_untouched rfl rfl h

theorem handleReload_untouched_iff : Untouched sup (handleReload name sup) ↔
    ∀ i, serviceFind sup.table (cText name) = some i → (sup.table.svc i).pid = 0 := by
  rw [handleReload]
  rcases hf : serviceFind sup.table (cText name) with - | i
  · exact iff_of_true (untouched_error (by decide)) nofun
  · simp only [some.injEq, forall_eq']
    split
    · next hpid =>
      exact iff_of_true (untouched_error (by decide)) hpid
    · next hpid => exact iff_of_false (not_untouched rfl (by decide)) hpid

theorem handleStatus_untouched_iff : Untouched sup (handleStatus name sup) ↔
    name ≠ [] ∧ serviceFind sup.table (cText name) = none := by
  by_cases hname : name = []
  · refine iff_of_false ?_ fun h => h.1 hname
    exact not_untouched (if_pos hname) rfl
  · rw [and_iff_right hname]
    rcases hf : serviceFind sup.table (cText name) with - | i
    · rw [handleStatus, if_neg hname, hf]
      exact iff_of_true (untouched_error (by decide)) rfl
    · have hw : (handleStatus name sup).written =
          some (snprintf 512 (statusText (sup.table.svc i))) := by
        rw [handleStatus, if_neg hname, hf]
      exact iff_of_false (not_untouched hw rfl) nofun

end

/-- luna-init gets the command and the name, or it reports an error without acting. -/
def Agrees (env : PumpEnv) (sup : Supervisor) (line : Bytes) (word : CtlCommand)
    (name : String) : Prop :=
  (ctlCommand (requestCmd (line.take 4095)), requestName (line.take 4095)) = (word, utf8 name) ∨
    Untouched sup (ctlServerAccept env line sup)

theorem DomainCommand.named_word (h : cmd.named = some (word, name)) :
    word = .status ∨ word = .start ∨ word = .stop ∨ word = .restart ∨ word = .reload := by
  cases cmd with
  | servicesStatus n =>
    rcases n with - | n
    · cases h
    · cases h
      simp
  | servicesStart | servicesStop | servicesRestart | servicesReload =>
    cases h
    simp
  | _ => cases h

/-- **When the two sides agree on a command.**  luna-init extracts the command and the name that
were authorized, or it reports an error without acting, exactly if the name gets through, or
luna-init refuses what is left of it. -/
theorem provider_agrees_iff {cmd : DomainCommand} {word : CtlCommand} {name : String}
    (h : cmd.named = some (word, name)) {line : Bytes} (hsent : cmd.sent = some line)
    (env : PumpEnv) (sup : Supervisor) :
    Agrees env sup line word name ↔ GetsThrough name ∨ Refuses sup (heardName name) word := by
  obtain ⟨line', hline, hne, hcmd, hname⟩ := request_sent h
  obtain rfl : line' = line := some.inj (hline.symm.trans hsent)
  have haccept : ctlServerAccept env line' sup =
      serve env (requestCmd (line'.take 4095)) (heardName name) sup := by
    rw [ctlServerAccept, if_neg hne, dispatch, hname]
  rw [Agrees, haccept, serve, hcmd, hname, Prod.mk.injEq, and_iff_right rfl, heardName_eq_iff]
  refine or_congr_right ?_
  rcases DomainCommand.named_word h with rfl | rfl | rfl | rfl | rfl
  · exact handleStatus_untouched_iff
  · exact handleStart_untouched_iff
  · exact handleStop_untouched_iff
  · exact handleRestart_untouched_iff
  · exact handleReload_untouched_iff

/-- A plain name gets through. -/
theorem provider_agrees_network :
    Agrees (forkingEnv 100 41) (loaded sampleNet)
      (ServiceProvider.sendCommand (ServiceProvider.start "network")) .start "network" :=
  (@provider_agrees_iff (.servicesStart "network") .start "network" rfl _ rfl (forkingEnv 100 41)
    (loaded sampleNet)).2 (.inl (by decide +kernel))

/-- `network` and `sshd` have been started.  A stop is authorized for another name, which begins
with `network` and a quote; luna-init stops `network`, and says that it did what it was told. -/
theorem provider_other_service :
    let sup := (supervisorStartAll (forkingEnv 100 41) (loaded sampleNet)).1
    let line := ServiceProvider.sendCommand (ServiceProvider.stop "network\"-test")
    let r := ctlServerAccept (forkingEnv 200 42) line sup
    (DomainCommand.servicesStop "network\"-test").sent = some line ∧
    requestName (line.take 4095) = utf8 "network" ∧
    (sup.table.svc 0).name = "network" ∧ (sup.table.svc 0).pid = 41 ∧
    (r.sup.table.svc 0).state = .stopped ∧ (r.sup.table.svc 0).pid = 0 ∧
    r.written = some (utf8 "\x7b\"ok\":true\x7d\n") := by
  decide +kernel

/-! ## From end to end -/

/-- **What is asked for is what is done.**  A call of the client on a service whose name gets
through, if the daemon allows it to the peer, is dispatched in every state of the daemon; and
luna-init, in any state, serves the line that is sent for it as that command on that very name. -/
theorem service_call_served {fromStr : Decoder} {i : Incoming} {client : ControlClient}
    {c : ClientCall} (hreq : requestOf fromStr i = some (c.send client).1) {word : CtlCommand}
    {name : String} (hnamed : c.command.named = some (word, name)) (hname : GetsThrough name)
    (hauth : ∃ tier, authorize i.peer c.command (c.send client).1.capabilityToken = .ok tier)
    (d : Daemon) (env : PumpEnv) (sup : Supervisor) {cmd : Bytes}
    (hcmd : ctlCommand cmd = word) :
    d.dispatched fromStr i = some c.command ∧ ∃ line, c.command.sent = some line ∧
      ctlServerAccept env line sup = serve env cmd (utf8 name) sup := by
  constructor
  · refine (Daemon.dispatched_eq_some hreq).2 ⟨by rw [c.requestId_send client]; rfl, ?_, hauth⟩
    cases c with
    | servicesStatus n => cases n <;> rfl
    | servicesStart | servicesStop | servicesRestart | servicesReload => rfl
    | _ => cases hnamed
  · obtain ⟨line, hsent, hne, hword, hheard⟩ := request_sent hnamed
    refine ⟨line, hsent, ?_⟩
    rw [ctlServerAccept, if_neg hne, LunaInit.dispatch, hheard, heardName_eq_iff.2 hname, serve,
      serve, hword, hcmd]
    -- only the answer to an unknown word repeats the word as it was sent
    rcases DomainCommand.named_word hnamed with rfl | rfl | rfl | rfl | rfl <;> rfl

/-- Root starts `network`. -/
theorem service_call_served_network :
    Daemon.new.dispatched (fun _ => .ok ((ClientCall.servicesStart "network" none).send .connect).1)
        (sampleIncoming 0) = some (.servicesStart "network") ∧
      ∃ line, (DomainCommand.servicesStart "network").sent = some line ∧
        ctlServerAccept (forkingEnv 100 41) line (loaded sampleNet) =
          serve (forkingEnv 100 41) (utf8 "start") (utf8 "network") (loaded sampleNet) :=
  service_call_served
    (show requestOf _ _ = some ((ClientCall.servicesStart "network" none).send .connect).1 from rfl)
    rfl (by decide +kernel) ⟨_, rfl⟩ .new (forkingEnv 100 41) (loaded sampleNet) (by decide)

end Control
