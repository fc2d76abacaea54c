import Mathlib.Data.List.TakeWhile
import MahinaOS.Lib.JsonText
import MahinaOS.LunaInit.Requests

/-!
# luna-init: the control socket

A client of the control socket writes one request, a flat JSON object with the members `cmd` and
`name`, and reads the reply.  `json_get_field` finds a member by searching the text for its key, and
the handlers put their replies together with `snprintf`.

Requests and replies are bytes.  A C string in the service table is the `String` that has its bytes
as code points (`cText`, `cBytes`).

* `jsonGetField`, the handlers and `dispatch` are the code; `serve` is `dispatch` after the two
  members have been extracted.
* **`handleList_fits_iff`**: when the list of the services fits into its buffer.
-/

namespace LunaInit

open JsonText List

/-! ## C strings -/

/-- The text in the service table with the given bytes. -/
def cText (bs : Bytes) : String := String.ofList (bs.map fun b => Char.ofNat b.toNat)

/-- The bytes of a text in the service table. -/
def cBytes (s : String) : Bytes := s.toList.map fun c => UInt8.ofNat c.toNat

/-- The part of a buffer up to the first NUL. -/
def cString (buf : Bytes) : Bytes := buf.takeWhile fun b => b ≠ 0

/-- `snprintf` into an array of `size` bytes, and `strlen` of what is in it then. -/
def snprintf (size : Nat) (text : Bytes) : Bytes := text.take (size - 1)

/-- `write` of the first `n` bytes of a literal, which has a NUL at its end. -/
def writeLiteral (literal : String) (n : Nat) : Bytes := (utf8 literal ++ [0]).take n

/-! ## The request -/

/-- `strstr`, and past the needle. -/
def afterNeedle (needle : Bytes) : Bytes → Option Bytes
  | [] => none
  | b :: bs =>
    if needle.isPrefixOf (b :: bs) then some ((b :: bs).drop needle.length)
    else afterNeedle needle bs

/-- `json_get_field` into a zeroed array of 64 bytes.  Where it returns `NULL` the array stays as it
is. -/
def jsonGetField (json : Bytes) (field : String) : Bytes :=
  match afterNeedle (34 :: (utf8 field ++ [34, 58])) json with
  | none => []
  | some p =>
    match p.dropWhile fun b => b = 32 with
    | [] => []
    | b :: rest => if b = 34 then (rest.takeWhile fun b => b ≠ 34).take 63 else []

/-! ## The replies -/

/-- What a handler does: the bytes it writes to the client (`none` if its text is longer than the
array it is put together in, and is cut off or runs over the end of it), the supervisor it leaves
with the calls of `spawn_service`, the processes that get a SIGHUP, and whether the machine goes
down. -/
structure Served where
  written : Option Bytes
  sup : Supervisor
  attempts : List Attempt := []
  hups : List Nat := []
  down : Bool := false

/-- One byte of `json_str_escape`. -/
def escapeByte (c : UInt8) : Bytes := if c = 34 ∨ c = 92 then [92, c] else [c]

/-- The loop of `json_str_escape`, with `out` bytes written. -/
def escapeFrom (size : Nat) : Nat → Bytes → Bytes
  | _, [] => []
  | out, c :: cs =>
    if out + 4 < size then escapeByte c ++ escapeFrom size (out + (escapeByte c).length) cs
    else []

/-- `json_str_escape`. -/
def jsonStrEscape (size : Nat) (src : Bytes) : Bytes := escapeFrom size 0 src

/-- `service_state_name`. -/
def serviceStateName : ServiceState → Bytes
  | .pending => utf8 "PENDING"
  | .starting => utf8 "STARTING"
  | .running => utf8 "RUNNING"
  | .degraded => utf8 "DEGRADED"
  | .stopping => utf8 "STOPPING"
  | .stopped => utf8 "STOPPED"
  | .failed => utf8 "FAILED"

/-- The text for one service in the reply to `list`. -/
def entryText (s : Service) : Bytes :=
  utf8 "\x7b\"name\":\"" ++ (jsonStrEscape 128 (cBytes s.name) ++ (utf8 "\",\"state\":\"" ++
    (serviceStateName s.state ++ (utf8 "\",\"pid\":" ++ (decimal s.pid ++ utf8 "\x7d")))))

/-- The texts of the first `n` services. -/
def entriesText (t : Table) (n : Nat) : Bytes :=
  (range n).flatMap fun i => (if 0 < i then utf8 "," else []) ++ entryText (t.svc i)

def listText (t : Table) : Bytes :=
  utf8 "\x7b\"ok\":true,\"services\":[" ++ (entriesText t t.count ++ utf8 "]\x7d\n")

/-- `handle_list`.  A text of 4096 bytes or more is cut off by `snprintf`, and what is written after
it goes behind the end of the array. -/
def handleList (sup : Supervisor) : Served where
  written := if (listText sup.table).length < 4096 then some (listText sup.table) else none
  sup := sup

def countState (t : Table) (st : ServiceState) : Nat :=
  (range t.count).countP fun i => (t.svc i).state = st

def overallText (t : Table) : Bytes :=
  utf8 "\x7b\"ok\":true,\"running\":" ++ (decimal (countState t .running) ++
    (utf8 ",\"degraded\":" ++ (decimal (countState t .degraded) ++
      (utf8 ",\"stopped\":" ++ (decimal (countState t .stopped) ++ utf8 "\x7d\n")))))

def statusText (s : Service) : Bytes :=
  utf8 "\x7b\"ok\":true,\"name\":\"" ++ (cBytes s.name ++ (utf8 "\",\"state\":\"" ++
    (serviceStateName s.state ++ (utf8 "\",\"pid\":" ++ (decimal s.pid ++
      (utf8 ",\"restart_count\":" ++ (decimal s.restartCount ++ utf8 "\x7d\n")))))))

variable (env : PumpEnv) (name : Bytes) (sup : Supervisor)

/-- `handle_status`. -/
def handleStatus : Served where
  written :=
    if name = [] then some (snprintf 256 (overallText sup.table))
    else
      match serviceFind sup.table (cText name) with
      | none => some (snprintf 256 (utf8 "\x7b\"ok\":false,\"error\":\"service not found\"\x7d\n"))
      | some i => some (snprintf 512 (statusText (sup.table.svc i)))
  sup := sup

def okReply : Bytes := writeLiteral "\x7b\"ok\":true\x7d\n" 12

/-- The reply to a request without a name.  The text has 37 bytes. -/
def nameRequired : Bytes := writeLiteral "\x7b\"ok\":false,\"error\":\"name required\"\x7d\n" 38

def failedText : Bytes :=
  utf8 "\x7b\"ok\":false,\"error\":\"failed to start " ++ (name ++ utf8 "\"\x7d\n")

/-- `handle_start`. -/
def handleStart : Served :=
  if name = [] then { written := some nameRequired, sup := sup }
  else
    let r := supervisorStartOne env (cText name) sup
    { written := some (if r.2 then okReply else snprintf 256 (failedText name))
      sup := r.1.1
      attempts := r.1.2 }

/-- `handle_stop`. -/
def handleStop : Served :=
  if name = [] then { written := some nameRequired, sup := sup }
  else { written := some okReply, sup := supervisorStopOne (cText name) sup }

def notRunning : Bytes := writeLiteral "\x7b\"ok\":false,\"error\":\"service not running\"\x7d\n" 43

/-- `handle_reload`. -/
def handleReload : Served :=
  match serviceFind sup.table (cText name) with
  | none => { written := some notRunning, sup := sup }
  | some i =>
    if (sup.table.svc i).pid = 0 then { written := some notRunning, sup := sup }
    else { written := some okReply, sup := sup, hups := [(sup.table.svc i).pid] }

/-- `handle_stop` and then `handle_start`, as `restart` calls them. -/
def handleRestart : Served :=
  let stop := handleStop name sup
  let start := handleStart env name stop.sup
  { start with written := stop.written.bind fun a => start.written.map (a ++ ·) }

def unknownText (cmd : Bytes) : Bytes :=
  utf8 "\x7b\"ok\":false,\"error\":\"unknown command: " ++ (cmd ++ utf8 "\"\x7d\n")

/-- The commands that `dispatch` knows. -/
inductive CtlCommand
  | list
  | status
  | start
  | stop
  | reload
  | restart
  | shutdown
  | reboot
  | unknown
  deriving DecidableEq, Repr

def ctlCommand (cmd : Bytes) : CtlCommand :=
  if cmd = utf8 "list" then .list
  else if cmd = utf8 "status" then .status
  else if cmd = utf8 "start" then .start
  else if cmd = utf8 "stop" then .stop
  else if cmd = utf8 "reload" then .reload
  else if cmd = utf8 "restart" then .restart
  else if cmd = utf8 "shutdown" then .shutdown
  else if cmd = utf8 "reboot" then .reboot
  else .unknown

/-- `dispatch`, when `cmd` and `name` have been extracted: `shutdown` and `reboot` do not return. -/
def serve (cmd name : Bytes) (sup : Supervisor) : Served :=
  match ctlCommand cmd with
  | .list => handleList sup
  | .status => handleStatus name sup
  | .start => handleStart env name sup
  | .stop => handleStop name sup
  | .reload => handleReload name sup
  | .restart => handleRestart env name sup
  | .shutdown =>
    { written := some (writeLiteral "\x7b\"ok\":true,\"msg\":\"shutting down\"\x7d\n" 34)
      sup := sup
      down := true }
  | .reboot =>
    { written := some (writeLiteral "\x7b\"ok\":true,\"msg\":\"rebooting\"\x7d\n" 30)
      sup := sup
      down := true }
  | .unknown => { written := some (snprintf 128 (unknownText cmd)), sup := sup }

def requestCmd (request : Bytes) : Bytes := jsonGetField (cString request) "cmd"

def requestName (request : Bytes) : Bytes := jsonGetField (cString request) "name"

/-- `dispatch`. -/
def dispatch (request : Bytes) (sup : Supervisor) : Served :=
  serve env (requestCmd request) (requestName request) sup

/-- `ctl_server_accept` reads at most 4095 bytes of what the client has written. -/
def ctlServerAccept (input : Bytes) (sup : Supervisor) : Served :=
  if input = [] then { written := some [], sup := sup }
  else dispatch env (input.take 4095) sup

/-! ## The buffer of `handle_list` -/

/-- `len` in `handle_list`, after the first `n` services. -/
def runningLength (t : Table) (n : Nat) : Nat :=
  (utf8 "\x7b\"ok\":true,\"services\":[").length + (entriesText t n).length

theorem entriesText_succ (t : Table) (n : Nat) :
    entriesText t (n + 1) =
      entriesText t n ++ ((if 0 < n then utf8 "," else []) ++ entryText (t.svc n)) := by
  rw [entriesText, range_succ, flatMap_append, flatMap_singleton, entriesText]

/-- The bytes of the entry of a service and the comma after it. -/
def Service.listSize (s : Service) : Nat :=
  30 + (jsonStrEscape 128 (cBytes s.name)).length + (serviceStateName s.state).length +
    (decimal s.pid).length

/-- The bytes of the entries of the first services. -/
def Table.listSize (t : Table) : Nat → Nat
  | 0 => 0
  | n + 1 => t.listSize n + (t.svc n).listSize

theorem length_entriesText (t : Table) (n : Nat) :
    (entriesText t n).length + (if 0 < n then 1 else 0) = t.listSize n := by
  induction n with
  | zero => rfl
  | succ n ih =>
    have hcomma : (if 0 < n then utf8 "," else []).length = if 0 < n then 1 else 0 := by
      split <;> rfl
    have hentry : (entryText (t.svc n)).length + 1 = (t.svc n).listSize := by
      simp only [entryText, length_append, Service.listSize]
      change 9 + (_ + (11 + (_ + (8 + (_ + 1))))) + 1 = _
      omega
    rw [entriesText_succ, length_append, length_append, hcomma, if_pos n.succ_pos, Table.listSize]
    omega

/-- **The reply to `list`** stays in its 4096 bytes, and only what was formatted is written, iff the
entries with their commas have at most 4070 bytes. -/
theorem handleList_fits_iff (sup : Supervisor) :
    ((∀ n ≤ sup.table.count, runningLength sup.table n ≤ 4096) ∧
        (handleList sup).written = some (listText sup.table)) ↔
      sup.table.listSize sup.table.count ≤ 4070 := by
  have hwritten : (handleList sup).written = some (listText sup.table) ↔
      (listText sup.table).length < 4096 := by
    rw [handleList]
    split <;> simp [*]
  have hmono : Monotone fun n => (entriesText sup.table n).length := monotone_nat_of_le_succ
    fun n => by rw [entriesText_succ, length_append]; exact Nat.le_add_right _ _
  have hlength : (listText sup.table).length =
      23 + ((entriesText sup.table sup.table.count).length + 3) := by
    rw [listText, length_append, length_append]
    rfl
  have hsize : (entriesText sup.table sup.table.count).length ≤ 4069 ↔
      sup.table.listSize sup.table.count ≤ 4070 := by
    rw [← length_entriesText]
    rcases sup.table.count with - | n
    · exact iff_of_true (Nat.zero_le _) (Nat.zero_le _)
    · rw [if_pos n.succ_pos]
      omega
  rw [hwritten, hlength, ← hsize]
  refine ⟨fun h => by omega, fun hle => ⟨fun n hn => ?_, by omega⟩⟩
  have hprefix := hmono hn
  change 23 + _ ≤ _
  dsimp only at hprefix
  omega

/-- A table of 32 services, with names of a letter and 62 quotes. -/
theorem list_overruns : ∃ t : Table, t.Distinct ∧
    (∀ i < t.count, (t.svc i).name.length ≤ 63) ∧ 4096 < runningLength t t.count :=
  ⟨⟨32, fun i => { name := String.ofList (Char.ofNat (65 + i) :: replicate 62 '"'), binary := "" },
    by decide⟩, by unfold Table.Distinct; decide +kernel, by decide +kernel, by decide +kernel⟩

end LunaInit
