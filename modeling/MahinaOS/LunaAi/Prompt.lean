import MahinaOS.LunaAi.Json

/-!
# luna-ai-d: from a client's command to the model server

A client sends a JSON object; `handleClientData` looks for its `cmd` and answers, changes the mode,
or hands the `text` of a prompt to `inference_prompt`, which puts it into a JSON payload and that
into an HTTP request.

The text is taken from the command as it stands there, up to the first quote, and is escaped as if
it were the text itself.  So an escape sequence in the command is not undone: the model gets a
backslash and a letter, and a quote ends the prompt.

* `carries_iff`: the payload carries the prompt if the two members are found and what stands between
  the quotes is the text that was meant.
* **`prompt_carried_iff`**: when the search reaches the member, this is so exactly for the texts
  that are written without a backslash.
* `escapes_lost`: a quoted word, and a newline.
-/

namespace LunaAi

open JsonText CText List

/-! ## The mode -/

/-- `ai_mode_t` -/
inductive AiMode
  | ambient
  | devshell
  | focus
  | study
  | creative
  deriving DecidableEq, Repr

def aiModeToString : AiMode → Bytes
  | .ambient => utf8 "AMBIENT"
  | .devshell => utf8 "DEVSHELL"
  | .focus => utf8 "FOCUS"
  | .study => utf8 "STUDY"
  | .creative => utf8 "CREATIVE"

def tolower (c : UInt8) : UInt8 := if 65 ≤ c ∧ c ≤ 90 then c + 32 else c

/-- `presence_update_active_app` -/
def presenceUpdateActiveApp (appName : Bytes) : AiMode :=
  let buf := (appName.take 127).map tolower
  let has (word : String) : Bool := (after (utf8 word) buf).isSome
  if appName = [] then .ambient
  else if has "terminal" || has "shell" || has "code" then .devshell
  else if has "tasks" || has "calc" || has "math" then .focus
  else if has "text" || has "writer" || has "draw" || has "paint" then .creative
  else if has "browser" || has "study" || has "web" then .study
  else .ambient

example : presenceUpdateActiveApp (utf8 "Luna Terminal") = .devshell := by decide +kernel

/-! ## Commands -/

/-- The clients in the order of `g_clients`, and `g_current_mode`. -/
structure Daemon where
  clients : List Nat
  mode : AiMode

/-- What happens on the descriptors.  `prompt` is the call of `inference_prompt`. -/
inductive Act
  | write (fd : Nat) (bytes : Bytes)
  | prompt (fd : Nat) (text : Bytes)
  | close (fd : Nat)
  deriving DecidableEq, Repr

/-- `remove_client`: the last client takes the free place. -/
def removeClient (d : Daemon) (fd : Nat) : Daemon × List Act :=
  match d.clients.idxOf? fd with
  | none => (d, [])
  | some i =>
    ({ d with clients := (d.clients.set i (d.clients.getLastD fd)).dropLast }, [.close fd])

def modeText (mode : AiMode) : Bytes :=
  utf8 "\x7b\"type\":\"mode\",\"mode\":\"" ++ (aiModeToString mode ++ utf8 "\"\x7d\n")

/-- The text of an error, and how much of it the call of `write` names. -/
def errorText (text : String) (count : Nat) : Bytes :=
  (utf8 "\x7b\"type\":\"error\",\"text\":\"" ++ (utf8 text ++ utf8 "\"\x7d\n")).take count

/-- `broadcast_mode` -/
def broadcastMode (d : Daemon) : List Act := d.clients.map fun fd => .write fd (modeText d.mode)

def setActiveApp (d : Daemon) (fd : Nat) (app : Bytes) : Daemon × List Act :=
  let d' := { d with mode := presenceUpdateActiveApp app }
  (d', if d.mode ≠ d'.mode then broadcastMode d' else [.write fd (modeText d'.mode)])

/-- What `read` leaves in `buf`, as a string. -/
def received (msg : Bytes) : Bytes := cut (msg.take 2047)

def runCommand (d : Daemon) (fd : Nat) (buf cmd : Bytes) : Daemon × List Act :=
  if cmd = utf8 "get_mode" then (d, [.write fd (modeText d.mode)])
  else if cmd = utf8 "set_active_app" then
    match extractJsonStr buf (utf8 "app") 128 with
    | some app => setActiveApp d fd app
    | none => (d, [.write fd (errorText "missing app field" 44)])
  else if cmd = utf8 "prompt" then
    match extractJsonStr buf (utf8 "text") 2048 with
    | some text => (d, [.prompt fd text])
    | none => (d, [.write fd (errorText "missing text field" 45)])
  -- one byte less than there is: the reply has no newline
  else (d, [.write fd (errorText "unknown command" 41)])

/-- `handle_client_data`, when `read` gets the bytes of `msg`. -/
def handleClientData (d : Daemon) (fd : Nat) (msg : Bytes) : Daemon × List Act :=
  if msg = [] then removeClient d fd
  else
    match extractJsonStr (received msg) (utf8 "cmd") 64 with
    | none => (d, [.write fd (errorText "invalid json: missing cmd" 52)])
    | some cmd => runCommand d fd (received msg) cmd

/-- The members that make a command a prompt are found in the message. -/
structure Prompts (msg text : Bytes) : Prop where
  cmd : extractJsonStr (received msg) (utf8 "cmd") 64 = some (utf8 "prompt")
  text : extractJsonStr (received msg) (utf8 "text") 2048 = some text

theorem prompt_mem_runCommand_iff (d : Daemon) (fd : Nat) (buf cmd text : Bytes) :
    Act.prompt fd text ∈ (runCommand d fd buf cmd).2 ↔
      cmd = utf8 "prompt" ∧ extractJsonStr buf (utf8 "text") 2048 = some text := by
  have hmode : utf8 "prompt" ≠ utf8 "get_mode" := by decide
  have happ : utf8 "prompt" ≠ utf8 "set_active_app" := by decide
  rw [runCommand]
  split_ifs with h₁ h₂ h₃
  · simp [h₁, hmode.symm]
  · rw [h₂]
    refine iff_of_false ?_ fun h => happ h.1.symm
    split
    · rw [setActiveApp]
      split_ifs <;> simp [broadcastMode]
    · simp
  · split
    · next htext => simp [h₃, htext, eq_comm]
    · next htext => simp [htext]
  · simp [h₃]

theorem prompt_mem_iff (d : Daemon) (fd : Nat) (msg text : Bytes) :
    Act.prompt fd text ∈ (handleClientData d fd msg).2 ↔ Prompts msg text := by
  rw [handleClientData]
  split_ifs with hmsg
  · refine iff_of_false ?_ fun h => ?_
    · rw [removeClient]
      split <;> simp
    · rw [hmsg] at h
      cases h.cmd
  · split
    · next hcmd =>
      refine iff_of_false (by simp) fun h => ?_
      cases hcmd.symm.trans h.cmd
    · next cmd hcmd =>
      rw [prompt_mem_runCommand_iff]
      refine ⟨fun h => ⟨h.1 ▸ hcmd, h.2⟩, fun h => ⟨?_, h.text⟩⟩
      exact Option.some.inj (hcmd.symm.trans h.cmd)

/-! ## The request -/

def payloadText (model prompt : Bytes) : Bytes :=
  utf8 "\x7b\"model\":\"" ++ (model ++ (utf8 "\",\"prompt\":\"" ++
    (prompt ++ utf8 "\",\"stream\":true\x7d")))

/-- The payload `inference_prompt` puts together, in an array of 8192 bytes. -/
def payload (model prompt : Bytes) : Bytes :=
  (payloadText model (escapeJsonString prompt 4096)).take 8191

def payloadValue (model prompt : Bytes) : Value :=
  .object [(utf8 "model", .string model), (utf8 "prompt", .string prompt),
    (utf8 "stream", .bool true)]

theorem payloadText_eq (model prompt : Bytes) :
    payloadText model prompt = print (payloadValue model prompt) := by
  simp only [payloadValue, print, printEntries, cons_append, append_assoc]
  rfl

theorem length_payloadText (model prompt : Bytes) :
    (payloadText model prompt).length = 38 + model.length + prompt.length := by
  have h₁ : (utf8 "\x7b\"model\":\"").length = 10 := by decide
  have h₂ : (utf8 "\",\"prompt\":\"").length = 12 := by decide
  have h₃ : (utf8 "\",\"stream\":true\x7d").length = 16 := by decide
  simp only [payloadText, length_append, h₁, h₂, h₃]
  omega

theorem good_payloadValue {model prompt : Bytes} (hmodel : IsBody model)
    (hprompt : IsBody prompt) : Good (payloadValue model prompt) := by
  have h₁ : IsBody (utf8 "model") := by decide
  have h₂ : IsBody (utf8 "prompt") := by decide
  have h₃ : IsBody (utf8 "stream") := by decide
  refine .object ?_ ?_
  · simpa using ⟨h₁, h₂, h₃⟩
  · simpa using ⟨.string hmodel, .string hprompt, .bool true⟩

section

variable {model : Bytes} (hmodel : IsBody model) (hlen : model.length ≤ 4000)

include hmodel in
/-- The payload is JSON if the escaped prompt may stand in a string. -/
theorem parse_payloadText (prompt : Bytes) :
    parse (payloadText model (escaped prompt)) =
      if IsBody (escaped prompt) then some (payloadValue model (escaped prompt)) else none := by
  split_ifs with hbody
  · rw [payloadText_eq, parse_print (good_payloadValue hmodel hbody)]
  · have hrun : run ⟨.value, []⟩ (payloadText model (escaped prompt)) = none := by
      show run ⟨.text none .plain [], [.member [] (utf8 "model")]⟩ (model ++ _) = none
      rw [run_append, run_text hmodel]
      exact run_escapes_bad (fun _ => isEscape_of_mem) hbody (utf8 ",\"stream\":true\x7d")
    rw [parse, hrun]
    rfl

theorem length_received_le (msg : Bytes) : (received msg).length ≤ 2047 := by
  have hcut := (takeWhile_sublist (l := msg.take 2047) fun b => decide (b ≠ 0)).length_le
  have htake := length_take_le 2047 msg
  rw [received, cut]
  omega

theorem Prompts.length_le {msg text : Bytes} (h : Prompts msg text) : text.length ≤ 2039 := by
  have hkey : (utf8 "text").length = 4 := by decide
  have htext := length_extractJsonStr h.text
  have hmsg := length_received_le msg
  omega

variable {prompt : Bytes}

include hlen in
/-- The arrays are large enough for every text that comes from a client. -/
theorem payload_eq (h : prompt.length ≤ 2039) :
    payload model prompt = payloadText model (escaped prompt) := by
  have hescaped := length_escaped_le prompt
  rw [payload, escapeJsonString_eq (by omega)]
  refine take_of_length_le ?_
  rw [length_payloadText]
  omega

end

/-! ## The prompt the model gets -/

/-- The client's command is a prompt whose text is written as `raw`. -/
structure PromptCommand (msg raw : Bytes) : Prop where
  length_le : msg.length ≤ 2048
  isCommand : ∃ entries k c k', parse msg = some (.object entries) ∧
    (k, .string c) ∈ entries ∧ unescape k = utf8 "cmd" ∧ unescape c = utf8 "prompt" ∧
    (k', .string raw) ∈ entries ∧ unescape k' = utf8 "text"

theorem PromptCommand.isBody {msg raw : Bytes} (h : PromptCommand msg raw) : IsBody raw := by
  obtain ⟨entries, k, c, k', hparse, -, -, -, hraw, -⟩ := h.isCommand
  cases good_of_parse hparse with
  | object hkey hvalue =>
    cases hvalue _ hraw with
    | string hbody => exact hbody

theorem promptCommand_of_parse {msg raw : Bytes} (hlen : msg.length ≤ 2048)
    (hparse : parse msg = some
      (.object [(utf8 "cmd", .string (utf8 "prompt")), (utf8 "text", .string raw)])) :
    PromptCommand msg raw where
  length_le := hlen
  isCommand := ⟨_, utf8 "cmd", utf8 "prompt", utf8 "text", hparse, .head _, by decide, by decide,
    .tail _ (.head _), by decide⟩

theorem takeWhile_quote {raw : Bytes} (h : 34 ∉ raw) : (raw.takeWhile fun b => b ≠ 34) = raw := by
  refine takeWhile_eq_self_iff.2 fun b hb => decide_eq_true ?_
  rintro rfl
  exact h hb

/-- The payload has a member `prompt` with the text of the command. -/
def Carries (d : Daemon) (fd : Nat) (model msg raw : Bytes) : Prop :=
  ∃ text v r, .prompt fd text ∈ (handleClientData d fd msg).2 ∧
    parse (payload model text) = some v ∧ v.field (utf8 "prompt") = some (.string r) ∧
    unescape r = unescape raw

section

variable {model : Bytes} (hmodel : IsBody model) (hlen : model.length ≤ 4000)
  (d : Daemon) (fd : Nat) (msg raw : Bytes)

include hmodel hlen

/-- The members are found, and what stands there is the text that is meant. -/
theorem carries_iff :
    Carries d fd model msg raw ↔
      Prompts msg (unescape raw) ∧ IsBody (escaped (unescape raw)) := by
  constructor
  · rintro ⟨text, v, r, hmem, hparse, hfield, hr⟩
    have hprompts := (prompt_mem_iff d fd msg text).1 hmem
    rw [payload_eq hlen hprompts.length_le, parse_payloadText hmodel] at hparse
    split_ifs at hparse with hbody
    cases hparse
    have hescaped : r = escaped text := by
      have hprompt : (payloadValue model (escaped text)).field (utf8 "prompt") =
        some (.string (escaped text)) := rfl
      cases hfield
      rfl
    rw [hescaped, unescape_escaped] at hr
    rw [← hr]
    exact ⟨hprompts, hbody⟩
  · rintro ⟨hprompts, hbody⟩
    refine ⟨unescape raw, payloadValue model (escaped (unescape raw)), escaped (unescape raw),
      (prompt_mem_iff d fd msg _).2 hprompts, ?_, rfl, unescape_escaped _⟩
    rw [payload_eq hlen hprompts.length_le, parse_payloadText hmodel, if_pos hbody]

/-- **The payload carries the prompt** if the members are found and what stands between the quotes
is the text.  If it is the member itself that is found, the text is one without escapes. -/
theorem prompt_carried_iff (h : PromptCommand msg raw) :
    (Carries d fd model msg raw ↔
        Prompts msg (unescape raw) ∧ IsBody (escaped (unescape raw))) ∧
      (Prompts msg (raw.takeWhile fun b => b ≠ 34) →
        (Carries d fd model msg raw ↔ 92 ∉ raw)) := by
  refine ⟨carries_iff hmodel hlen d fd msg raw, fun hfound => ?_⟩
  rw [carries_iff hmodel hlen]
  constructor
  · rintro ⟨hprompts, -⟩ hback
    have htext : unescape raw = raw.takeWhile fun b => b ≠ 34 :=
      Option.some.inj (hprompts.text.symm.trans hfound.text)
    have hquote : 34 ∉ raw := by
      intro hquote
      have hmem := quote_mem_unescape h.isBody hquote
      rw [htext] at hmem
      simpa using mem_takeWhile_imp hmem
    have hlt := length_unescape_lt hback
    rw [htext, takeWhile_quote hquote] at hlt
    exact Nat.lt_irrefl _ hlt
  · intro hback
    have hquote := h.isBody.quote_notMem hback
    rw [takeWhile_quote hquote] at hfound
    rw [unescape_of_notMem hback, escaped_eq_self h.isBody hback]
    exact ⟨hfound, h.isBody⟩

end

def plainCommand : Bytes := utf8 "\x7b\"cmd\":\"prompt\",\"text\": \"good night 🌙\"\x7d"

theorem promptCommand_plain : PromptCommand plainCommand (utf8 "good night 🌙") :=
  promptCommand_of_parse (by decide) rfl

theorem prompt_carried_plain :
    PromptCommand plainCommand (utf8 "good night 🌙") ∧
      ∀ d fd, Carries d fd (utf8 "llama3") plainCommand (utf8 "good night 🌙") := by
  refine ⟨promptCommand_plain, fun d fd => ?_⟩
  refine ((prompt_carried_iff (by decide) (by decide) d fd _ _ promptCommand_plain).2 ?_).2 ?_
  · exact ⟨by decide +kernel, by decide +kernel⟩
  · decide +kernel

def quotedCommand : Bytes := utf8 "\x7b\"cmd\":\"prompt\",\"text\":\"say \\\"hi\\\"\"\x7d"

def linesCommand : Bytes := utf8 "\x7b\"cmd\":\"prompt\",\"text\":\"one\\ntwo\"\x7d"

/-- The quote ends the prompt, and the newline becomes a backslash and a letter. -/
theorem escapes_lost :
    PromptCommand quotedCommand (utf8 "say \\\"hi\\\"") ∧
      PromptCommand linesCommand (utf8 "one\\ntwo") ∧
      ∀ d fd, .prompt fd (utf8 "say \\") ∈ (handleClientData d fd quotedCommand).2 ∧
        .prompt fd (utf8 "one\\ntwo") ∈ (handleClientData d fd linesCommand).2 ∧
        ¬ Carries d fd (utf8 "llama3") quotedCommand (utf8 "say \\\"hi\\\"") ∧
        ¬ Carries d fd (utf8 "llama3") linesCommand (utf8 "one\\ntwo") := by
  refine ⟨promptCommand_of_parse (by decide) rfl, promptCommand_of_parse (by decide) rfl,
    fun d fd => ⟨?_, ?_, ?_, ?_⟩⟩
  · exact (prompt_mem_iff d fd _ _).2 ⟨by decide +kernel, by decide +kernel⟩
  · exact (prompt_mem_iff d fd _ _).2 ⟨by decide +kernel, by decide +kernel⟩
  · rw [carries_iff (by decide) (by decide)]
    rintro ⟨h, -⟩
    exact absurd h.text (by decide +kernel)
  · rw [carries_iff (by decide) (by decide)]
    rintro ⟨h, -⟩
    exact absurd h.text (by decide +kernel)

end LunaAi
