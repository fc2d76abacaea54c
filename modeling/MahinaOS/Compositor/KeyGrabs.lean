import MahinaOS.Compositor.Live

/-!
# Whose keys are grabbed

The table of grabbed keys belongs to the compositor, not to the window manager that filled it.  A
key in the table goes to whoever is registered, so a window manager should only find its own grabs
there.

`Grabs` is the compositor with a record beside it: the grabs that the registered window manager has
requested since it registered.  It starts anew with every registration.

* `Move.registers` and `Move.grabs` are the registration and the grab that a move accepts.
  `tableMoved_move` says that a move can register a window manager, enter a grab or lose the window
  manager, and nothing else happens to the table; its entries are never taken out.
* `Grabs.Own`: every key that goes to the window manager is one that it has asked for.
* `Grabs.Clean` is what a move must do for that: a window manager registers to an empty table, and
  no other client adds a grab that the window manager has not requested.
* **`redirects_own_iff`**: in every state of a run the window manager gets its own keys and no
  others exactly when every move is clean.  `redirects_inherited` is a run that is not.
-/

namespace Compositor

open Run Framing

/-! ## Registrations and grabs -/

/-- The greeting makes its client the window manager. -/
def Msg.registers (client : Client) (msg : Msg) : Bool :=
  msg.type == MsgType.hello &&
    decide (capsNegotiate client.uid (readU32Le msg.payload 4) &&& Cap.windowManager ≠ 0)

/-- The message that a move accepts, with its client. -/
def Move.accepted (mode : Mode) (st : State) : Move → Option (Client × Msg)
  | .message fd env =>
    (st.clients.find fd).bind fun c =>
      match nextFrame c.rxBuf with
      | .frame msg _ => if (handleClientMessage mode env st c msg).2 then some (c, msg) else none
      | _ => none
  | _ => none

/-- The client that a move registers as the window manager. -/
def Move.registers (mode : Mode) (st : State) (m : Move) : Option Nat :=
  (m.accepted mode st).bind fun (c, msg) => if msg.registers c then some c.fd else none

/-- The grab that a move accepts, with the client that requests it. -/
def Move.grabs (mode : Mode) (st : State) (m : Move) : Option (Nat × UInt32 × UInt32) :=
  (m.accepted mode st).bind fun (c, msg) => (decodeGrabKey msg).map fun grab => (c.fd, grab)

/-- The table with one more grab, if there is room. -/
def pushGrab (keys : List (UInt32 × UInt32)) (grab : UInt32 × UInt32) : List (UInt32 × UInt32) :=
  if keys.length < grabbedKeysMax then keys ++ [grab] else keys

/-! ## What a message does to the table -/

/-- The registration and the table. -/
def State.table (st : State) : Option Nat × List (UInt32 × UInt32) := (st.wmClient, st.grabbedKeys)

/-- What a message of `client` can do to the table. -/
inductive TableStep (client : Client) (msg : Msg) (st : State) : State × Bool → Prop
  | same {st' : State} {ok : Bool} (htable : st'.table = st.table)
      (hregisters : ok = true → msg.registers client = false)
      (hgrab : ok = true → decodeGrabKey msg = none) : TableStep client msg st (st', ok)
  | registered {st' : State} (hmsg : msg.registers client = true)
      (hgrab : decodeGrabKey msg = none)
      (htable : st'.table = (some client.fd, st.grabbedKeys)) :
      TableStep client msg st (st', true)
  | grabbed {st' : State} (grab : UInt32 × UInt32) (hmsg : decodeGrabKey msg = some grab)
      (hregisters : msg.registers client = false)
      (htable : st'.table = (st.wmClient, pushGrab st.grabbedKeys grab)) :
      TableStep client msg st (st', true)

section Messages

variable {mode : Mode} {env : MsgEnv} {st : State} {client : Client} {msg : Msg}

theorem decodeGrabKey_eq_none (h : msg.type ≠ MsgType.wmGrabKey) : decodeGrabKey msg = none :=
  if_pos (.inl h)

theorem registers_eq_false (h : msg.type ≠ MsgType.hello) : msg.registers client = false := by
  rw [Msg.registers, beq_false_of_ne h, Bool.false_and]

theorem TableStep.refused : TableStep client msg st (st, false) :=
  .same rfl (fun h => by cases h) fun h => by cases h

theorem TableStep.other {type : UInt16} (htype : msg.type = type) (hhello : type ≠ MsgType.hello)
    (hgrab : type ≠ MsgType.wmGrabKey) {r : State × Bool} (h : r.1.table = st.table) :
    TableStep client msg st r := by
  subst htype
  exact .same h (fun _ => registers_eq_false hhello) fun _ => decodeGrabKey_eq_none hgrab

theorem table_handleCommitBuffer : (handleCommitBuffer env st client msg).1.table = st.table := by
  rw [handleCommitBuffer]
  split
  · rfl
  · dsimp only
    split <;> rfl

theorem tableStep_handleWmGrabKey (hmsg : msg.type = MsgType.wmGrabKey) :
    TableStep client msg st (handleWmGrabKey st client msg) := by
  have hregisters : msg.registers client = false := registers_eq_false (by rw [hmsg]; decide)
  refine iteInduction (fun _ => .refused) fun _ => ?_
  rcases hdecode : decodeGrabKey msg with - | grab
  · exact .refused
  · refine iteInduction (fun hroom => ?_) fun hfull => ?_
    · exact .grabbed grab hdecode hregisters (by rw [pushGrab, if_pos hroom]; rfl)
    · exact .grabbed grab hdecode hregisters (by rw [pushGrab, if_neg hfull]; rfl)

theorem tableStep_handleHello (hclient : client ∈ st.clients.list)
    (hmsg : msg.type = MsgType.hello) :
    TableStep client msg st (handleHello mode env st client msg) := by
  have hgrab : decodeGrabKey msg = none := decodeGrabKey_eq_none (by rw [hmsg]; decide)
  rw [handleHello]
  rcases helloHandle_cases env st client msg with heq | ⟨requested, done, hrequested, heq⟩
  · rw [heq]
    exact .refused
  · have hregisters : msg.registers client =
        decide (capsNegotiate client.uid requested &&& Cap.windowManager ≠ 0) := by
      rw [Msg.registers, hmsg, hrequested, beq_self_eq_true, Bool.true_and]
    rw [heq]
    rcases done with - | -
    · exact .same rfl (fun h => by cases h) fun h => by cases h
    · dsimp only
      rw [registerWm_granted hclient]
      split
      · next hcap => exact .registered (hregisters.trans (decide_eq_true hcap)) hgrab rfl
      · next hcap =>
        exact .same rfl (fun _ => hregisters.trans (decide_eq_false hcap)) fun _ => hgrab

/-- **One message, whatever it is.** -/
theorem tableStep_handleClientMessage (mode : Mode) (env : MsgEnv)
    (hclient : client ∈ st.clients.list) (msg : Msg) :
    TableStep client msg st (handleClientMessage mode env st client msg) := by
  have hhandled := handled_handleClientMessage mode env st client msg
  generalize handleClientMessage mode env st client msg = r at hhandled ⊢
  rcases hhandled with - | hhello | ⟨-, hcommit⟩ | hgrab | ⟨htype, hhello, hgrab, hcalm⟩
  · exact .refused
  · exact tableStep_handleHello hclient hhello
  · exact .other hcommit (by decide) (by decide) table_handleCommitBuffer
  · exact tableStep_handleWmGrabKey hgrab
  · exact .other htype hhello hgrab (Prod.ext hcalm.wmClient hcalm.grabbedKeys)

end Messages

/-! ## What a move does to the table -/

section Moves

variable {mode : Mode} {st : State}

/-- A move can register a window manager, add a grab, or lose the window manager. -/
inductive TableMoved (mode : Mode) (st : State) (m : Move) (st' : State) : Prop
  | same (hregisters : m.registers mode st = none) (hgrabs : m.grabs mode st = none)
      (htable : st'.table = st.table)
  | lost (hregisters : m.registers mode st = none) (hgrabs : m.grabs mode st = none)
      (htable : st'.table = (none, st.grabbedKeys))
  | registered (fd : Nat) (hregisters : m.registers mode st = some fd)
      (hgrabs : m.grabs mode st = none) (htable : st'.table = (some fd, st.grabbedKeys))
  | grabbed (fd : Nat) (grab : UInt32 × UInt32) (hregisters : m.registers mode st = none)
      (hgrabs : m.grabs mode st = some (fd, grab))
      (htable : st'.table = (st.wmClient, pushGrab st.grabbedKeys grab))

variable {m : Move} {st' : State}

theorem TableMoved.quiet (haccepted : m.accepted mode st = none) (htable : st'.table = st.table) :
    TableMoved mode st m st' :=
  .same (by rw [Move.registers, haccepted]; rfl) (by rw [Move.grabs, haccepted]; rfl) htable

theorem TableMoved.close (haccepted : m.accepted mode st = none) (htable : st'.table = st.table)
    (client : Client) : TableMoved mode st m (closeClient st' client) := by
  have hkeys : st'.grabbedKeys = st.grabbedKeys := congrArg Prod.snd htable
  by_cases hlost : st'.wmClient = some client.fd
  · refine .lost (by rw [Move.registers, haccepted]; rfl) (by rw [Move.grabs, haccepted]; rfl) ?_
    rw [State.table, closeClient, if_pos hlost, hkeys]
  · refine .quiet haccepted ?_
    rw [State.table, closeClient, if_neg hlost]
    exact htable

theorem TableMoved.closeFd (haccepted : m.accepted mode st = none) (htable : st'.table = st.table)
    (fd : Nat) : TableMoved mode st m (closeFd st' fd) := by
  rw [Compositor.closeFd]
  split
  · exact .close haccepted htable _
  · exact .quiet haccepted htable

theorem tableMoved_message (fd : Nat) (env : MsgEnv) :
    TableMoved mode st (.message fd env) (handleFirst mode env st fd) := by
  rw [handleFirst]
  rcases hfind : st.clients.find fd with - | client
  · exact .quiet (by simp [Move.accepted, hfind]) rfl
  · obtain ⟨hclient, -⟩ := Clients.find_eq_some.1 hfind
    dsimp only
    cases hnext : nextFrame client.rxBuf with
    | more => exact .quiet (by simp [Move.accepted, hfind, hnext]) rfl
    | bad => exact .closeFd (by simp [Move.accepted, hfind, hnext]) rfl fd
    | frame msg size =>
      have htable := tableStep_handleClientMessage mode env hclient msg
      dsimp only
      cases hhandle : handleClientMessage mode env st client msg with
      | mk st' ok =>
        have haccepted : (Move.message fd env).accepted mode st =
            if ok then some (client, msg) else none := by
          simp [Move.accepted, hfind, hnext, hhandle]
        rw [hhandle] at htable
        rcases ok with - | -
        · cases htable with
          | same htable _ _ => exact .closeFd haccepted htable fd
        · cases htable with
          | same htable hregisters hgrab =>
            refine .same ?_ ?_ htable
            · rw [Move.registers, haccepted]
              simp [hregisters rfl]
            · rw [Move.grabs, haccepted]
              simp [hgrab rfl]
          | registered hmsg hgrab htable =>
            refine .registered client.fd ?_ ?_ htable
            · rw [Move.registers, haccepted]
              simp [hmsg]
            · rw [Move.grabs, haccepted]
              simp [hgrab]
          | grabbed grab hmsg hregisters htable =>
            refine .grabbed client.fd grab ?_ ?_ htable
            · rw [Move.registers, haccepted]
              simp [hregisters]
            · rw [Move.grabs, haccepted]
              simp [hmsg]

theorem tableMoved_move (mode : Mode) (st : State) (m : Move) :
    TableMoved mode st m (move mode st m) := by
  obtain ⟨hkey, hmotion, hbutton⟩ := inv_input (I := fun st' => st'.table = st.table)
    (fun _ _ _ h => h) rfl
  cases m with
  | begin => exact .quiet rfl rfl
  | accept fd uid watched =>
    refine .quiet rfl ?_
    rw [move, accept]
    split
    · rfl
    · dsimp only
      split <;> rfl
  | take fd r =>
    rw [move, takeFrom]
    split
    · exact .quiet rfl rfl
    · split
      · exact .close rfl rfl _
      · exact .quiet rfl rfl
  | message fd env => exact tableMoved_message fd env
  | close fd => exact .closeFd rfl rfl fd
  | key key keyState modifiers => exact .quiet rfl (hkey key keyState modifiers)
  | motion x y => exact .quiet rfl (hmotion x y)
  | button x y button pressed => exact .quiet rfl (hbutton x y button pressed)

end Moves

/-! ## The grabs of the window manager -/

/-- The compositor, and the grabs that its window manager has requested since it registered. -/
structure Grabs where
  st : State
  own : List (UInt32 × UInt32)

namespace Grabs

def step (mode : Mode) (g : Grabs) (m : Move) : Grabs where
  st := move mode g.st m
  own :=
    if (m.registers mode g.st).isSome then []
    else
      match m.grabs mode g.st with
      | some (fd, grab) => if g.st.wmClient = some fd then g.own ++ [grab] else g.own
      | none => g.own

/-- Every key that goes to the window manager is one that it has asked for. -/
def Own (g : Grabs) : Prop :=
  ∀ key modifiers, Grabbed g.st key modifiers → (key, modifiers) ∈ g.own

/-- The move leaves no key in the table that the window manager has not asked for: a registration
finds the table empty, and a grab of another client, if it is entered, is one of the window
manager's as well. -/
def Clean (mode : Mode) (g : Grabs) (m : Move) : Prop :=
  (m.registers mode g.st ≠ none → g.st.grabbedKeys = []) ∧
  ∀ request ∈ m.grabs mode g.st, g.st.wmClient ≠ none → g.st.wmClient ≠ some request.1 →
    g.st.grabbedKeys.length < grabbedKeysMax → request.2 ∈ g.own

instance (mode : Mode) (g : Grabs) (m : Move) : Decidable (g.Clean mode m) :=
  @instDecidableAnd _ _ _ (Option.decidableForallMem _)

section

variable {mode : Mode} {g : Grabs} {m : Move}

theorem own_iff : g.Own ↔ g.st.wmClient ≠ none → ∀ grab ∈ g.st.grabbedKeys, grab ∈ g.own := by
  rw [← Option.isSome_iff_ne_none]
  exact ⟨fun h hwm grab hgrab => h grab.1 grab.2 ⟨hwm, hgrab⟩,
    fun h key modifiers hgrabbed => h hgrabbed.1 _ hgrabbed.2⟩

theorem mem_pushGrab {keys : List (UInt32 × UInt32)} {grab grab' : UInt32 × UInt32} :
    grab' ∈ pushGrab keys grab ↔
      grab' ∈ keys ∨ keys.length < grabbedKeysMax ∧ grab' = grab := by
  rw [pushGrab]
  split
  · next hroom => simp [hroom]
  · next hfull => simp [hfull]

/-- One move: the window manager keeps to its own keys under `Clean`, and only then. -/
theorem own_step_iff (h : g.Own) : (g.step mode m).Own ↔ g.Clean mode m := by
  have hown : (g.step mode m).Own ↔ ((move mode g.st m).table.1 ≠ none →
      ∀ grab ∈ (move mode g.st m).table.2, grab ∈ (g.step mode m).own) := own_iff
  rw [own_iff] at h
  rw [hown]
  cases tableMoved_move mode g.st m with
  | same hregisters hgrabs htable =>
    have hsame : (g.step mode m).own = g.own := by simp [step, hregisters, hgrabs]
    rw [htable, hsame]
    exact iff_of_true h (by simp [Clean, hregisters, hgrabs])
  | lost hregisters hgrabs htable =>
    rw [htable]
    exact iff_of_true (fun hnone => absurd rfl hnone) (by simp [Clean, hregisters, hgrabs])
  | registered fd hregisters hgrabs htable =>
    have hnew : (g.step mode m).own = [] := by simp [step, hregisters]
    rw [htable, hnew]
    simp [Clean, hregisters, hgrabs, List.eq_nil_iff_forall_not_mem]
  | grabbed fd grab hregisters hgrabs htable =>
    have hnext : (g.step mode m).own =
        if g.st.wmClient = some fd then g.own ++ [grab] else g.own := by
      simp [step, hregisters, hgrabs]
    have hclean : g.Clean mode m ↔ (g.st.wmClient ≠ none → g.st.wmClient ≠ some fd →
        g.st.grabbedKeys.length < grabbedKeysMax → grab ∈ g.own) := by
      simp [Clean, hregisters, hgrabs]
    rw [htable, hnext, hclean]
    refine imp_congr_right fun hwm => ?_
    simp only [mem_pushGrab, or_imp, forall_and]
    split
    · next hself =>
      refine iff_of_true ⟨fun k hk => List.mem_append_left _ (h hwm k hk), ?_⟩
        fun hother => absurd hself hother
      rintro _ ⟨-, rfl⟩
      exact List.mem_append_right _ (List.mem_singleton_self _)
    · next hother =>
      refine ⟨fun hkeys _ hroom => hkeys.2 grab ⟨hroom, rfl⟩, fun hgrab => ⟨h hwm, ?_⟩⟩
      rintro _ ⟨hroom, rfl⟩
      exact hgrab hother hroom

end

/-- **A window manager gets the keys it has asked for.**  From a state in which every key that goes
to the window manager is one that it has requested during its registration, every state of a run is
such a state exactly when every window manager that registers finds an empty table, and no other
client enters a grab that the registered one has not requested. -/
theorem redirects_own_iff (mode : Mode) {g : Grabs} (hg : g.Own) (ms : List Move) :
    (∀ pre, pre <+: ms → ∀ key modifiers,
      Grabbed (run (step mode) g pre).st key modifiers →
        (key, modifiers) ∈ (run (step mode) g pre).own) ↔
      Along (step mode) (Clean mode) g ms :=
  forall_prefix_iff (H := fun _ _ => True) (fun _ _ h _ => own_step_iff h) hg (along_trivial g ms)

def arrives (fd : Nat) : List Move :=
  [.accept fd 0 true, .take fd ⟨(greeting 128).encode, [], false⟩, .message fd {}]

def grabsKey (fd : Nat) (key : UInt8) : List Move :=
  [.take fd ⟨(Msg.mk MsgType.wmGrabKey [key, 0, 0, 0, 0, 0, 0, 0]).encode, [], false⟩,
    .message fd {}]

/-- One window manager that grabs a key, and gets it. -/
theorem redirects_own_iff_sample :
    let ms := arrives 3 ++ grabsKey 3 16 ++ [.key 16 1 0]
    ∀ pre, pre <+: ms → ∀ key modifiers,
      Grabbed (run (step ⟨1920, 1080⟩) ⟨{}, []⟩ pre).st key modifiers →
        (key, modifiers) ∈ (run (step ⟨1920, 1080⟩) ⟨{}, []⟩ pre).own :=
  (redirects_own_iff ⟨1920, 1080⟩ (fun _ _ h => absurd h.1 (by decide)) _).2 (by decide +kernel)

/-- The first window manager leaves and the next one registers.  It has grabbed nothing, and gets
the key of the first. -/
theorem redirects_inherited :
    let g := run (step ⟨1920, 1080⟩) ⟨{}, []⟩
      (arrives 3 ++ grabsKey 3 16 ++ [.close 3] ++ arrives 4 ++ [.begin])
    g.st.wmClient = some 4 ∧ g.own = [] ∧ Grabbed g.st 16 0 ∧
      (move ⟨1920, 1080⟩ g.st (.key 16 1 0)).sent = [⟨4, encodeKeyboardKey 16 1 0⟩] := by
  decide +kernel

end Grabs

end Compositor
