import MahinaOS.Compositor.Framing

/-!
# A turn, move by move

One turn of the event loop can handle many messages of a client, and what holds between two
messages is not visible in `step`.  Here a turn is taken apart into moves: reading from a socket,
handling the first message in a buffer, closing a client, passing an input event on.  A message that
is refused and the disconnect that follows are one move, as nothing happens between them.

* `move` is what a move does, and `Event.moves` the moves of a turn.  Those of a read do not depend
  on the state: there are as many messages as a full buffer could hold, and a message move does
  nothing when there is no complete message left.
* **`step_eq_run_moves`**: a turn is the run of its moves; `run_step_eq` is the same for whole runs.
* `Kept.move` is the rule for what a move keeps.
-/

namespace Compositor

open Run Framing Clients List

inductive Move where
  | begin
  | accept (fd : Nat) (uid : UInt32) (watched : Bool)
  | take (fd : Nat) (r : Received)
  | message (fd : Nat) (env : MsgEnv)
  | close (fd : Nat)
  | key (key keyState modifiers : UInt32)
  | motion (x y : Int32)
  | button (x y : Int32) (button : UInt8) (pressed : Bool)

/-- The read of a turn; a client that cannot be read is closed. -/
def takeFrom (st : State) (fd : Nat) (r : Received) : State :=
  match st.clients.find fd with
  | none => st
  | some client =>
    match readAvailable client r with
    | none => closeClient st client
    | some client' => st.modifyClient fd fun _ => client'

/-- One round of the loop over the messages of a client; a client whose message is refused is
closed. -/
def handleFirst (mode : Mode) (env : MsgEnv) (st : State) (fd : Nat) : State :=
  match st.clients.find fd with
  | none => st
  | some client =>
    match nextFrame client.rxBuf with
    | .more => st
    | .bad => closeFd st fd
    | .frame msg size =>
      match handleClientMessage mode env st client msg with
      | (st, false) => closeFd st fd
      | (st, true) => st.modifyClient fd fun c => { c with rxBuf := c.rxBuf.drop size }

def move (mode : Mode) (st : State) : Move → State
  | .begin => { st with sent := [] }
  | .accept fd uid watched => accept st fd uid watched
  | .take fd r => takeFrom st fd r
  | .message fd env => handleFirst mode env st fd
  | .close fd => closeFd st fd
  | .key key keyState modifiers => dispatchKeyboardKey st key keyState modifiers
  | .motion x y => dispatchPointerMotion st x y
  | .button x y button pressed => dispatchPointerButton st x y button pressed

/-- The messages that one read may bring. -/
def messageMoves (fd : Nat) (env : Nat → MsgEnv) (n : Nat) : List Move :=
  (range n).map fun k => .message fd (env k)

def Event.moves : Event → List Move
  | .accept fd uid watched => [.begin, .accept fd uid watched]
  | .read fd r env => .begin :: .take fd r :: messageMoves fd env rxBufferSize
  | .hangup fd => [.begin, .close fd]
  | .key code keyState modifiers => [.begin, .key code keyState modifiers]
  | .motion x y => [.begin, .motion x y]
  | .button x y code pressed => [.begin, .button x y code pressed]

/-! ## A turn is the run of its moves -/

theorem messageMoves_succ (fd : Nat) (env : Nat → MsgEnv) (n : Nat) :
    messageMoves fd env (n + 1) =
      .message fd (env 0) :: messageMoves fd (fun k => env (k + 1)) n := by
  rw [messageMoves, range_succ_eq_map, map_cons, map_map]
  rfl

section Turn

variable {mode : Mode} {st : State} {fd : Nat}

/-- Nothing happens to a client that is not connected, or has sent no complete message. -/
theorem run_messageMoves_idle (h : ∀ c, st.clients.find fd = some c → nextFrame c.rxBuf = .more)
    (env : Nat → MsgEnv) (n : Nat) : run (move mode) st (messageMoves fd env n) = st := by
  have hidle : ∀ env', handleFirst mode env' st fd = st := fun env' => by
    rw [handleFirst]
    rcases hfind : st.clients.find fd with - | client
    · rfl
    · dsimp only
      rw [h client hfind]
  induction n generalizing env with
  | zero => rfl
  | succ n ih =>
    rw [messageMoves_succ]
    show run (move mode) (handleFirst mode (env 0) st fd) _ = st
    rw [hidle]
    exact ih fun k => env (k + 1)

theorem find_closeFd (st : State) (fd : Nat) : (closeFd st fd).clients.find fd = none := by
  rw [closeFd]
  rcases hfind : st.clients.find fd with - | client
  · exact hfind
  · rw [← (find_eq_some.1 hfind).2]
    refine find?_eq_none.2 fun c hc => ?_
    simpa using (mem_remove.1 hc).2

/-- The result of `lgp_client_process_messages`, with the disconnect if it fails. -/
def settle (fd : Nat) (r : State × Bool) : State := if r.2 then r.1 else closeFd r.1 fd

/-- The loop over the messages, move by move. -/
theorem run_messageMoves (n : Nat) (env : Nat → MsgEnv) (st : State) :
    run (move mode) st (messageMoves fd env n) = settle fd (processMessages mode fd n env st) := by
  have hgone : ∀ {st' : State}, st'.clients.find fd = none → ∀ env' k,
      run (move mode) st' (messageMoves fd env' k) = st' := fun hnone env' k => by
    refine run_messageMoves_idle (fun c hc => ?_) env' k
    rw [hnone] at hc
    cases hc
  induction n generalizing env st with
  | zero => rfl
  | succ n ih =>
    rcases hfind : st.clients.find fd with - | client
    · rw [hgone hfind, processMessages, hfind]
      rfl
    · cases hnext : nextFrame client.rxBuf with
      | more =>
        rw [processMessages_succ hfind, hnext, run_messageMoves_idle]
        · rfl
        · intro c hc
          rw [← Option.some.inj (hfind.symm.trans hc), hnext]
      | bad =>
        have hstep : handleFirst mode (env 0) st fd = closeFd st fd := by
          simp only [handleFirst, hfind, hnext]
        rw [processMessages_succ hfind, hnext, messageMoves_succ]
        show run (move mode) (handleFirst mode (env 0) st fd) _ = closeFd st fd
        rw [hstep, hgone (find_closeFd st fd)]
      | frame msg size =>
        rw [processMessages_succ hfind, hnext, messageMoves_succ]
        show run (move mode) (handleFirst mode (env 0) st fd) _ = _
        cases hhandle : handleClientMessage mode (env 0) st client msg with
        | mk st' ok =>
          rcases ok with - | -
          · have hstep : handleFirst mode (env 0) st fd = closeFd st' fd := by
              simp only [handleFirst, hfind, hnext, hhandle]
            rw [hstep, hgone (find_closeFd st' fd)]
            dsimp only
            rw [hhandle]
            rfl
          · have hstep : handleFirst mode (env 0) st fd =
                st'.modifyClient fd fun c => { c with rxBuf := c.rxBuf.drop size } := by
              simp only [handleFirst, hfind, hnext, hhandle]
            rw [hstep, ih]
            dsimp only
            rw [hhandle]

theorem length_of_readAvailable {client client' : Client} {r : Received}
    (hread : readAvailable client r = some client') : client'.rxBuf.length ≤ rxBufferSize := by
  obtain ⟨hroom, rfl⟩ := readAvailable_eq hread
  have htake := length_take_le (rxBufferSize - client.rxBuf.length) r.bytes
  rw [length_append]
  omega

/-- More fuel than bytes makes no difference. -/
theorem processMessages_fuel {client : Client} (hfind : st.clients.find fd = some client)
    {fuel : Nat} (hfuel : client.rxBuf.length ≤ fuel) (env : Nat → MsgEnv) :
    processMessages mode fd fuel env st =
      processMessages mode fd client.rxBuf.length env st := by
  rw [(processMessages_eq mode fd fuel env hfind).1,
    (processMessages_eq mode fd client.rxBuf.length env hfind).1,
    loop_eq_drain tlvFormat (behind mode fd) hfuel, drain]

theorem readClient_eq_run (r : Received) (env : Nat → MsgEnv) :
    readClient mode env st fd r =
      run (move mode) (takeFrom st fd r) (messageMoves fd env rxBufferSize) := by
  rw [readClient, takeFrom]
  rcases hfind : st.clients.find fd with - | client
  · refine (run_messageMoves_idle (fun c hc => ?_) env _).symm
    rw [hfind] at hc
    cases hc
  · dsimp only
    rcases hread : readAvailable client r with - | client'
    · have hclose : closeClient st client = closeFd st fd := by rw [closeFd, hfind]
      rw [hclose]
      refine (run_messageMoves_idle (fun c hc => ?_) env _).symm
      rw [find_closeFd] at hc
      cases hc
    · dsimp only
      have hfind' : (st.modifyClient fd fun _ => client').clients.find fd =
          some { client' with fd := client.fd } := find_modify hfind _
      have hlen := length_of_readAvailable hread
      have hfuel : processMessages mode fd rxBufferSize env (st.modifyClient fd fun _ => client') =
          processMessages mode fd client'.rxBuf.length env (st.modifyClient fd fun _ => client') :=
        processMessages_fuel hfind' hlen env
      rw [run_messageMoves, hfuel]
      cases processMessages mode fd client'.rxBuf.length env (st.modifyClient fd fun _ => client')
        with
      | mk st' ok => cases ok <;> rfl

end Turn

/-! ## What a move keeps -/

section Kept

variable {mode : Mode} {I : State → Prop} {st : State}

theorem Kept.takeFrom (h : Kept I) (fd : Nat) (r : Received) (hI : I st) :
    I (takeFrom st fd r) := by
  rw [Compositor.takeFrom]
  split
  · exact hI
  · next client hfind =>
    split
    · have hclose := h.close fd hI
      rw [closeFd, hfind] at hclose
      exact hclose
    · next client' hread =>
      have hsame : (st.clients.modify fd fun c =>
          { c with rxBuf := client'.rxBuf, pendingFds := client'.pendingFds }) =
          st.clients.modify fd fun _ => client' :=
        modify_congr hfind (by rw [(readAvailable_eq hread).2])
      rw [State.modifyClient, ← hsame]
      exact h.buffers (find_eq_some.1 hfind).1 fd (fun _ => client'.rxBuf)
        (fun _ => client'.pendingFds) hI

theorem Kept.handleFirst (h : Kept I) (env : MsgEnv) (fd : Nat) (hI : I st) :
    I (handleFirst mode env st fd) := by
  rw [Compositor.handleFirst]
  split
  · exact hI
  · next client hfind =>
    have hclient := (find_eq_some.1 hfind).1
    split
    · exact hI
    · exact h.close fd hI
    · next msg size hnext =>
      have heffect : Effect client st (handleClientMessage mode env st client msg).1 :=
        effect_handleClientMessage hclient
      split
      · next heq =>
        rw [heq] at heffect
        exact h.close fd (h.change hclient heffect.toChange hI)
      · next heq =>
        rw [heq] at heffect
        obtain ⟨c, hc, -⟩ := ListUpdate.exists_of_forall₂ heffect.clients.flip hclient
        exact h.buffers hc fd (fun c => c.rxBuf.drop size) (·.pendingFds)
          (h.change hclient heffect.toChange hI)

theorem Kept.readClient (h : Kept I) (env : Nat → MsgEnv) (fd : Nat) (r : Received) (hI : I st) :
    I (readClient mode env st fd r) := by
  rw [readClient_eq_run]
  generalize rxBufferSize = n
  have htaken := h.takeFrom fd r hI
  generalize Compositor.takeFrom st fd r = st' at htaken ⊢
  induction n generalizing env st' with
  | zero => exact htaken
  | succ n ih =>
    rw [messageMoves_succ]
    exact ih _ _ (h.handleFirst (env 0) fd htaken)

/-- **The rule for a move.**  What a client's messages and its disconnect keep, and what does not
depend on the frames sent or the keyboard focus, is kept by a move if accepting a client keeps
it. -/
theorem Kept.move (h : Kept I)
    (hfocus : ∀ {st : State} (sent : List Sent) (session surface : UInt32), I st →
      I { st with
        sent := sent, keyboardFocusSessionId := session, keyboardFocusSurfaceId := surface })
    (haccept : ∀ {st : State} fd uid watched, I st → I (accept st fd uid watched))
    (hI : I st) (m : Move) : I (move mode st m) := by
  obtain ⟨hkey, hmotion, hbutton⟩ := inv_input hfocus hI
  cases m with
  | begin => exact hfocus [] _ _ hI
  | accept fd uid watched => exact haccept fd uid watched hI
  | take fd r => exact h.takeFrom fd r hI
  | message fd env => exact h.handleFirst env fd hI
  | close fd => exact h.close fd hI
  | key key keyState modifiers => exact hkey key keyState modifiers
  | motion x y => exact hmotion x y
  | button x y button pressed => exact hbutton x y button pressed

end Kept

/-- **A turn is the run of its moves.** -/
theorem step_eq_run_moves (mode : Mode) (st : State) (e : Event) :
    step mode st e = run (move mode) st e.moves := by
  cases e with
  | read fd r env =>
    rw [Event.moves, run, run]
    exact readClient_eq_run r env
  | accept | hangup | key | motion | button => rfl

theorem run_step_eq (mode : Mode) (st : State) (es : List Event) :
    run (step mode) st es = run (move mode) st (es.flatMap Event.moves) := by
  induction es generalizing st with
  | nil => rfl
  | cons e es ih =>
    rw [flatMap_cons, run_append, ← step_eq_run_moves]
    exact ih (step mode st e)

end Compositor
