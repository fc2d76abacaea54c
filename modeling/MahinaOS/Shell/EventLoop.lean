import MahinaOS.Lgp.Connection
import MahinaOS.Shell.Session

/-!
# The event loop of the shell

After its start, `main` of `luna-shell-rs` alternates between a poll that waits for the compositor
and an inner loop that handles messages.  The inner loop asks with a second poll, which does not
wait, whether there is more to read, and stops if not.  But `recv` may have read more than the frame
it returned: what is in `rx_buf` does not make a poll ready.

* `EventLoop` is the shell with its connection, at the waiting poll or in the inner loop.  Bytes may
  arrive at any time and in any pieces, and `recv` may read them in any pieces.
* **`no_frame_left_iff`**: when the loop never goes back to the waiting poll with a frame in
  `rx_buf`.
* `frame_left_behind`: two frames that arrive together.
-/

namespace Shell

open Run Framing
open Lgp (LgpConnection LgpMessage nextFrame)

/-! ## The loop -/

/-- The shell in its event loop; `draining` says whether it is in the inner loop. -/
structure EventLoop (ρ : Type) where
  conn : LgpConnection
  state : ShellState ρ
  draining : Bool := false
  outbox : List Request := []
  exited : Bool := false

/-- What can happen next.  The loop polls, unless a signal interrupts it, with the sizes of the
reads if it comes to a `recv`. -/
inductive LoopEvent where
  | arrive (bytes : Bytes)
  | close
  | poll (interrupted : Bool) (reads : Nat → Nat) (env : AuthEnv)

/-- `POLLIN`. -/
def ready (c : LgpConnection) : Bool := !c.socket.bytes.isEmpty || c.socket.closed

namespace EventLoop

section

variable {ρ : Type} (d : Desktop ρ)

/-- The `match` of the inner loop. -/
def handle (env : AuthEnv) (l : EventLoop ρ) (msg : LgpMessage) : EventLoop ρ :=
  match l.state.handle d env ⟨msg.msgType, msg.payload⟩ with
  | none => { l with exited := true }
  | some (state, requests) => { l with state := state, outbox := l.outbox ++ requests }

/-- One round of the inner loop. -/
def drain (interrupted : Bool) (reads : Nat → Nat) (env : AuthEnv) (l : EventLoop ρ) :
    EventLoop ρ :=
  if interrupted || !ready l.conn then { l with draining := false }
  else
    match l.conn.recv reads with
    | none => l
    | some (.ok msg, conn) => { l with conn := conn }.handle d env msg
    | some (.error _, conn) => { l with conn := conn, draining := false }

/-- One round of the outer loop, up to the waiting poll. -/
def wait (interrupted : Bool) (l : EventLoop ρ) : EventLoop ρ :=
  let (state, requests) := l.state.tick d
  { l with
    state := state
    outbox := l.outbox ++ requests
    draining := !interrupted && ready l.conn }

def step (l : EventLoop ρ) : LoopEvent → EventLoop ρ
  | .arrive bytes =>
    { l with conn.socket.bytes := l.conn.socket.bytes ++ bytes }
  | .close => { l with conn.socket.closed := true }
  | .poll interrupted reads env =>
    if l.exited then l
    else if l.draining then l.drain d interrupted reads env
    else l.wait d interrupted

/-! ## What is left in the buffer -/

/-- No complete frame is buffered. -/
def NoFrame (c : LgpConnection) : Prop := ∀ msg size, nextFrame c.rxBuf ≠ .frame msg size

/-- The loop is not at the waiting poll with a complete frame in the buffer. -/
def NoneLeft (l : EventLoop ρ) : Prop :=
  l.exited = false → l.draining = false → NoFrame l.conn

/-- Neither is it now, nor would the next poll bring it there. -/
def Settled (l : EventLoop ρ) : Prop :=
  l.NoneLeft ∧ ∀ reads env, (l.step d (.poll false reads env)).NoneLeft

/-- Two complete frames at the front of some bytes. -/
def TwoFrames (rx : Bytes) : Prop :=
  ∃ msg size msg' size', nextFrame rx = .frame msg size ∧
    nextFrame (rx.drop size) = .frame msg' size'

/-- The condition on a step: a `recv` that reads all there is, and whose frame does not end the
process, does not find two frames, and no poll is interrupted while a frame is buffered. -/
def Drains (l : EventLoop ρ) : LoopEvent → Prop
  | .poll interrupted reads env =>
    l.exited = false → l.draining = true →
      if interrupted then NoFrame l.conn
      else ∀ msg conn, l.conn.recv reads = some (.ok msg, conn) → ready conn = false →
        (l.state.handle d env ⟨msg.msgType, msg.payload⟩).isSome → ¬TwoFrames l.conn.unread
  | _ => True

theorem bytes_of_not_ready {c : LgpConnection} (h : ready c = false) : c.socket.bytes = [] := by
  rw [ready, Bool.or_eq_false_iff] at h
  simpa using h.1

/-- A `recv` that has read all there is leaves a frame if there were two. -/
theorem noFrame_iff {c c' : LgpConnection} {reads : Nat → Nat} {msg : LgpMessage}
    (h : c.recv reads = some (.ok msg, c')) (hready : ready c' = false) :
    NoFrame c' ↔ ¬TwoFrames c.unread := by
  obtain ⟨size, hnext, hrest⟩ := LgpConnection.recvLoop_ok h
  have hrx : c'.rxBuf = c.unread.drop size := by
    rw [← hrest, LgpConnection.unread, bytes_of_not_ready hready, List.append_nil]
  rw [NoFrame, hrx]
  constructor
  · rintro hnone ⟨msg₁, size₁, msg₂, size₂, hfirst, hsecond⟩
    cases hnext.symm.trans hfirst
    exact hnone msg₂ size₂ hsecond
  · intro htwo msg₂ size₂ hsecond
    exact htwo ⟨msg, size, msg₂, size₂, hnext, hsecond⟩

/-- The same, without a look ahead: there is no frame in the buffer when the loop is at the waiting
poll, and neither when there is nothing to read. -/
def NoneStuck (l : EventLoop ρ) : Prop :=
  l.exited = false → l.draining = false ∨ ready l.conn = false → NoFrame l.conn

variable {l : EventLoop ρ}

theorem exited_handle (env : AuthEnv) (h : l.exited = false) (msg : LgpMessage) :
    (l.handle d env msg).exited = (l.state.handle d env ⟨msg.msgType, msg.payload⟩).isNone := by
  rw [handle]
  split
  · next hnone => rw [hnone]; rfl
  · next hsome => rw [hsome]; exact h

theorem draining_handle (env : AuthEnv) (l : EventLoop ρ) (msg : LgpMessage) :
    (l.handle d env msg).draining = l.draining ∧ (l.handle d env msg).conn = l.conn := by
  rw [handle]
  split <;> exact ⟨rfl, rfl⟩

/-- What a poll does. -/
inductive Polled (l : EventLoop ρ) (interrupted : Bool) (reads : Nat → Nat) (env : AuthEnv) :
    EventLoop ρ → Prop where
  | exited : l.exited = true → Polled l interrupted reads env l
  | waits : l.exited = false → l.draining = false →
      Polled l interrupted reads env (l.wait d interrupted)
  | stops : l.exited = false → l.draining = true → interrupted = true ∨ ready l.conn = false →
      Polled l interrupted reads env { l with draining := false }
  | blocked : l.exited = false → l.draining = true → interrupted = false → ready l.conn = true →
      l.conn.recv reads = none → Polled l interrupted reads env l
  | handled (msg : LgpMessage) (conn : LgpConnection) : l.exited = false → l.draining = true →
      interrupted = false → ready l.conn = true → l.conn.recv reads = some (.ok msg, conn) →
      Polled l interrupted reads env ({ l with conn := conn }.handle d env msg)
  | failed (e : Lgp.IoError) (conn : LgpConnection) : l.exited = false → l.draining = true →
      interrupted = false → ready l.conn = true → l.conn.recv reads = some (.error e, conn) →
      Polled l interrupted reads env { l with conn := conn, draining := false }

theorem polled_step (l : EventLoop ρ) (interrupted : Bool) (reads : Nat → Nat) (env : AuthEnv) :
    Polled d l interrupted reads env (l.step d (.poll interrupted reads env)) := by
  rw [step]
  split
  · next hexited => exact .exited hexited
  · next hexited =>
    rw [Bool.not_eq_true] at hexited
    split
    · next hdraining =>
      rw [drain]
      split
      · next hstop =>
        rw [Bool.or_eq_true, Bool.not_eq_true'] at hstop
        exact .stops hexited hdraining hstop
      · next hgo =>
        rw [Bool.or_eq_true, not_or, Bool.not_eq_true, Bool.not_eq_true', Bool.not_eq_false] at hgo
        split
        · next hrecv => exact .blocked hexited hdraining hgo.1 hgo.2 hrecv
        · next msg conn hrecv => exact .handled msg conn hexited hdraining hgo.1 hgo.2 hrecv
        · next e conn hrecv => exact .failed e conn hexited hdraining hgo.1 hgo.2 hrecv
    · next hdraining => exact .waits hexited (Bool.not_eq_true _ ▸ hdraining)

/-- The next poll stops at an empty socket, and nowhere else unless `recv` fails. -/
theorem settled_iff : l.Settled d ↔ l.NoneStuck := by
  constructor
  · rintro ⟨hnow, hnext⟩ hexited (hwaiting | hempty)
    · exact hnow hexited hwaiting
    · have hpoll := polled_step d l false (fun _ => 0) ⟨none, none, fun _ _ => none⟩
      have hleft := hnext (fun _ => 0) ⟨none, none, fun _ _ => none⟩
      generalize l.step d _ = l' at hpoll hleft
      cases hpoll with
      | exited h => cases hexited.symm.trans h
      | waits _ hdraining => exact hnow hexited hdraining
      | stops _ _ _ => exact hleft hexited rfl
      | blocked _ _ _ hready | handled _ _ _ _ _ hready | failed _ _ _ _ _ hready =>
        cases hempty.symm.trans hready
  · intro h
    refine ⟨fun hexited hdraining => h hexited (.inl hdraining), fun reads env => ?_⟩
    have hpoll := polled_step d l false reads env
    generalize l.step d (.poll false reads env) = l' at hpoll
    intro hexited hdraining
    cases hpoll with
    | exited hexited' => cases hexited'.symm.trans hexited
    | waits hrunning hwaiting => exact h hrunning (.inl hwaiting)
    | stops hrunning _ hstop => exact h hrunning (.inr (hstop.resolve_left (by simp)))
    | blocked _ hdrains _ _ _ => cases hdrains.symm.trans hdraining
    | handled msg conn _ hdrains _ _ _ =>
      rw [(draining_handle d env _ msg).1] at hdraining
      cases hdrains.symm.trans hdraining
    | failed e conn _ _ _ _ hrecv => exact fun msg size => LgpConnection.recvLoop_error hrecv

/-- A poll leaves no frame stuck exactly under the condition. -/
theorem noneStuck_poll_iff (h : l.NoneStuck) (interrupted : Bool) (reads : Nat → Nat)
    (env : AuthEnv) :
    (l.step d (.poll interrupted reads env)).NoneStuck ↔
      l.Drains d (.poll interrupted reads env) := by
  have hpoll := polled_step d l interrupted reads env
  generalize l.step d (.poll interrupted reads env) = l' at hpoll
  cases hpoll with
  | exited hexited =>
    exact iff_of_true h fun hrunning => by cases hexited.symm.trans hrunning
  | waits hrunning hwaiting =>
    refine iff_of_true (fun _ _ => h hrunning (.inl hwaiting)) fun _ hdraining => ?_
    cases hwaiting.symm.trans hdraining
  | stops hrunning hdraining hstop =>
    have hstuck : NoneStuck { l with draining := false } ↔ NoFrame l.conn :=
      ⟨fun hstuck => hstuck hrunning (.inl rfl), fun hnone _ _ => hnone⟩
    rw [hstuck]
    refine ⟨fun hnone _ _ => ?_, fun hdrains => ?_⟩
    · split
      · exact hnone
      · next hquiet =>
        -- there is nothing to read, and no frame in the buffer for `recv` to return
        have hempty : ready l.conn = false := hstop.resolve_left hquiet
        intro msg conn hrecv _ _ htwo
        obtain ⟨msg₁, size₁, -, -, hfirst, -⟩ := htwo
        rw [LgpConnection.unread, bytes_of_not_ready hempty, List.append_nil] at hfirst
        exact hnone msg₁ size₁ hfirst
    · rcases hstop with hint | hempty
      · have hcond := hdrains hrunning hdraining
        rwa [if_pos hint] at hcond
      · exact h hrunning (.inr hempty)
  | blocked hrunning hdraining hint hready hrecv =>
    refine iff_of_true h fun _ _ => ?_
    rw [hint, hrecv]
    exact fun msg conn hsome => by cases hsome
  | handled msg conn hrunning hdraining hint hready hrecv =>
    obtain ⟨hdraining', hconn⟩ := draining_handle d env { l with conn := conn } msg
    have hexited' := exited_handle d env (l := { l with conn := conn }) hrunning msg
    rw [NoneStuck, hdraining', hconn, hexited', hint]
    constructor
    · intro hstuck _ _ msg' conn' hrecv' hempty hstays
      cases hrecv.symm.trans hrecv'
      refine (noFrame_iff hrecv hempty).1 (hstuck ?_ (.inr hempty))
      rwa [← Option.not_isSome, Bool.not_eq_false']
    · intro hdrains hstays hstopped
      have hempty : ready conn = false :=
        hstopped.resolve_left (by rw [hdraining]; exact Bool.noConfusion)
      refine (noFrame_iff hrecv hempty).2 (hdrains hrunning hdraining msg conn hrecv hempty ?_)
      rwa [← Option.not_isSome, Bool.not_eq_false'] at hstays
  | failed e conn hrunning hdraining hint hready hrecv =>
    refine iff_of_true (fun _ _ msg size => LgpConnection.recvLoop_error hrecv) fun _ _ => ?_
    rw [hint, hrecv]
    exact fun msg conn hsome => by cases hsome

theorem noneStuck_step_iff (h : l.NoneStuck) (e : LoopEvent) :
    (l.step d e).NoneStuck ↔ l.Drains d e := by
  cases e with
  | arrive bytes =>
    refine iff_of_true (fun hrunning hstopped => h hrunning (hstopped.imp id fun hempty => ?_))
      trivial
    have hbytes := bytes_of_not_ready hempty
    rw [ready, Bool.or_eq_false_iff] at hempty ⊢
    refine ⟨?_, hempty.2⟩
    rw [(List.append_eq_nil_iff.1 hbytes).1]
    rfl
  | close =>
    refine iff_of_true (fun hrunning hstopped => h hrunning (.inl (hstopped.resolve_right ?_)))
      trivial
    simp [step, ready]
  | poll interrupted reads env => exact noneStuck_poll_iff d h interrupted reads env

/-- **Going back to wait.**  Whatever arrives and however it is read, and whenever the loop polls,
it is at the waiting poll only without a complete frame in `rx_buf`, if and only if this is so at
the beginning and every step `Drains`. -/
theorem no_frame_left_iff (l : EventLoop ρ) (events : List LoopEvent) :
    (∀ pre, pre <+: events → (run (step d) l pre).Settled d) ↔
      l.Settled d ∧ Along (step d) (Drains d) l events := by
  simp only [settled_iff]
  have hruns (h : l.NoneStuck) : (∀ pre, pre <+: events → (run (step d) l pre).NoneStuck) ↔
        Along (step d) (Drains d) l events :=
    forall_prefix_iff (I := NoneStuck) (H := fun _ _ => True)
      (fun _ e h _ => noneStuck_step_iff d h e) h (along_trivial l events)
  constructor
  · intro h
    have hstart : l.NoneStuck := h [] (List.nil_prefix)
    exact ⟨hstart, (hruns hstart).1 h⟩
  · rintro ⟨hstart, hdrains⟩
    exact (hruns hstart).2 hdrains

end

/-- A shell whose connection has nothing to read. -/
def idle : EventLoop Unit where
  conn := { socket := ⟨[], false⟩ }
  state := ⟨LockScreen.new none, ()⟩

def movedTo (x y : UInt32) : Bytes := (LgpMessage.new .pointerMotion (Lgp.words [x, y])).encode

/-- A poll that is not interrupted, with reads of some size. -/
def pollOf (size : Nat) : LoopEvent := .poll false (fun _ => size) ⟨none, none, fun _ _ => none⟩

/-- **Two frames that arrive together.**  One `recv` reads both and returns the first.  The socket
is empty then, and the shell waits with the second in its buffer. -/
theorem frame_left_behind :
    let l := run (step System.bareDesktop) idle
      [.arrive (movedTo 5 6 ++ movedTo 7 8), pollOf 0, pollOf 4095, pollOf 0]
    l.draining = false ∧ l.conn.socket.bytes = [] ∧ l.conn.rxBuf = movedTo 7 8 ∧ ¬l.NoneLeft := by
  intro l
  have h : l.exited = false ∧ l.draining = false ∧ l.conn.socket.bytes = [] ∧
      l.conn.rxBuf = movedTo 7 8 := by decide +kernel
  obtain ⟨hrunning, hwaiting, hempty, hrx⟩ := h
  refine ⟨hwaiting, hempty, hrx, fun hleft => ?_⟩
  refine hleft hrunning hwaiting (.new .pointerMotion (Lgp.words [7, 8])) 14 ?_
  decide +kernel

end EventLoop

end Shell
