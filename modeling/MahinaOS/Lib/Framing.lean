import MahinaOS.Lib.Run

/-!
# Messages out of a stream

A receiver appends what it reads to a buffer, handles every complete message at the front, and keeps
the rest for the next read.  Whether the messages depend on how the stream was cut into reads is
decided by one thing: what is found at the front of the buffer must not change when more bytes
arrive.

* `Format` is a framing with that property (`Format.headed` one whose messages start with their
  length), and `drain` the loop over the messages in a buffer.  The handler is a function on some
  state, which also says whether to go on.
* **`drain_append`**: draining a buffer and later the rest of it with more bytes is draining all of
  it at once.
* `Conn` is a receiver, and **`run_feed`** says that after any sequence of reads it is where one
  read of all the bytes would have brought it.
-/

namespace Framing

open Run List

universe u v w

variable {β : Type u} {μ : Type v} {σ : Type w}

/-- What the front of a buffer holds: too little to tell, nothing that can be a message, or a
message and the number of bytes it takes. -/
inductive Next (μ : Type v) where
  | more
  | bad
  | frame (msg : μ) (size : Nat)
  deriving DecidableEq

/-- A way to cut messages off the front of a buffer that does not look at what follows them. -/
structure Format (β : Type u) (μ : Type v) where
  next : List β → Next μ
  next_nil : next [] = .more
  size_pos : ∀ {rx msg size}, next rx = .frame msg size → 0 < size
  size_le : ∀ {rx msg size}, next rx = .frame msg size → size ≤ rx.length
  frame_append : ∀ {rx msg size}, next rx = .frame msg size →
    ∀ bytes, next (rx ++ bytes) = .frame msg size
  bad_append : ∀ {rx}, next rx = .bad → ∀ bytes, next (rx ++ bytes) = .bad

/-- Messages with a header of `n` elements from which the length of the whole can be read: `total`
says it, `max` is the longest that is accepted, and `parse` reads a message. -/
def Format.headed (n max : Nat) (hn : 0 < n) (total : List β → Nat) (parse : List β → μ)
    (htotal : ∀ p q, n ≤ p.length → total (p ++ q) = total p) : Format β μ where
  next rx :=
    if n ≤ rx.length then
      if total rx < n ∨ total rx > max then .bad
      else if total rx ≤ rx.length then .frame (parse (rx.take (total rx))) (total rx)
      else .more
    else .more
  next_nil := if_neg (Nat.not_le.2 hn)
  size_pos {rx msg size} h := by
    split at h
    · split at h
      · cases h
      · split at h
        · cases h
          omega
        · cases h
    · cases h
  size_le {rx msg size} h := by
    split at h
    · split at h
      · cases h
      · split at h
        · cases h
          assumption
        · cases h
    · cases h
  frame_append {rx msg size} h bytes := by
    split at h
    · next hn =>
      rw [if_pos (by rw [length_append]; omega), htotal rx bytes hn]
      split at h
      · cases h
      · next hbad =>
        rw [if_neg hbad]
        split at h
        · next hle =>
          rw [if_pos (by rw [length_append]; omega), take_append_of_le_length hle, h]
        · cases h
    · cases h
  bad_append {rx} h bytes := by
    split at h
    · next hn =>
      rw [if_pos (by rw [length_append]; omega), htotal rx bytes hn]
      split at h
      · next hbad => rw [if_pos hbad]
      · split at h <;> cases h
    · cases h

/-- The loop over the messages at the front of a buffer: the state of the handler, what is left of
the buffer, and whether all went well. -/
def loop (F : Format β μ) (handle : σ → μ → σ × Bool) : Nat → σ → List β → σ × List β × Bool
  | 0, s, rx => (s, rx, true)
  | fuel + 1, s, rx =>
    match F.next rx with
    | .more => (s, rx, true)
    | .bad => (s, rx, false)
    | .frame msg size =>
      match handle s msg with
      | (s, false) => (s, rx, false)
      | (s, true) => loop F handle fuel s (rx.drop size)

/-- Every message takes at least one byte, so the length of the buffer is enough fuel. -/
def drain (F : Format β μ) (handle : σ → μ → σ × Bool) (s : σ) (rx : List β) :
    σ × List β × Bool :=
  loop F handle rx.length s rx

/-- Induction over the messages at the front of a buffer. -/
theorem Format.induct (F : Format β μ) {motive : List β → Prop}
    (step : ∀ rx, (∀ msg size, F.next rx = .frame msg size → motive (rx.drop size)) → motive rx)
    (rx : List β) : motive rx := by
  induction hn : rx.length using Nat.strongRecOn generalizing rx with
  | ind n ih =>
    refine step rx fun msg size hnext => ih (rx.drop size).length ?_ (rx.drop size) rfl
    have hpos := F.size_pos hnext
    have hle := F.size_le hnext
    rw [length_drop]
    omega

section Drain

variable (F : Format β μ) (handle : σ → μ → σ × Bool) {s : σ}

theorem loop_eq_drain {fuel : Nat} {rx : List β} (h : rx.length ≤ fuel) :
    loop F handle fuel s rx = drain F handle s rx := by
  suffices hfuel : ∀ fuel fuel' s, rx.length ≤ fuel → rx.length ≤ fuel' →
      loop F handle fuel s rx = loop F handle fuel' s rx from hfuel _ _ s h (Nat.le_refl _)
  induction rx using F.induct with
  | step rx ih =>
    intro fuel fuel' s hfuel hfuel'
    rcases rx with - | ⟨b, rx⟩
    · cases fuel <;> cases fuel' <;> simp [loop, F.next_nil]
    · obtain ⟨fuel, rfl⟩ := Nat.exists_eq_add_of_le' (Nat.lt_of_lt_of_le (Nat.succ_pos _) hfuel)
      obtain ⟨fuel', rfl⟩ := Nat.exists_eq_add_of_le' (Nat.lt_of_lt_of_le (Nat.succ_pos _) hfuel')
      rw [loop, loop]
      cases hnext : F.next (b :: rx) with
      | more => rfl
      | bad => rfl
      | frame msg size =>
        dsimp only
        split
        · rfl
        · have hpos := F.size_pos hnext
          have hlen : ((b :: rx).drop size).length < (b :: rx).length := by
            rw [length_drop, length_cons]
            omega
          exact ih msg size hnext (by omega) _ _ _ (by omega) (by omega)

theorem drain_eq (s : σ) (rx : List β) :
    drain F handle s rx =
      match F.next rx with
      | .more => (s, rx, true)
      | .bad => (s, rx, false)
      | .frame msg size =>
        match handle s msg with
        | (s, false) => (s, rx, false)
        | (s, true) => drain F handle s (rx.drop size) := by
  rw [← loop_eq_drain F handle (Nat.le_succ rx.length), loop]
  cases hnext : F.next rx with
  | more => rfl
  | bad => rfl
  | frame msg size =>
    dsimp only
    split
    · rfl
    · exact loop_eq_drain F handle (by rw [length_drop]; omega)

/-- **Draining in two steps.**  If the first part goes well, its rest is drained with what follows;
otherwise nothing that follows matters. -/
theorem drain_append (s : σ) (rx bytes : List β) :
    drain F handle s (rx ++ bytes) =
      match drain F handle s rx with
      | (s', rest, true) => drain F handle s' (rest ++ bytes)
      | (s', rest, false) => (s', rest ++ bytes, false) := by
  induction rx using F.induct generalizing s with
  | step rx ih =>
    rw [drain_eq F handle s rx]
    cases hnext : F.next rx with
    | more => rfl
    | bad => rw [drain_eq, F.bad_append hnext]
    | frame msg size =>
      rw [drain_eq, F.frame_append hnext]
      dsimp only
      split
      · rfl
      · rw [drop_append_of_le_length (F.size_le hnext)]
        exact ih msg size hnext _

/-- What is left when all went well has no message at its front. -/
theorem next_drain {rx : List β} (h : (drain F handle s rx).2.2 = true) :
    F.next (drain F handle s rx).2.1 = .more := by
  induction rx using F.induct generalizing s with
  | step rx ih =>
    rw [drain_eq] at h ⊢
    cases hnext : F.next rx with
    | more => exact hnext
    | bad =>
      rw [hnext] at h
      cases h
    | frame msg size =>
      rw [hnext] at h
      dsimp only at h ⊢
      split at h
      · cases h
      · exact ih msg size hnext h

theorem loop_inv {I : σ → Prop} (hstep : ∀ s msg, I s → I (handle s msg).1) (fuel : Nat)
    (rx : List β) (h : I s) : I (loop F handle fuel s rx).1 := by
  induction fuel generalizing s rx with
  | zero => exact h
  | succ fuel ih =>
    rw [loop]
    split
    · exact h
    · exact h
    · next msg size _ =>
      have hnext := hstep s msg h
      split
      · next heq =>
        rw [heq] at hnext
        exact hnext
      · next heq =>
        rw [heq] at hnext
        exact ih _ hnext

end Drain

/-! ## A receiver -/

/-- A receiver: the state of its handler, the bytes not handled yet, and whether it has given up. -/
structure Conn (σ : Type w) (β : Type u) where
  state : σ
  rx : List β := []
  dropped : Bool := false

def Conn.feed (F : Format β μ) (handle : σ → μ → σ × Bool) (c : Conn σ β) (bytes : List β) :
    Conn σ β :=
  if c.dropped then c
  else
    match drain F handle c.state (c.rx ++ bytes) with
    | (s, rx, ok) => ⟨s, rx, !ok⟩

/-- Two receivers that cannot be told apart; what is in the buffer of one that has given up is
nobody's business. -/
structure Conn.Same (c d : Conn σ β) : Prop where
  state : c.state = d.state
  dropped : c.dropped = d.dropped
  rx : c.dropped = false → c.rx = d.rx

theorem Conn.Same.trans {c d e : Conn σ β} (h : c.Same d) (h' : d.Same e) : c.Same e where
  state := h.state.trans h'.state
  dropped := h.dropped.trans h'.dropped
  rx hc := (h.rx hc).trans (h'.rx (h.dropped ▸ hc))

/-- There is nothing to do before the next read. -/
def Conn.Settled (F : Format β μ) (c : Conn σ β) : Prop := c.dropped = false → F.next c.rx = .more

section Feed

variable (F : Format β μ) (handle : σ → μ → σ × Bool) {c : Conn σ β}

theorem Conn.settled_feed (h : c.Settled F) (bytes : List β) :
    (c.feed F handle bytes).Settled F := by
  rw [Conn.feed]
  split
  · exact h
  · intro hok
    refine next_drain F handle ?_
    simpa using hok

theorem Conn.feed_nil (h : c.Settled F) : c.feed F handle [] = c := by
  obtain ⟨s, rx, dropped⟩ := c
  cases dropped with
  | true => rfl
  | false =>
    have hmore : F.next rx = .more := h rfl
    simp [Conn.feed, drain_eq, hmore]

theorem Conn.feed_feed (c : Conn σ β) (bytes bytes' : List β) :
    ((c.feed F handle bytes).feed F handle bytes').Same (c.feed F handle (bytes ++ bytes')) := by
  obtain ⟨s, rx, dropped⟩ := c
  cases dropped with
  | true => exact ⟨rfl, rfl, fun h => by cases h⟩
  | false =>
    have happend := drain_append F handle s (rx ++ bytes) bytes'
    cases hdrain : drain F handle s (rx ++ bytes) with
    | mk s' p =>
      obtain ⟨rest, ok⟩ := p
      cases ok with
      | true =>
        have heq : (Conn.feed F handle ⟨s, rx, false⟩ bytes).feed F handle bytes' =
            .feed F handle ⟨s, rx, false⟩ (bytes ++ bytes') := by
          simp only [Conn.feed, hdrain, ← append_assoc, happend]
          rfl
        rw [heq]
        exact ⟨rfl, rfl, fun _ => rfl⟩
      | false =>
        simp only [Conn.feed, hdrain, ← append_assoc, happend]
        exact ⟨rfl, rfl, fun h => by cases h⟩

/-- **Reads do not matter.**  After any sequence of reads, the receiver is where one read of all the
bytes would have brought it. -/
theorem run_feed (h : c.Settled F) (chunks : List (List β)) :
    (run (Conn.feed F handle) c chunks).Same (c.feed F handle chunks.flatten) := by
  induction chunks generalizing c with
  | nil =>
    rw [flatten_nil, Conn.feed_nil F handle h]
    exact ⟨rfl, rfl, fun _ => rfl⟩
  | cons bytes chunks ih =>
    exact (ih (Conn.settled_feed F handle h bytes)).trans (Conn.feed_feed F handle c bytes _)

end Feed

end Framing
