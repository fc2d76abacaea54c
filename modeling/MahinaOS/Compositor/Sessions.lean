import MahinaOS.Compositor.Turns

/-!
# Sessions

Every connection gets a session id from a 32-bit counter, and surfaces, the keyboard focus and the
send functions know a client by that id only.  Whether an id is the id of one client is therefore
what all routing rests on.

`Sound` says that it is: the ids of the connected clients are distinct and not 0, the owner of every
surface in use is connected, and so is the registered window manager.

* **`Sound.step`**: every turn of the event loop keeps `Sound`, as long as the counter has not come
  back to 0 when a client is accepted (`NoWrap`).
* `replies_step`: a turn that is not an input event writes no input message.
-/

namespace Compositor

open List

/-- Session ids single out clients, and what is known by a session id is connected. -/
structure Sound (st : State) : Prop where
  nonzero : ∀ c ∈ st.clients.list, c.sessionId ≠ 0
  fresh : st.nextSessionId ≠ 0 → ∀ c ∈ st.clients.list, c.sessionId < st.nextSessionId
  distinct : ∀ c ∈ st.clients.list, ∀ d ∈ st.clients.list, c.sessionId = d.sessionId → c.fd = d.fd
  owner : ∀ s ∈ st.surfaceManager.slots, s.inUse = true →
    ∃ c ∈ st.clients.list, c.sessionId = s.ownerSessionId
  wm : ∀ fd, st.wmClient = some fd → ∃ c ∈ st.clients.list, c.fd = fd

theorem sound_init : Sound {} where
  nonzero c hc := by cases hc
  fresh _ c hc := by cases hc
  distinct c hc := by cases hc
  owner s hs huse := by
    rw [eq_of_mem_replicate hs] at huse
    cases huse
  wm fd h := by cases h

/-! ## Every turn keeps the sessions sound -/

variable {st : State}

/-- The messages of a connected client: sessions stay with their clients, and a new surface belongs
to the client. -/
theorem Sound.of_change {client : Client} {st' : State} (h : Sound st)
    (hclient : client ∈ st.clients.list) (hc : Change client st st') : Sound st' := by
  have hold : ∀ c ∈ st'.clients.list, ∃ d ∈ st.clients.list,
      d.fd = c.fd ∧ d.sessionId = c.sessionId := fun c hc' => by
    obtain ⟨d, hd, hstep⟩ := ListUpdate.exists_of_forall₂ hc.clients hc'
    exact ⟨d, hd, hstep.fd.symm, hstep.sessionId.symm⟩
  have hstays : ∀ d ∈ st.clients.list, ∃ c ∈ st'.clients.list,
      c.fd = d.fd ∧ c.sessionId = d.sessionId := fun d hd => by
    obtain ⟨c, hc', hstep⟩ := ListUpdate.exists_of_forall₂ hc.clients.flip hd
    exact ⟨c, hc', hstep.fd, hstep.sessionId⟩
  refine { nonzero := ?_, fresh := ?_, distinct := ?_, owner := ?_, wm := ?_ }
  · intro c hc'
    obtain ⟨d, hd, -, hid⟩ := hold c hc'
    exact hid ▸ h.nonzero d hd
  · intro hnext c hc'
    obtain ⟨d, hd, -, hid⟩ := hold c hc'
    rw [hc.next] at hnext ⊢
    exact hid ▸ h.fresh hnext d hd
  · intro c hc' e he heq
    obtain ⟨d, hd, hfd, hid⟩ := hold c hc'
    obtain ⟨d', hd', hfd', hid'⟩ := hold e he
    rw [← hfd, ← hfd']
    exact h.distinct d hd d' hd' (by rw [hid, hid', heq])
  · intro s hs huse
    have howner : ∃ d ∈ st.clients.list, d.sessionId = s.ownerSessionId := by
      obtain ⟨t, ht, hstep⟩ := ListUpdate.exists_of_forall₂ hc.slots hs
      cases hstep with
      | keep => exact h.owner s ht huse
      | commit _ huse' | place _ _ huse' | setState _ huse' => exact h.owner t ht huse'
      | create id hfree hok => exact ⟨client, hclient, rfl⟩
      | destroy => cases huse
    obtain ⟨d, hd, howner⟩ := howner
    obtain ⟨c, hc', -, hid⟩ := hstays d hd
    exact ⟨c, hc', hid.trans howner⟩
  · intro fd hwm
    rcases hc.wm with heq | ⟨heq, c, hc', hfd, -⟩
    · obtain ⟨d, hd, hfd⟩ := h.wm fd (heq ▸ hwm)
      obtain ⟨c, hc', hfd', -⟩ := hstays d hd
      exact ⟨c, hc', hfd'.trans hfd⟩
    · exact ⟨c, hc', hfd.trans (Option.some.inj (heq.symm.trans hwm))⟩

theorem Sound.closeFd (h : Sound st) (fd : Nat) : Sound (closeFd st fd) := by
  rw [Compositor.closeFd]
  split
  · next client hfind =>
    obtain ⟨hclient, -⟩ := Clients.find_eq_some.1 hfind
    have hold : ∀ c ∈ (st.clients.remove client.fd).list, c ∈ st.clients.list :=
      fun c hc => (Clients.mem_remove.1 hc).1
    exact
      { nonzero := fun c hc => h.nonzero c (hold c hc)
        fresh := fun hnext c hc => h.fresh hnext c (hold c hc)
        distinct := fun c hc d hd => h.distinct c (hold c hc) d (hold d hd)
        owner := fun s hs huse => by
          obtain ⟨hs, hother⟩ := SurfaceManager.mem_destroyForClient hs huse
          obtain ⟨c, hc, howner⟩ := h.owner s hs huse
          rw [← howner] at hother
          exact ⟨c, Clients.mem_remove_of_session hc hclient hother, howner⟩
        wm := fun fd' hwm => by
          obtain ⟨hne, hwm'⟩ := wmClient_closeClient hwm
          obtain ⟨c, hc, hfd⟩ := h.wm fd' hwm'
          exact ⟨c, Clients.mem_remove.2 ⟨hc, fun heq => hne (hfd.symm.trans heq)⟩, hfd⟩ }
  · exact h

theorem Sound.kept : Kept Sound where
  change hclient hc h := h.of_change hclient hc
  close fd h := h.closeFd fd

/-- The session counter has not come back to 0 when a client is accepted. -/
def NoWrap (st : State) : Event → Prop
  | .accept _ _ _ => st.nextSessionId ≠ 0
  | _ => True

theorem Sound.accept (h : Sound st) (hnext : st.nextSessionId ≠ 0) (fd : Nat) (uid : UInt32)
    (watched : Bool) : Sound (accept st fd uid watched) := by
  have hfresh := h.fresh hnext
  have hlt : st.nextSessionId + 1 ≠ 0 → st.nextSessionId < st.nextSessionId + 1 := by
    intro hne
    have hlt := st.nextSessionId.toNat_lt
    have hne' : (st.nextSessionId + 1).toNat ≠ 0 := fun h0 => hne (UInt32.toNat_inj.1 h0)
    rw [UInt32.lt_iff_toNat_lt]
    rw [UInt32.toNat_add] at hne' ⊢
    simp only [UInt32.toNat_one] at hne' ⊢
    omega
  have hfresh' : st.nextSessionId + 1 ≠ 0 → ∀ c ∈ st.clients.list,
      c.sessionId < st.nextSessionId + 1 := fun hne c hc => UInt32.lt_trans (hfresh c hc) (hlt hne)
  rw [Compositor.accept]
  split
  · exact h
  · next hnew =>
    dsimp only
    split
    · refine { nonzero := ?_, fresh := ?_, distinct := ?_, owner := ?_, wm := ?_ }
      · intro c hc
        rcases mem_cons.1 hc with rfl | hc
        · exact hnext
        · exact h.nonzero c hc
      · intro hne c hc
        rcases mem_cons.1 hc with rfl | hc
        · exact hlt hne
        · exact hfresh' hne c hc
      · intro c hc d hd heq
        rcases mem_cons.1 hc with rfl | hc <;> rcases mem_cons.1 hd with rfl | hd
        · rfl
        · exact absurd (hfresh d hd) (heq ▸ UInt32.lt_irrefl _)
        · exact absurd (hfresh c hc) (heq ▸ UInt32.lt_irrefl _)
        · exact h.distinct c hc d hd heq
      · intro s hs huse
        obtain ⟨c, hc, howner⟩ := h.owner s hs huse
        exact ⟨c, mem_cons_of_mem _ hc, howner⟩
      · intro fd' hwm
        obtain ⟨c, hc, hfd⟩ := h.wm fd' hwm
        exact ⟨c, mem_cons_of_mem _ hc, hfd⟩
    · exact { h with fresh := hfresh' }

theorem Sound.sendToWm (h : Sound st) (msg : Msg) : Sound (st.sendToWm msg) := by
  obtain ⟨sent, heq⟩ := sendToWm_eq st msg
  exact heq ▸ { h with }

/-- **Sessions stay sound.**  Every turn of the event loop keeps `Sound`. -/
theorem Sound.step (h : Sound st) {mode : Mode} {e : Event} (hwrap : NoWrap st e) :
    Sound (step mode st e) := by
  refine inv_step (fun _ _ _ h => { h with }) ?_ ?_ ?_ h
  · rintro fd uid watched rfl h
    exact h.accept hwrap fd uid watched
  · exact fun fd r env h => Sound.kept.readClient env fd r h
  · exact fun fd h => h.closeFd fd

/-! ## Only input events write input messages -/

/-- The frames written so far carry no input. -/
def Replies (st : State) : Prop := ∀ w ∈ st.sent, w.msg.isInput = false

theorem Replies.kept : Kept Replies where
  change _ hc h w hw := (hc.sent w hw).elim (h w) id
  close fd h := by
    rw [closeFd]
    split
    · exact h
    · exact h

theorem replies_step {mode : Mode} {e : Event} (he : e.isInput = false) :
    ∀ w ∈ (step mode st e).sent, w.msg.isInput = false := by
  have hclear : Replies { st with sent := [] } := fun w hw => by cases hw
  cases e with
  | accept fd uid watched =>
    show Replies (accept { st with sent := [] } fd uid watched)
    rw [accept]
    split
    · exact hclear
    · dsimp only
      split
      · exact hclear
      · exact hclear
  | read fd r env => exact Replies.kept.readClient env fd r hclear
  | hangup fd => exact Replies.kept.close fd hclear
  | key | motion | button => cases he

end Compositor
