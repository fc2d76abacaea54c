import MahinaOS.Compositor.Live
import Mathlib.Data.Finset.Basic
import Mathlib.Data.List.Basic

/-!
# What a window manager has been told

A window manager learns of the windows of other clients from the frames that the compositor sends it
when one is created or destroyed.  It has no other way to know, so what it has been told should be
what there is.

`Watch` is the compositor with two records beside it that a run keeps: the surfaces of other clients
created since the watch began, which follow the surface table, and the ids that the window manager
believes in, from the frames it gets.

* `Told` is what a move must do for the records to stay in step: a disconnect takes no surface away
  that was announced, and an announced surface is destroyed by its id.
* **`announced_iff`**: they agree in every state of a run exactly when all its moves are of that
  kind; in `announced_left_behind` a client leaves without destroying its window.

The conditions speak of ids rather than surfaces because ids come round after 2^32 surfaces; when no
two surfaces share an id and no two clients a session id, the second one always holds.
-/

namespace Compositor

open Run Slots

variable {l l' : List (Option Entry)} {k : UInt32}

/-- The compositor, watched on behalf of its window manager. -/
structure Watch where
  st : State
  /-- The surfaces of other clients created since the watch began. -/
  since : List (Option Entry)
  /-- The ids announced as created and not as destroyed. -/
  announced : Finset UInt32

def ids (l : List (Option Entry)) : List UInt32 := l.filterMap (Option.map Entry.id)

def hear (wm : Nat) (announced : Finset UInt32) (s : Sent) : Finset UInt32 :=
  if s.fd ≠ wm then announced
  else if s.msg.type = MsgType.wmSurfaceCreated then insert (readU32Le s.msg.payload 0) announced
  else if s.msg.type = MsgType.wmSurfaceDestroyed then announced.erase (readU32Le s.msg.payload 0)
  else announced

namespace Watch

def start (st : State) : Watch := ⟨st, st.live.map fun _ => none, ∅⟩

def step (mode : Mode) (wm : Nat) (w : Watch) (m : Move) : Watch where
  st := move mode w.st m
  since := follow (m.sender ≠ some wm) w.st.live (move mode w.st m).live w.since
  announced := (w.st.newNotices (move mode w.st m)).foldl (hear wm) w.announced

/-- The ids of the live surfaces of other clients created since the watch began. -/
def liveSince (w : Watch) : Finset UInt32 := (ids w.since).toFinset

/-- The window manager is told of what the move takes away, and of nothing else: no surface of a
client that is disconnected was announced, and the id of a surface that is destroyed is that of no
other announced surface. -/
def Told (mode : Mode) (wm : Nat) (w : Watch) (m : Move) : Prop :=
  (∀ c ∈ m.closes mode w.st,
    ∀ k ∈ ids w.since, k ∈ ids (freeAll (Entry.ownedBy c.sessionId) w.since)) ∧
  ∀ id ∈ m.destroys mode w.st,
    if m.sender = some wm then
      id ∈ ids w.since → id ∈ ids (without (Entry.hasId id) w.st.live w.since)
    else id ∉ ids (without (Entry.hasId id) w.st.live w.since)

-- by going through the list and the option, and not through all ids
instance (mode : Mode) (wm : Nat) (w : Watch) (m : Move) : Decidable (w.Told mode wm m) := by
  unfold Told
  infer_instance

/-- The window manager stays registered. -/
def Registered (mode : Mode) (wm : Nat) (w : Watch) (m : Move) : Prop :=
  (move mode w.st m).wmClient = some wm

instance (mode : Mode) (wm : Nat) (w : Watch) (m : Move) : Decidable (w.Registered mode wm m) :=
  inferInstanceAs (Decidable (_ = _))

/-! ## What is heard -/

theorem mem_ids :
    k ∈ ids l ↔ ∃ e, some e ∈ l ∧ e.id = k := by
  simp [ids]

theorem hear_created (wm : Nat) (announced : Finset UInt32) (id type w h : UInt32) :
    hear wm announced ⟨wm, encodeSurfaceCreated id type w h⟩ = insert id announced := by
  have hid : readU32Le (encodeSurfaceCreated id type w h).payload 0 = id := by
    have hread := readU32Le_writeU32Le [] (writeU32Le type ++ writeU32Le w ++ writeU32Le h) id
    simpa [encodeSurfaceCreated, List.append_assoc] using hread
  have htype : (encodeSurfaceCreated id type w h).type = MsgType.wmSurfaceCreated := rfl
  rw [hear, if_neg (by simp), if_pos htype, hid]

theorem hear_destroyed (wm : Nat) (announced : Finset UInt32) (id : UInt32) :
    hear wm announced ⟨wm, encodeSurfaceDestroyed id⟩ = announced.erase id := by
  have hid : readU32Le (encodeSurfaceDestroyed id).payload 0 = id := by
    have hread := readU32Le_writeU32Le [] [] id
    simpa [encodeSurfaceDestroyed] using hread
  have htype : (encodeSurfaceDestroyed id).type = MsgType.wmSurfaceDestroyed := rfl
  have hother : (encodeSurfaceDestroyed id).type ≠ MsgType.wmSurfaceCreated := by
    rw [htype]
    decide
  rw [hear, if_neg (by simp), if_neg hother, if_pos htype, hid]

/-- What is heard of a notice is decided by who the sender is. -/
theorem foldl_noticeTo {st : State} {wm : Nat} (hwm : st.wmClient = some wm) (client : Client)
    (msg : Msg) (announced : Finset UInt32) :
    (noticeTo st client msg).foldl (hear wm) announced =
      if wm ≠ client.fd then hear wm announced ⟨wm, msg⟩ else announced := by
  rw [noticeTo, hwm]
  dsimp only
  split <;> rfl

/-! ## The records agree -/

/-- The records follow the compositor, and agree. -/
structure Agree (wm : Nat) (w : Watch) : Prop where
  follows : Follows w.st.live w.since
  registered : w.st.wmClient = some wm
  announced : w.announced = w.liveSince

section

variable {mode : Mode} {wm : Nat} {w : Watch} {m : Move}

theorem length_live (st : State) : st.live.length = surfaceMax := by
  rw [State.live, List.length_map, st.surfaceManager.size]

theorem follows_step (h : Follows w.st.live w.since) :
    Follows (w.step mode wm m).st.live (w.step mode wm m).since :=
  h.follow ((length_live _).trans (length_live _).symm)

theorem mem_liveSince : k ∈ w.liveSince ↔ k ∈ ids w.since := List.mem_toFinset

theorem ids_congr (h : ∀ e, some e ∈ l ↔ some e ∈ l') (k : UInt32) :
    k ∈ ids l ↔ k ∈ ids l' := by
  rw [mem_ids, mem_ids]
  exact exists_congr fun e => and_congr_left' (h e)

variable {id : UInt32}

/-- The ids that are left are those there were, except perhaps the id destroyed. -/
theorem mem_ids_without (h : Follows l l')
    (hne : k ≠ id) : k ∈ ids (without (Entry.hasId id) l l') ↔ k ∈ ids l' := by
  rw [mem_ids, mem_ids]
  refine exists_congr fun e => and_congr_left fun hk => h.mem_without ?_
  simpa [Entry.hasId, hk] using hne

theorem mem_ids_of_without
    (h : k ∈ ids (without (Entry.hasId id) l l')) : k ∈ ids l' := by
  obtain ⟨e, he, hk⟩ := mem_ids.1 h
  exact mem_ids.2 ⟨e, mem_of_mem_without he, hk⟩

/-- A disconnect: nothing is said, and the surfaces of the client are gone. -/
theorem agree_closed_iff {p : Entry → Bool} :
    (∀ k, k ∈ ids l ↔ k ∈ ids (freeAll p l)) ↔ ∀ k ∈ ids l, k ∈ ids (freeAll p l) := by
  refine ⟨fun h k => (h k).1, fun h k => ⟨h k, fun hk => ?_⟩⟩
  obtain ⟨e, he, hid⟩ := mem_ids.1 hk
  exact mem_ids.2 ⟨e, (mem_freeAll.1 he).1, hid⟩

/-- A destruction that the window manager hears of. -/
theorem agree_heard_iff (h : Follows l l') :
    (∀ k, k ≠ id ∧ k ∈ ids l' ↔ k ∈ ids (without (Entry.hasId id) l l')) ↔
      id ∉ ids (without (Entry.hasId id) l l') := by
  constructor
  · intro hk hid
    exact ((hk id).2 hid).1 rfl
  · intro hid k
    by_cases hne : k = id
    · subst hne
      exact iff_of_false (fun h => h.1 rfl) hid
    · rw [mem_ids_without h hne]
      exact and_iff_right hne

/-- A destruction by the window manager itself. -/
theorem agree_unheard_iff (h : Follows l l') :
    (∀ k, k ∈ ids l' ↔ k ∈ ids (without (Entry.hasId id) l l')) ↔
      (id ∈ ids l' → id ∈ ids (without (Entry.hasId id) l l')) := by
  refine ⟨fun hk => (hk id).1, fun hid k => ⟨fun hk => ?_, mem_ids_of_without⟩⟩
  by_cases hne : k = id
  · subst hne
    exact hid hk
  · exact (mem_ids_without h hne).2 hk

theorem told_of_none (hcloses : m.closes mode w.st = none)
    (hdestroys : m.destroys mode w.st = none) : w.Told mode wm m := by
  simp [Told, hcloses, hdestroys]

/-- One move: where the records agree, they stay in agreement under `Told`, and only then. -/
theorem agree_step_iff (h : w.Agree wm) :
    (w.step mode wm m).announced = (w.step mode wm m).liveSince ↔ w.Told mode wm m := by
  have hsame : ∀ k, k ∈ w.announced ↔ k ∈ ids w.since := fun k => by
    rw [h.announced, mem_liveSince]
  have hmove := moved_move mode w.st m
  rw [Finset.ext_iff]
  simp only [mem_liveSince, step]
  cases hmove with
  | calm hcloses hdestroys hlive hnew hfocus =>
    refine iff_of_true (fun k => ?_) (told_of_none hcloses hdestroys)
    rw [hnew, hlive, h.follows.same]
    exact hsame k
  | created client hsender hcloses hdestroys id type width height hfree hlive hnew hfocus =>
    refine iff_of_true (fun k => ?_) (told_of_none hcloses hdestroys)
    rw [hnew, hlive, foldl_noticeTo h.registered, hear_created, mem_ids]
    simp only [h.follows.mem_fillFirst hfree, hsender]
    by_cases hfd : wm = client.fd
    · subst hfd
      simp [hsame, mem_ids]
    · simp [hfd, hsame, mem_ids, eq_comm]
  | destroyed client hsender hcloses id hdestroys hlive hnew hfocus =>
    have hids : ∀ k, k ∈ ids (follow (decide (m.sender ≠ some wm)) w.st.live
        (freeFirst (Entry.hasId id) w.st.live) w.since) ↔
          k ∈ ids (without (Entry.hasId id) w.st.live w.since) :=
      ids_congr fun _ => h.follows.mem_freeFirst
    simp only [hnew, hlive, foldl_noticeTo h.registered, hear_destroyed, hids]
    rw [Told, hcloses, hdestroys, hsender]
    by_cases hfd : wm = client.fd
    · subst hfd
      simpa [hsame] using agree_unheard_iff h.follows
    · have hne : client.fd ≠ wm := .symm hfd
      simpa [hfd, hne, hsame] using agree_heard_iff h.follows
  | closed client hcloses hdestroys hlive hnew hfocus =>
    rw [Told, hcloses, hdestroys]
    simp only [hnew, hlive, h.follows.freeAll, List.foldl_nil, hsame]
    simpa using agree_closed_iff

end

/-- **The window manager knows the windows of other clients as long as it is told.**  From any state
in which a window manager is registered, and for every run in which it stays registered, the ids it
has been told of and not told away are those of the live surfaces of other clients created since,
after every move, exactly when no client is disconnected while a surface of its is announced, and no
id that is destroyed is that of another announced surface. -/
theorem announced_iff (mode : Mode) {wm : Nat} {st : State} (hwm : st.wmClient = some wm)
    {ms : List Move}
    (hstays : Along (Watch.step mode wm) (Registered mode wm) (Watch.start st) ms) :
    (∀ pre, pre <+: ms →
      let w := run (Watch.step mode wm) (Watch.start st) pre
      w.announced = w.liveSince) ↔
    Along (Watch.step mode wm) (Told mode wm) (Watch.start st) ms := by
  have hstart : (start st).Agree wm := by
    refine ⟨follows_none _, hwm, ?_⟩
    refine (Finset.eq_empty_of_forall_notMem fun k hk => ?_).symm
    obtain ⟨e, he, -⟩ := mem_ids.1 (mem_liveSince.1 hk)
    simp [start] at he
  have hagree : ∀ pre, pre <+: ms → let w := run (.step mode wm) (start st) pre
      (w.Agree wm ↔ w.announced = w.liveSince) := by
    rintro pre ⟨post, rfl⟩
    refine ⟨fun h => h.announced, fun h => ⟨?_, ?_, h⟩⟩
    · exact inv_run_of_forall (I := fun w : Watch => Follows w.st.live w.since)
        (fun _ _ => follows_step) hstart.follows pre
    · exact inv_run (I := fun w : Watch => w.st.wmClient = some wm) (fun _ _ _ h => h) hwm
        (along_append.1 hstays).1
  have hiff := forall_prefix_iff (I := Agree wm) (C := Told mode wm) (fun w m h hregistered => by
    rw [← agree_step_iff h]
    exact ⟨fun h' => h'.announced, fun h' => ⟨follows_step h.follows, hregistered, h'⟩⟩)
    hstart hstays
  rw [← hiff]
  exact forall_congr' fun pre => imp_congr_right fun hpre => (hagree pre hpre).symm

/-- The compositor with a window manager, just registered. -/
def registeredWm : List Move :=
  [.accept 3 0 true, .take 3 ⟨(greeting 128).encode, [], false⟩, .message 3 {}]

def windowOpened : List Move :=
  [.accept 4 1000 true, .take 4 ⟨(greeting 0).encode ++ newWindow.encode, [], false⟩,
    .message 4 {}, .message 4 {}]

/-- The client destroys its window; the window manager is told. -/
def windowDestroyed : List Move :=
  [.take 4 ⟨(Msg.mk MsgType.destroySurface [1, 0, 0, 0]).encode, [], false⟩, .message 4 {}]

theorem announced_iff_sample :
    let mode : Mode := ⟨1920, 1080⟩
    let st := run (move mode) {} registeredWm
    st.wmClient = some 3 ∧
      ∀ pre, pre <+: windowOpened ++ windowDestroyed →
        let w := run (Watch.step mode 3) (Watch.start st) pre
        w.announced = w.liveSince :=
  have h : (run (move ⟨1920, 1080⟩) {} registeredWm).wmClient = some 3 := by decide +kernel
  ⟨h, (announced_iff ⟨1920, 1080⟩ h (by decide +kernel)).2 (by decide +kernel)⟩

/-- The client leaves without destroying its window: the window manager believes in a window that is
gone. -/
theorem announced_left_behind :
    let mode : Mode := ⟨1920, 1080⟩
    let st := run (move mode) {} registeredWm
    let opened := run (Watch.step mode 3) (Watch.start st) windowOpened
    let left := opened.step mode 3 (.close 4)
    st.wmClient = some 3 ∧ left.st.wmClient = some 3 ∧
      opened.announced = {1} ∧ opened.liveSince = {1} ∧
      left.announced = {1} ∧ left.liveSince = ∅ := by
  decide +kernel

end Watch

end Compositor
