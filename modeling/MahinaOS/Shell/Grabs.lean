import MahinaOS.Lgp.Codec
import MahinaOS.Shell.Session

/-!
# Grabbed keys

A key goes to the shell if it is in the compositor's table of grabs, with exactly the modifiers that
are down, and to the application with the focus otherwise.  The shell fills the table once, in
`grab_wm_keys`, and decides later with `dispatch` what a key is for.  This file compares the two.

* `serveGrabs` is the compositor at the end of `grab_wm_keys`, and `grabbedKeys_serveGrabs` its
  table: what was there before, and as many of the shell's 140 grabs as there is room for.
* `firstGrabs` are the 128 grabs that fit into an empty table, `IsShortcut` the keys and masks that
  `dispatch` has an action for, and `usefulGrabs` the 30 grabs that are shortcuts.
* **`delivery_iff`**: a key goes to the shell exactly if it is a shortcut, for the useful grabs and
  for what is neither grabbed nor a shortcut.  The other 98 grabs are no shortcuts, and the
  shortcuts with further modifiers are not grabbed (`grabs_differ`).
-/

namespace Shell

open Compositor List Run

/-! ## The table -/

/-- The pairs of `grab_wm_keys`. -/
def shellGrabs : List (UInt32 × UInt32) :=
  [Key.key1, Key.key2, Key.key3, Key.key4, Key.key5, Key.key6, Key.q, Key.w, Key.e, Key.t, Key.f,
    Key.j, Key.k, Key.l, Key.v, Key.up, Key.down, Key.left, Key.right, Key.tab, Key.enter,
    Key.space, Key.esc, Key.backspace, Key.key0, Key.key9, Key.key8, Key.key7].flatMap fun key =>
    [0, modSuper, modSuper ||| modShift, modSuper ||| modCtrl, modAlt].map fun modifiers =>
      (key, modifiers)

theorem grabWmKeys_eq : grabWmKeys = shellGrabs.map fun grab => grabKey grab.1 grab.2 := by
  rw [grabWmKeys, shellGrabs, map_flatMap]
  simp

/-- The compositor handles grabs of a client. -/
def serveAll (mode : Mode) (env : MsgEnv) (client : Client) (st : State) (requests : List Request) :
    State :=
  requests.foldl (fun st r => (handleClientMessage mode env st client r.msg).1) st

/-- The compositor at the end of `grab_wm_keys`. -/
def serveGrabs (mode : Mode) (env : MsgEnv) (client : Client) (st : State) : State :=
  serveAll mode env client st grabWmKeys

/-- A client that may grab keys. -/
def MayGrab (client : Client) : Prop :=
  client.helloDone = true ∧ client.hasCap Cap.windowManager = true

theorem decodeGrabKey_grabKey (key modifiers : UInt32) :
    decodeGrabKey (grabKey key modifiers).msg = some (key, modifiers) :=
  (Lgp.decoded_new decodeGrabKey .wmGrabKey (by simp : [key, modifiers].length ≤ 6)).symm.trans
    (Lgp.decoded_grabKey key modifiers)

variable {client : Client}

variable (mode : Mode) (env : MsgEnv) (st : State)

theorem handleClientMessage_grabKey (h : MayGrab client) (key modifiers : UInt32) :
    (handleClientMessage mode env st client (grabKey key modifiers).msg).1 =
      if st.grabbedKeys.length < grabbedKeysMax then
        { st with grabbedKeys := st.grabbedKeys ++ [(key, modifiers)] }
      else st := by
  have hhandle : handleClientMessage mode env st client (grabKey key modifiers).msg =
      handleWmGrabKey st client (grabKey key modifiers).msg := by
    rw [handleClientMessage, h.1]
    rfl
  rw [hhandle, handleWmGrabKey, if_neg (by rw [h.2]; decide), decodeGrabKey_grabKey]
  dsimp only
  split <;> rfl

/-- The table takes as many grabs as it has room for. -/
theorem grabbedKeys_serveAll (h : MayGrab client) (grabs : List (UInt32 × UInt32)) :
    (serveAll mode env client st (grabs.map fun grab => grabKey grab.1 grab.2)).grabbedKeys =
      st.grabbedKeys ++ grabs.take (grabbedKeysMax - st.grabbedKeys.length) := by
  induction grabs generalizing st with
  | nil => simp [serveAll]
  | cons grab grabs ih =>
    have hcons :
        serveAll mode env client st ((grab :: grabs).map fun grab => grabKey grab.1 grab.2) =
        serveAll mode env client
          (handleClientMessage mode env st client (grabKey grab.1 grab.2).msg).1
          (grabs.map fun grab => grabKey grab.1 grab.2) := rfl
    rw [hcons, ih, handleClientMessage_grabKey mode env st h]
    split
    · next hroom =>
      obtain ⟨n, hn⟩ := Nat.exists_eq_add_of_lt hroom
      have hleft : grabbedKeysMax - st.grabbedKeys.length = n + 1 := by omega
      have hleft' : grabbedKeysMax - (st.grabbedKeys ++ [grab]).length = n := by
        rw [length_append, length_singleton]
        omega
      rw [hleft]
      rw [hleft', append_assoc]
      rfl
    · next hfull =>
      have hleft : grabbedKeysMax - st.grabbedKeys.length = 0 := by omega
      rw [hleft, take_zero, take_zero]

theorem grabbedKeys_serveGrabs (h : MayGrab client) :
    (serveGrabs mode env client st).grabbedKeys =
      st.grabbedKeys ++ shellGrabs.take (grabbedKeysMax - st.grabbedKeys.length) := by
  rw [serveGrabs, grabWmKeys_eq, grabbedKeys_serveAll mode env st h]

/-! ## Where a key goes -/

/-- The compositor with the shell as its window manager, and an application with the focus. -/
structure Serves (shell app : Client) (st : State) : Prop where
  sound : Sound st
  registered : st.wmClient = some shell.fd
  shellMem : shell ∈ st.clients.list
  appMem : app ∈ st.clients.list
  focus : st.keyboardFocusSessionId = app.sessionId
  other : app.fd ≠ shell.fd

/-- A key goes to one of the two. -/
theorem sent_key {shell app : Client} {st : State} (h : Serves shell app st) (mode : Mode)
    (key keyState modifiers : UInt32) :
    (Compositor.step mode st (.key key keyState modifiers)).sent =
      [⟨if (key, modifiers) ∈ st.grabbedKeys then shell.fd else app.fd,
        encodeKeyboardKey key keyState modifiers⟩] := by
  have hsound : Sound { st with sent := [] } := { h.sound with }
  change (dispatchKeyboardKey { st with sent := [] } key keyState modifiers).sent = _
  rw [dispatchKeyboardKey]
  split
  · next hgrabbed =>
    have hsession : ({ st with sent := [] } : State).wmSessionId = some shell.sessionId :=
      wmSessionId_eq_some.2 ⟨shell, h.shellMem, h.registered, rfl⟩
    have hclient : ({ st with sent := [] } : State).clientOfSession shell.sessionId = some shell :=
      (clientOfSession_eq_some hsound).2 ⟨h.shellMem, rfl⟩
    rw [State.sendToWm, hsession]
    dsimp only
    rw [State.sendToSession, hclient, if_pos hgrabbed.2]
    rfl
  · next hfree =>
    have hmem : (key, modifiers) ∉ st.grabbedKeys := fun hmem =>
      hfree ⟨by rw [h.registered]; rfl, hmem⟩
    have hclient : ({ st with sent := [] } : State).clientOfSession st.keyboardFocusSessionId =
        some app := (clientOfSession_eq_some hsound).2 ⟨h.appMem, h.focus.symm⟩
    rw [State.sendToSession, hclient, if_neg hmem]
    rfl

/-- The key goes to the shell and not to the application. -/
def Delivered (shell : Client) (mode : Mode) (st : State) (key keyState modifiers : UInt32) :
    Prop :=
  (Compositor.step mode st (.key key keyState modifiers)).sent =
    [⟨shell.fd, encodeKeyboardKey key keyState modifiers⟩]

theorem delivered_iff {shell app : Client} {st : State} (h : Serves shell app st) (mode : Mode)
    (key keyState modifiers : UInt32) :
    Delivered shell mode st key keyState modifiers ↔ (key, modifiers) ∈ st.grabbedKeys := by
  rw [Delivered, sent_key h]
  split
  · next hmem => exact iff_of_true rfl hmem
  · next hmem =>
    refine iff_of_false (fun heq => h.other ?_) hmem
    injection heq with heq
    injection heq

/-! ## Grabs and shortcuts -/

/-- A list of keys, with each mask of another. -/
def withMasks (keys masks : List UInt32) : List (UInt32 × UInt32) :=
  keys.flatMap fun key => masks.map fun modifiers => (key, modifiers)

def digitKeys : List UInt32 := [Key.key1, Key.key2, Key.key3, Key.key4, Key.key5, Key.key6]

def arrowKeys : List UInt32 := [Key.left, Key.right, Key.up, Key.down]

/-- The grabs of the shell that an empty table has room for. -/
def firstGrabs : List (UInt32 × UInt32) :=
  withMasks (digitKeys ++ [Key.q, Key.w, Key.e, Key.t, Key.f, Key.j, Key.k, Key.l, Key.v, Key.up,
      Key.down, Key.left, Key.right, Key.tab, Key.enter, Key.space, Key.esc, Key.backspace,
      Key.key0]) [0, modSuper, modSuper ||| modShift, modSuper ||| modCtrl, modAlt] ++
    withMasks [Key.key9] [0, modSuper, modSuper ||| modShift]

/-- The grabs that are shortcuts. -/
def usefulGrabs : List (UInt32 × UInt32) :=
  withMasks (Key.q :: digitKeys) [modSuper, modSuper ||| modShift] ++
    withMasks [Key.enter, Key.space, Key.v, Key.f, Key.j, Key.k, Key.l] [modSuper] ++
    withMasks arrowKeys [modSuper, modSuper ||| modCtrl] ++ [(Key.tab, modAlt)]

/-- The keys and masks that the shell has an action for: Super with a digit, also with Shift or Alt;
Super+Shift+Q, also with Alt; Super alone with a key of another list; Super+Ctrl with an arrow, also
with Alt; and Alt+Tab with whatever else. -/
def IsShortcut (key modifiers : UInt32) : Prop :=
  (modifiers &&& modSuper ≠ 0 ∧ modifiers &&& modCtrl = 0 ∧ key ∈ digitKeys) ∨
  (modifiers &&& modSuper ≠ 0 ∧ modifiers &&& modCtrl = 0 ∧ modifiers &&& modShift ≠ 0 ∧
    key = Key.q) ∨
  (modifiers &&& modSuper ≠ 0 ∧ modifiers &&& modCtrl = 0 ∧ modifiers &&& modShift = 0 ∧
    modifiers &&& modAlt = 0 ∧
      key ∈ [Key.enter, Key.space, Key.q, Key.v, Key.f, Key.j, Key.k, Key.l] ++ arrowKeys) ∨
  (modifiers &&& modSuper ≠ 0 ∧ modifiers &&& modCtrl ≠ 0 ∧ modifiers &&& modShift = 0 ∧
    key ∈ arrowKeys) ∨
  (modifiers &&& modAlt ≠ 0 ∧ key = Key.tab)

instance (key modifiers : UInt32) : Decidable (IsShortcut key modifiers) :=
  inferInstanceAs (Decidable (_ ∨ _))

variable {key modifiers : UInt32}

/-- One of the tables that apply has the key. -/
theorem tables_ne_none_iff {tables : List (Bool × List (UInt32 × ShellAction))}
    (h : ∀ t ∈ tables, ∀ p ∈ t.2, p.2 ≠ .none) :
    (tables.findSome? fun (applies, table) =>
        if applies then table.lookup key else Option.none).getD .none ≠ .none ↔
      ∃ t ∈ tables, t.1 = true ∧ key ∈ t.2.map Prod.fst := by
  cases hfind : tables.findSome? fun (applies, table) =>
      if applies then table.lookup key else Option.none with
  | none =>
    refine iff_of_false (fun hne => hne rfl) ?_
    rintro ⟨t, ht, happlies, hkey⟩
    have hnone := findSome?_eq_none_iff.1 hfind t ht
    obtain ⟨p, hp, rfl⟩ := mem_map.1 hkey
    dsimp only at hnone
    rw [if_pos happlies, lookup_eq_none_iff] at hnone
    simpa using hnone p hp
  | some action =>
    obtain ⟨t, ht, hsome⟩ := exists_of_findSome?_eq_some hfind
    dsimp only at hsome
    split at hsome
    · next happlies =>
      obtain ⟨l₁, l₂, hsplit, -⟩ := lookup_eq_some_iff.1 hsome
      have hmem : (key, action) ∈ t.2 := by simp [hsplit]
      exact iff_of_true (h t ht _ hmem) ⟨t, ht, happlies, mem_map_of_mem hmem⟩
    · cases hsome

/-- The shortcuts. -/
theorem dispatch_ne_none_iff : dispatch key modifiers ≠ .none ↔ IsShortcut key modifiers := by
  have hswitch : switchKeys.map Prod.fst = digitKeys := rfl
  have hsuper : superKeys.map Prod.fst =
      [Key.enter, Key.space, Key.q, Key.v, Key.f, Key.j, Key.k, Key.l] ++ arrowKeys := rfl
  have hmove : key ∈ moveKeys.map Prod.fst ↔ key ∈ digitKeys ∨ key = Key.q := by
    have hkeys : moveKeys.map Prod.fst = digitKeys ++ [Key.q] := rfl
    rw [hkeys, mem_append, mem_singleton]
  have hresize : key ∈ resizeKeys.map Prod.fst ↔ key ∈ arrowKeys := by
    simp only [resizeKeys, arrowKeys, map_cons, map_nil, mem_cons, not_mem_nil,
      or_false]
    tauto
  rw [dispatch, tables_ne_none_iff (by
    simp only [forall_mem_cons]
    exact ⟨(by decide : ∀ p ∈ switchKeys, p.2 ≠ .none), (by decide : ∀ p ∈ moveKeys, p.2 ≠ .none),
      (by decide : ∀ p ∈ superKeys, p.2 ≠ .none), (by decide : ∀ p ∈ resizeKeys, p.2 ≠ .none),
      by decide, by simp⟩)]
  have htab : key ∈ [(Key.tab, ShellAction.focusNext)].map Prod.fst ↔ key = Key.tab :=
    mem_singleton
  simp only [exists_mem_cons_iff, not_mem_nil, false_and, exists_false, or_false, hswitch,
    hsuper, hmove, hresize, htab, IsShortcut, Bool.and_eq_true, Bool.not_eq_true', bne_iff_ne,
    bne_eq_false_iff_eq, ne_eq]
  by_cases hnoSuper : modifiers &&& modSuper = 0
  · simp only [hnoSuper, not_true_eq_false, false_and, false_or]
  · by_cases hnoCtrl : modifiers &&& modCtrl = 0 <;>
      by_cases hnoShift : modifiers &&& modShift = 0 <;>
      simp only [hnoSuper, hnoCtrl, hnoShift, not_true_eq_false, not_false_eq_true, true_and,
        false_and, and_false, false_or, or_assoc]

theorem shellGrabs_take : shellGrabs.take grabbedKeysMax = firstGrabs := by decide +kernel

/-- The useful grabs are those that are shortcuts. -/
theorem mem_usefulGrabs_iff {grab : UInt32 × UInt32} :
    grab ∈ usefulGrabs ↔ grab ∈ firstGrabs ∧ IsShortcut grab.1 grab.2 := by
  have hsub : ∀ grab ∈ usefulGrabs, grab ∈ firstGrabs := by decide +kernel
  have huseful : ∀ grab ∈ firstGrabs, grab ∈ usefulGrabs ↔ IsShortcut grab.1 grab.2 := by
    decide +kernel
  constructor
  · exact fun h => ⟨hsub grab h, (huseful grab (hsub grab h)).1 h⟩
  · exact fun h => (huseful grab h.1).2 h.2

/-- **Grabs and shortcuts.**  The shell has registered and sent its grabs, to a compositor whose
table was empty, or full with those of an earlier shell.  From then on, with an application in the
focus, a key with some modifiers goes to the shell if and only if it is a shortcut, exactly if it is
one of the 30 useful grabs, or neither one of the 128 grabs nor a shortcut. -/
theorem delivery_iff (mode : Mode) (env : MsgEnv) {before st : State} {shell shell' app : Client}
    (hmay : MayGrab shell) (hbefore : before.grabbedKeys = [] ∨ before.grabbedKeys = firstGrabs)
    (htable : st.grabbedKeys = (serveGrabs mode env shell before).grabbedKeys)
    (h : Serves shell' app st) (key keyState modifiers : UInt32) :
    (Delivered shell' mode st key keyState modifiers ↔ dispatch key modifiers ≠ .none) ↔
      (key, modifiers) ∈ usefulGrabs ∨
        (key, modifiers) ∉ firstGrabs ∧ ¬ IsShortcut key modifiers := by
  have hfirst : st.grabbedKeys = firstGrabs := by
    rw [htable, grabbedKeys_serveGrabs mode env before hmay]
    rcases hbefore with hempty | hfull
    · rw [hempty]
      exact shellGrabs_take
    · have hroom : grabbedKeysMax - firstGrabs.length = 0 := by decide +kernel
      rw [hfull, hroom, take_zero, append_nil]
  rw [delivered_iff h, hfirst, dispatch_ne_none_iff, mem_usefulGrabs_iff]
  exact iff_iff_and_or_not_and_not

/-! ## Where they differ -/

open Shell.System (bareDesktop smallMode startup shellClient openWindow)

/-- Keys of the PIN 1234, and Enter. -/
def unlock : List SystemEvent :=
  [2, 3, 4, 5, 28].flatMap fun key => [.compositor (.key key 1 0), System.receive]

/-- The shell has started and is unlocked, and an application has opened a window. -/
def desk : System Unit :=
  run (System.step bareDesktop smallMode) {} (startup ++ unlock ++ openWindow)

def appClient : Client := { fd := 8, uid := 1000, sessionId := 2, helloDone := true }

def keyGoes (key modifiers : UInt32) : List Nat :=
  (Compositor.step smallMode desk.comp (.key key 1 modifiers)).sent.map Sent.fd

/-- The run that leads to `desk` is long, so all that is used of it is evaluated at once. -/
theorem desk_facts :
    (Along (System.step bareDesktop smallMode) System.NoWrap {}
      (startup ++ unlock ++ openWindow) ∧
      desk.comp.wmClient = some shellClient.fd ∧ shellClient ∈ desk.comp.clients.list ∧
      appClient ∈ desk.comp.clients.list ∧
      desk.comp.keyboardFocusSessionId = appClient.sessionId) ∧
    desk.comp.grabbedKeys = firstGrabs ∧
    desk.locked = false ∧ keyGoes Key.q 0 = [7] ∧ keyGoes Key.key1 (modSuper ||| modAlt) = [8] := by
  decide +kernel

theorem serves_desk : Serves shellClient appClient desk.comp := by
  obtain ⟨⟨hwrap, hregistered, hshell, happ, hfocus⟩, -⟩ := desk_facts
  have hsound : Sound desk.comp :=
    inv_run (I := fun sys => Sound sys.comp) (fun _ _ h hwrap => System.sound_step h hwrap)
      sound_init hwrap
  exact ⟨hsound, hregistered, hshell, happ, hfocus, by decide⟩

/-- Super+1 goes to the shell, and Super+A, which is not a shortcut, to the application. -/
theorem delivery_iff_super :
    (Delivered shellClient smallMode desk.comp Key.key1 1 modSuper ↔
      dispatch Key.key1 modSuper ≠ .none) ∧
    (Delivered shellClient smallMode desk.comp 30 1 modSuper ↔ dispatch 30 modSuper ≠ .none) := by
  have hmay : MayGrab shellClient := ⟨rfl, by decide⟩
  have htable : desk.comp.grabbedKeys = (serveGrabs smallMode {} shellClient {}).grabbedKeys := by
    rw [grabbedKeys_serveGrabs _ _ _ hmay]
    exact desk_facts.2.1.trans shellGrabs_take.symm
  have hdelivery := delivery_iff smallMode {} hmay (.inl rfl) htable serves_desk
  exact ⟨(hdelivery Key.key1 1 modSuper).2 (.inl (by decide +kernel)),
    (hdelivery 30 1 modSuper).2 (.inr (by decide +kernel))⟩

/-- **Grabs that are no shortcuts, and shortcuts that are not grabbed.**  The shell is unlocked and
has connection 7, and the application with the focus has 8.  The letter q goes to the shell, which
has no use for it, and Super+Alt+1, which would switch to the first workspace, to the
application. -/
theorem grabs_differ :
    desk.locked = false ∧ desk.comp.wmClient = some 7 ∧
      keyGoes Key.q 0 = [7] ∧ dispatch Key.q 0 = .none ∧
      keyGoes Key.key1 (modSuper ||| modAlt) = [8] ∧
      dispatch Key.key1 (modSuper ||| modAlt) = .switchWorkspace 0 := by
  obtain ⟨⟨-, hregistered, -⟩, -, hunlocked, hq, hsuper⟩ := desk_facts
  exact ⟨hunlocked, hregistered, hq, by decide, hsuper, by decide⟩

end Shell
