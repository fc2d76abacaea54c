import MahinaOS.Lib.Run
import MahinaOS.Lib.Text

/-!
# The lock screen

The shell's lock screen (`luna-shell-rs/src/lockscreen.rs`) collects what is typed and, on Enter,
checks it against the session user's entry in `/etc/shadow`; when that file cannot be used it falls
back to a PIN.  The contents of the two files and the `crypt` of the C library are arguments of the
check (`AuthEnv`).

The screen should unlock exactly when the entry of the user says so (`MayUnlock`).  The code differs
in three places: it takes the first line that *begins* with the user name, it treats the hashes `*`
and `!` like an empty one, and it never asks `crypt` about an empty hash.

* **`unlocks_exactly_iff`**: for which shadow files and users the screen does what it should.
* `unlocks_without_password`: the entry of another user whose name begins with the same letters, and
  who is locked out, opens the screen to everyone.
-/

namespace Shell

open List Option

/-! ## Checking a password -/

/-- What the check reads: the two files, if they can be read, and `crypt(3)`. -/
structure AuthEnv where
  shadow : Option (List Char)
  lockConf : Option (List Char)
  crypt : List Char → List Char → Option (List Char)

/-- Why `verify_shadow_password` fails. -/
inductive ShadowError where
  | unreadable
  | userNotFound
  deriving DecidableEq, Repr

/-- The first two fields of a line, if it has a colon. -/
def shadowFields (line : List Char) : Option (List Char × List Char) :=
  (Text.splitFirst ':' line).2.map fun rest =>
    ((Text.splitFirst ':' line).1, (Text.splitFirst ':' rest).1)

/-- The NUL character, which a C string cannot hold. -/
def nul : Char := Char.ofNat 0

/-- The part of `verify_shadow_password` after the entry is found. -/
def checkHash (crypt : List Char → List Char → Option (List Char)) (hash password : List Char) :
    Bool :=
  if hash = [] ∨ hash = ['*'] ∨ hash = ['!'] then password.isEmpty
  -- `CString::new` fails on a NUL
  else if nul ∈ password then false
  else if nul ∈ hash then false
  else crypt password hash = some hash

/-- The line that `verify_shadow_password` stops at. -/
def firstMatch (username content : List Char) : Option (List Char) :=
  (Text.lines content).find? fun line => username.isPrefixOf line && line.contains ':'

/-- `verify_shadow_password`. -/
def verifyShadowPassword (env : AuthEnv) (username password : List Char) :
    Except ShadowError Bool :=
  match env.shadow with
  | none => .error .unreadable
  | some content =>
    match (firstMatch username content).bind shadowFields with
    | none => .error .userNotFound
    | some (_, hash) => .ok (checkHash env.crypt hash password)

/-- `str::trim_matches` with a character. -/
def trimMatches (c : Char) (cs : List Char) : List Char :=
  (cs.dropWhile (· == c)).rdropWhile (· == c)

/-- The value of a `pin = ` line. -/
def pinOf (line : List Char) : Option (List Char) :=
  if "pin = ".toList.isPrefixOf line then
    some (trimMatches '"' (Text.trim (line.drop "pin = ".length)))
  else none

/-- `fallback_pin_auth`. -/
def fallbackPinAuth (lockConf : Option (List Char)) (password : List Char) : Bool :=
  match lockConf.bind fun config => (Text.lines config).findSome? pinOf with
  | some pin => password = pin
  | none => password = "1234".toList

/-! ## The screen -/

def shakeFrames : Nat := 15

/-- 300 seconds at about 30 frames a second. -/
def idleLockTicks : Nat := 9000

structure LockScreen where
  locked : Bool := true
  input : List Char := []
  shakeTimer : Nat := 0
  failedAttempts : Nat := 0
  idleTicks : Nat := 0
  idleLockEnabled : Bool := true
  username : List Char
  failedMsg : Option String := none
  dotsVisible : Bool := true
  dotBlink : Nat := 0

/-- The characters of the keys without Shift, by evdev code. -/
def plainKeys : List (UInt32 × Char) :=
  [(2, '1'), (3, '2'), (4, '3'), (5, '4'), (6, '5'), (7, '6'), (8, '7'), (9, '8'), (10, '9'),
    (11, '0'), (16, 'q'), (17, 'w'), (18, 'e'), (19, 'r'), (20, 't'), (21, 'y'), (22, 'u'),
    (23, 'i'), (24, 'o'), (25, 'p'), (30, 'a'), (31, 's'), (32, 'd'), (33, 'f'), (34, 'g'),
    (35, 'h'), (36, 'j'), (37, 'k'), (38, 'l'), (44, 'z'), (45, 'x'), (46, 'c'), (47, 'v'),
    (48, 'b'), (49, 'n'), (50, 'm'), (57, ' ')]

/-- The characters of the keys with Shift. -/
def shiftKeys : List (UInt32 × Char) :=
  [(2, '!'), (3, '@'), (4, '#'), (5, '$'), (6, '%'), (7, '^'), (8, '&'), (9, '*'), (10, '('),
    (11, ')'), (16, 'Q'), (17, 'W'), (18, 'E'), (19, 'R'), (20, 'T'), (21, 'Y'), (22, 'U'),
    (23, 'I'), (24, 'O'), (25, 'P'), (30, 'A'), (31, 'S'), (32, 'D'), (33, 'F'), (34, 'G'),
    (35, 'H'), (36, 'J'), (37, 'K'), (38, 'L'), (44, 'Z'), (45, 'X'), (46, 'C'), (47, 'V'),
    (48, 'B'), (49, 'N'), (50, 'M'), (57, ' ')]

/-- `scancode_to_char`. -/
def scancodeToChar (code : UInt32) (shift : Bool) : Option Char :=
  (if shift then shiftKeys else plainKeys).lookup code

/-- `LGP_MOD_SHIFT`. -/
def modShift : UInt32 := 1

/-- The length of a `String` is its number of bytes. -/
def utf8Len (cs : List Char) : Nat := cs.foldl (fun n c => n + c.utf8Size) 0

namespace LockScreen

/-- `LockScreen::new`, with what `/etc/passwd` holds. -/
def new (passwd : Option (List Char)) : LockScreen where
  username :=
    match passwd.bind fun content => (Text.lines content).head? with
    | some line => (Text.splitFirst ':' line).1
    | none => "root".toList

def lock (ls : LockScreen) : LockScreen :=
  { ls with locked := true, input := [], shakeTimer := 0, failedMsg := none }

def resetIdle (ls : LockScreen) : LockScreen := { ls with idleTicks := 0 }

/-- The blinking of the cursor. -/
def blink (ls : LockScreen) : LockScreen :=
  if ls.dotBlink + 1 ≥ 20 then { ls with dotBlink := 0, dotsVisible := !ls.dotsVisible }
  else { ls with dotBlink := ls.dotBlink + 1 }

/-- `LockScreen::tick`. -/
def tick (ls : LockScreen) : LockScreen :=
  let ls := { ls with shakeTimer := ls.shakeTimer - 1 }.blink
  if ls.locked then ls
  else
    let ls := { ls with idleTicks := ls.idleTicks + 1 }
    if ls.idleLockEnabled && ls.idleTicks ≥ idleLockTicks then ls.lock else ls

def unlocked (ls : LockScreen) : LockScreen :=
  { ls with locked := false, input := [], failedAttempts := 0, failedMsg := none, idleTicks := 0 }

def refused (ls : LockScreen) (msg : String) : LockScreen :=
  { ls with
    failedAttempts := ls.failedAttempts + 1
    shakeTimer := shakeFrames
    input := []
    failedMsg := some msg }

/-- The text for a wrong password, with the number of attempts. -/
def incorrectMsg (attempts : Nat) : String :=
  "Incorrect password (" ++ toString attempts ++ " attempt" ++ (if attempts = 1 then "" else "s") ++
    ")"

/-- `LockScreen::try_unlock`. -/
def tryUnlock (env : AuthEnv) (ls : LockScreen) : LockScreen × Bool :=
  match verifyShadowPassword env ls.username ls.input with
  | .ok true => (ls.unlocked, true)
  | .ok false => (ls.refused (incorrectMsg (ls.failedAttempts + 1)), false)
  | .error _ =>
    if fallbackPinAuth env.lockConf ls.input then (ls.unlocked, true)
    else (ls.refused "Shadow read failed — use PIN", false)

/-- `LockScreen::on_key`; the result tells whether the key unlocked the screen. -/
def onKey (env : AuthEnv) (ls : LockScreen) (key : UInt32) (pressed : Bool) (modifiers : UInt32) :
    LockScreen × Bool :=
  if !ls.locked || !pressed then (ls, false)
  else
    let ls := ls.resetIdle
    if key = 14 then ({ ls with input := ls.input.dropLast, failedMsg := none }, false)
    else if key = 28 then ls.tryUnlock env
    else if key = 1 then ({ ls with input := [], failedMsg := none }, false)
    else
      match scancodeToChar key (modifiers &&& modShift ≠ 0) with
      | some ch =>
        if utf8Len ls.input < 64 then
          ({ ls with input := ls.input ++ [ch], failedMsg := none }, false)
        else (ls, false)
      | none => (ls, false)

end LockScreen

/-! ## What can be typed -/

structure KeyEvent where
  key : UInt32
  pressed : Bool
  modifiers : UInt32

def LockScreen.press (env : AuthEnv) (ls : LockScreen) (e : KeyEvent) : LockScreen :=
  (ls.onKey env e.key e.pressed e.modifiers).1

variable {code : UInt32} {env : AuthEnv} {ls : LockScreen}
  {crypt : List Char → List Char → Option (List Char)}

theorem mem_of_lookup {keys : List (UInt32 × Char)} {c : Char} (h : keys.lookup code = some c) :
    (code, c) ∈ keys := by
  obtain ⟨-, -, rfl, -⟩ := lookup_eq_some_iff.1 h
  exact mem_append_right _ mem_cons_self

theorem scancodeToChar_ne_nul {shift : Bool} {c : Char} (h : scancodeToChar code shift = some c) :
    c ≠ nul := by
  have htables : ∀ p ∈ plainKeys ++ shiftKeys, p.2 ≠ nul := by decide
  refine htables (code, c) (mem_append.2 ?_)
  cases shift with
  | true => exact .inr (mem_of_lookup h)
  | false => exact .inl (mem_of_lookup h)

theorem tryUnlock_input : (ls.tryUnlock env).1.input = [] := by
  rw [LockScreen.tryUnlock]
  split
  · rfl
  · rfl
  · split <;> rfl

theorem tryUnlock_username : (ls.tryUnlock env).1.username = ls.username := by
  rw [LockScreen.tryUnlock]
  split
  · rfl
  · rfl
  · split <;> rfl

/-- No key types a NUL, and no key changes the user. -/
structure Typed (username : List Char) (ls : LockScreen) : Prop where
  user : ls.username = username
  input : nul ∉ ls.input

theorem Typed.press {username : List Char} (h : Typed username ls) (env : AuthEnv) (e : KeyEvent) :
    Typed username (ls.press env e) := by
  unfold LockScreen.press LockScreen.onKey
  split
  · exact h
  · dsimp only
    split
    · exact ⟨h.user, fun hmem => h.input (dropLast_subset _ hmem)⟩
    · split
      · refine ⟨tryUnlock_username.trans h.user, ?_⟩
        rw [tryUnlock_input]
        exact not_mem_nil
      · split
        · exact ⟨h.user, not_mem_nil⟩
        · split
          · next ch hch =>
            split
            · refine ⟨h.user, fun hmem => ?_⟩
              rcases mem_append.1 hmem with hmem | hmem
              · exact h.input hmem
              · exact scancodeToChar_ne_nul hch (mem_singleton.1 hmem).symm
            · exact ⟨h.user, h.input⟩
          · exact ⟨h.user, h.input⟩

/-- The lock screen after some keys, from the moment it was locked. -/
def typed (env : AuthEnv) (ls : LockScreen) (events : List KeyEvent) : LockScreen :=
  Run.run (LockScreen.press env) ls.lock events

/-! ## What should unlock the screen -/

/-- A hash that marks a locked or disabled account. -/
def LockedMarker (hash : List Char) : Prop := hash.head? = some '*' ∨ hash.head? = some '!'

instance (hash : List Char) : Decidable (LockedMarker hash) :=
  inferInstanceAs (Decidable (_ ∨ _))

/-- The hash of the user's own entry: the first whose name field is the user name. -/
def entryHash (username content : List Char) : Option (List Char) :=
  (((Text.lines content).filterMap shadowFields).find? (·.1 = username)).map Prod.snd

/-- The hash of the line that the code takes. -/
def matchedHash (username content : List Char) : Option (List Char) :=
  ((firstMatch username content).bind shadowFields).map Prod.snd

/-- What the entry of the user says about the input. -/
def MayUnlock (crypt : List Char → List Char → Option (List Char)) (hash input : List Char) :
    Prop :=
  ¬ LockedMarker hash ∧ (hash = [] ∧ input = [] ∨ crypt input hash = some hash)

/-- After any keys, Enter unlocks the screen exactly if the user's entry allows it. -/
def UnlocksExactly (username content hash : List Char) : Prop :=
  ∀ (crypt : List Char → List Char → Option (List Char)) (lockConf : Option (List Char))
    (ls : LockScreen) (events : List KeyEvent) (modifiers : UInt32), ls.username = username →
    let env : AuthEnv := ⟨some content, lockConf, crypt⟩
    (typed env ls events).locked = true →
      (((typed env ls events).onKey env 28 true modifiers).1.locked = false ↔
        MayUnlock crypt hash (typed env ls events).input)

theorem shadowFields_isSome {line : List Char} : (shadowFields line).isSome ↔ ':' ∈ line := by
  have hdrop : (line.dropWhile (· != ':')).tail?.isSome ↔ ':' ∈ line := by
    induction line with
    | nil => simp
    | cons c line ih =>
      rcases eq_or_ne c ':' with rfl | hc
      · simp
      · have hne : (c != ':') = true := bne_iff_ne.2 hc
        rw [dropWhile_cons, if_pos hne, ih, mem_cons, or_iff_right hc.symm]
  rw [shadowFields, isSome_map]
  exact hdrop

/-- A user with an entry has a line that begins with the user name. -/
theorem matchedHash_isSome {username content hash : List Char}
    (h : entryHash username content = some hash) :
    ∃ hash', matchedHash username content = some hash' := by
  obtain ⟨⟨name, hash⟩, hfind, rfl⟩ := map_eq_some_iff.1 h
  obtain rfl : name = username := by simpa using find?_some hfind
  obtain ⟨line, hline, hfields⟩ := mem_filterMap.1 (mem_of_find?_eq_some hfind)
  have hcolon : ':' ∈ line := shadowFields_isSome.1 (by rw [hfields]; rfl)
  have hname : (Text.splitFirst ':' line).1 = name := by
    obtain ⟨rest, -, heq⟩ := map_eq_some_iff.1 hfields
    exact congrArg Prod.fst heq
  rcases hfirst : firstMatch name content with - | first
  · refine absurd ?_ (find?_eq_none.1 hfirst line hline)
    rw [← hname]
    simp [Text.splitFirst, takeWhile_prefix, hcolon]
  · have hmatch := find?_some hfirst
    simp only [Bool.and_eq_true, contains_iff_mem] at hmatch
    obtain ⟨fields, hfs⟩ := isSome_iff_exists.1 (shadowFields_isSome.2 hmatch.2)
    exact ⟨fields.2, by simp [matchedHash, hfirst, hfs]⟩

theorem onKey_enter (env : AuthEnv) {content hash : List Char}
    (hshadow : env.shadow = some content) (hhash : matchedHash ls.username content = some hash)
    (hlocked : ls.locked = true) (modifiers : UInt32) :
    (ls.onKey env 28 true modifiers).1.locked = false ↔
      checkHash env.crypt hash ls.input = true := by
  obtain ⟨⟨name, hash⟩, hfields, rfl⟩ := map_eq_some_iff.1 hhash
  have hverify : verifyShadowPassword env ls.username ls.input =
      .ok (checkHash env.crypt hash ls.input) := by
    simp only [verifyShadowPassword, hshadow, hfields]
  have henter : ls.onKey env 28 true modifiers = ls.resetIdle.tryUnlock env := by
    simp [LockScreen.onKey, hlocked]
  rw [henter]
  simp only [LockScreen.tryUnlock, LockScreen.resetIdle, hverify]
  cases checkHash env.crypt hash ls.input with
  | true => simp [LockScreen.unlocked]
  | false => simp [LockScreen.refused, hlocked]

/-- What the code checks of an input without NUL. -/
theorem checkHash_iff {hash input : List Char} (hinput : nul ∉ input) :
    checkHash crypt hash input = true ↔
      if hash = [] ∨ hash = ['*'] ∨ hash = ['!'] then input = []
      else nul ∉ hash ∧ crypt input hash = some hash := by
  rw [checkHash]
  split
  · simp
  · split
    · next h => simp [h]
    · next h => simp [h]

/-! ## The exact condition -/

/-- The code and the entry agree about every input and every `crypt`. -/
def Agrees (hash hash' : List Char) : Prop :=
  nul ∈ hash' ∧ LockedMarker hash ∨
    hash' = hash ∧ hash ≠ [] ∧ ¬ LockedMarker hash ∧ nul ∉ hash

/-- A `crypt` that confirms one hash only. -/
def confirms (hash : List Char) : List Char → List Char → Option (List Char) :=
  fun _ salt => if salt = hash then some hash else none

theorem not_agrees_cases {hash hash' : List Char} (h : ¬ Agrees hash hash') :
    ∃ crypt, ¬ (checkHash crypt hash' [] = true ↔ MayUnlock crypt hash []) ∨
      ¬ (checkHash crypt hash' ['a'] = true ↔ MayUnlock crypt hash ['a']) := by
  have hempty : nul ∉ ([] : List Char) := not_mem_nil
  have ha : nul ∉ ['a'] := by decide
  simp only [checkHash_iff hempty, checkHash_iff ha, MayUnlock]
  by_cases hspecial : hash' = [] ∨ hash' = ['*'] ∨ hash' = ['!']
  · -- the code accepts the empty input and nothing else
    simp only [if_pos hspecial]
    by_cases hnil : hash = []
    · subst hnil
      exact ⟨confirms [], .inr (by simp [confirms, LockedMarker])⟩
    · exact ⟨fun _ _ => none, .inl (by simp [hnil])⟩
  · simp only [if_neg hspecial]
    by_cases hlocked : LockedMarker hash
    · -- the entry accepts nothing, so the code must not
      have hnul : nul ∉ hash' := fun hmem => h (.inl ⟨hmem, hlocked⟩)
      exact ⟨confirms hash', .inl (by simp [confirms, hlocked, hnul])⟩
    · by_cases hnil : hash = []
      · subst hnil
        exact ⟨fun _ _ => none, .inl (by simp [hlocked])⟩
      · refine ⟨confirms hash, .inl ?_⟩
        have hneq : ¬ (hash' = hash ∧ nul ∉ hash) := fun hc =>
          h (.inr ⟨hc.1, hnil, hlocked, hc.2⟩)
        simp only [confirms, hlocked, hnil]
        intro hiff
        obtain ⟨hnul, hcrypt⟩ := hiff.2 ⟨not_false, .inr (by simp)⟩
        split at hcrypt
        · next heq => exact hneq ⟨heq, heq ▸ hnul⟩
        · cases hcrypt

theorem Agrees.checkHash_iff_mayUnlock {hash hash' : List Char} (h : Agrees hash hash')
    {input : List Char} (hinput : nul ∉ input) :
    checkHash crypt hash' input = true ↔ MayUnlock crypt hash input := by
  rw [checkHash_iff hinput, MayUnlock]
  rcases h with ⟨hnul, hlocked⟩ | ⟨rfl, hnil, hlocked, hnul⟩
  · have hspecial : ¬ (hash' = [] ∨ hash' = ['*'] ∨ hash' = ['!']) := by
      rintro (rfl | rfl | rfl) <;> revert hnul <;> decide
    rw [if_neg hspecial]
    simp [hnul, hlocked]
  · have hspecial : ¬ (hash' = [] ∨ hash' = ['*'] ∨ hash' = ['!']) := by
      rintro (rfl | rfl | rfl)
      · exact hnil rfl
      · exact hlocked (.inl rfl)
      · exact hlocked (.inr rfl)
    rw [if_neg hspecial]
    simp [hnul, hlocked, hnil]

/-- **When the lock screen does what the shadow file says.**  Given that the user has an entry,
Enter unlocks exactly as the entry says, after any keys and for any `crypt`, if and only if the
first line that begins with the user name has the hash of that entry and this is neither empty nor a
locked marker nor one with a NUL in it, or its hash has a NUL in it and the user is locked out
anyway. -/
theorem unlocks_exactly_iff {username content hash : List Char}
    (hentry : entryHash username content = some hash) :
    UnlocksExactly username content hash ↔
      ∃ hash', matchedHash username content = some hash' ∧ Agrees hash hash' := by
  constructor
  · intro hunlock
    obtain ⟨hash', hmatch⟩ := matchedHash_isSome hentry
    refine ⟨hash', hmatch, ?_⟩
    by_contra hagree
    obtain ⟨crypt, hcase⟩ := not_agrees_cases hagree
    -- nothing typed, and the letter `a` typed
    let ls : LockScreen := { username := username }
    let env : AuthEnv := ⟨some content, none, crypt⟩
    rcases hcase with hcase | hcase
    · refine hcase ?_
      have hiff := hunlock crypt none ls [] 0 rfl rfl
      rwa [onKey_enter env rfl hmatch rfl] at hiff
    · refine hcase ?_
      have hiff := hunlock crypt none ls [⟨30, true, 0⟩] 0 rfl rfl
      rwa [onKey_enter env rfl (by exact hmatch) rfl] at hiff
  · rintro ⟨hash', hmatch, hagree⟩ crypt lockConf ls events modifiers huser env hlocked
    have htyped : Typed ls.username (typed env ls events) :=
      Run.inv_run_of_forall (fun _ e h => h.press env e) ⟨rfl, not_mem_nil⟩ events
    rw [onKey_enter env rfl (htyped.user.trans huser ▸ hmatch) hlocked]
    exact hagree.checkHash_iff_mayUnlock htyped.input

/-- A `root` with a password, and a system account of another name. -/
def plainShadow : List Char :=
  "daemon:*:19000:0:99999:7:::\nroot:$6$salt$hash:19000:0:99999:7:::\n".toList

/-- The same `root`, after a locked account whose name begins with `root`. -/
def overlappingShadow : List Char :=
  "rooty:!:19000:0:99999:7:::\nroot:$6$salt$hash:19000:0:99999:7:::\n".toList

theorem unlocks_exactly_iff_sample :
    entryHash "root".toList plainShadow = some "$6$salt$hash".toList ∧
      UnlocksExactly "root".toList plainShadow "$6$salt$hash".toList :=
  have hentry : entryHash "root".toList plainShadow = some "$6$salt$hash".toList := by
    decide +kernel
  ⟨hentry, (unlocks_exactly_iff hentry).2
    ⟨"$6$salt$hash".toList, by decide +kernel, .inr ⟨rfl, by decide, by decide, by decide⟩⟩⟩

/-- `crypt` refuses the empty password, yet Enter with nothing typed unlocks the screen: the code
stops at the line of `rooty`. -/
theorem unlocks_without_password :
    let env : AuthEnv := ⟨some overlappingShadow, none, fun _ _ => none⟩
    let ls := typed env (LockScreen.new (some "root:x:0:0::/root:/bin/sh\n".toList)) []
    entryHash ls.username overlappingShadow = some "$6$salt$hash".toList ∧ ls.locked = true ∧
      ls.input = [] ∧ (ls.onKey env 28 true 0).1.locked = false ∧
      ¬ MayUnlock env.crypt "$6$salt$hash".toList ls.input := by
  refine ⟨by decide +kernel, rfl, rfl, by decide +kernel, ?_⟩
  simp [MayUnlock]

end Shell
