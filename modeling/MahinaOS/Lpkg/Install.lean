import MahinaOS.Lpkg.Files

/-!
# lpkg: what an installation rests on

The checks and the steps of `install_local_lpkg`, and what they are good for.

* **`verifySignature_iff`** (`lpkg/verify.c`): the key and the signature are passed on as they are
  stored, except raw ones that end in a line ending, which are refused.
* **`installLocal_undone_iff`**: when a failed installation leaves nothing behind.
* **`installed_iff`**: when a package from the repository is found under its name, and stays.
-/

namespace Lpkg

open CText JsonText Run List

/-! ## Keys and signatures -/

def hex2val (c : UInt8) : Option UInt8 :=
  if 48 ≤ c ∧ c ≤ 57 then some (c - 48)
  else if 97 ≤ c ∧ c ≤ 102 then some (c - 97 + 10)
  else if 65 ≤ c ∧ c ≤ 70 then some (c - 65 + 10)
  else none

/-- The loop of `hex2bin`. -/
def hexPairs : Bytes → Option Bytes
  | high :: low :: hex =>
    match hex2val high, hex2val low with
    | some high, some low => (hexPairs hex).map ((high <<< 4 ||| low) :: ·)
    | _, _ => none
  | _ => some []

/-- `hex2bin`, into an array of `n` bytes that holds `junk`. -/
def hex2bin (n : Nat) (junk hex : Bytes) : Option Bytes :=
  if n < (cut hex).length / 2 then none
  else (hexPairs (cut hex)).map fun bin => (bin ++ junk.drop bin.length).take n

def isLineEnd (b : UInt8) : Bool := b = 10 || b = 13

/-- What `verify_signature` makes of a file with `n` bytes, read into a buffer of a size. -/
def readBytes (n size : Nat) (junk file : Bytes) : Option Bytes :=
  let text := (file.take (size - 1)).rdropWhile isLineEnd
  if text.length = n then some text
  else if text.length = n * 2 then hex2bin n junk text
  else none

/-- What `verify_signature` passes to `crypto_sign_verify_detached`: the signature, the package and
the key. -/
def verifySignature (keyJunk sigJunk : Bytes) (key sig package : Option Bytes) :
    Option (Bytes × Bytes × Bytes) := do
  let pubkey ← readBytes 32 128 keyJunk (← key)
  let sig ← readBytes 64 256 sigJunk (← sig)
  let data ← package
  if data = [] then none else return (sig, data, pubkey)

def digit (upper : Bool) (v : UInt8) : UInt8 :=
  if v < 10 then 48 + v else (if upper then 55 else 87) + v

/-- The second text has the bytes of the first one in hexadecimal digits. -/
inductive Hex : Bytes → Bytes → Prop
  | nil : Hex [] []
  | cons {bytes text : Bytes} (b : UInt8) (u v : Bool) (h : Hex bytes text) :
    Hex (b :: bytes) (digit u (b / 16) :: digit v (b % 16) :: text)

/-- The bytes are stored as the text and line endings. -/
structure Stored (n size : Nat) (bytes text ending : Bytes) : Prop where
  length_eq : bytes.length = n
  stored : text = bytes ∨ Hex bytes text
  lineEnds : ∀ b ∈ ending, isLineEnd b = true
  fits : (text ++ ending).length < size

variable {n size : Nat} {bytes text ending : Bytes}

theorem digit_spec (b : UInt8) : ∀ u, b = (b / 16) <<< 4 ||| b % 16 ∧
    ∀ v ∈ [b / 16, b % 16], hex2val (digit u v) = some v ∧ digit u v ≠ 0 ∧
      isLineEnd (digit u v) = false := by
  have hspec : ∀ n < 256, ∀ u, let b := UInt8.ofNat n
      b = (b / 16) <<< 4 ||| b % 16 ∧ (hex2val (digit u (b / 16)) = some (b / 16) ∧
        digit u (b / 16) ≠ 0 ∧ isLineEnd (digit u (b / 16)) = false) ∧
        hex2val (digit u (b % 16)) = some (b % 16) ∧ digit u (b % 16) ≠ 0 ∧
          isLineEnd (digit u (b % 16)) = false := by
    decide +kernel
  simpa using hspec b.toNat b.toNat_lt

theorem Hex.read (h : Hex bytes text) : hexPairs text = some bytes ∧
    text.length = bytes.length * 2 ∧ ∀ c ∈ text, c ≠ 0 ∧ isLineEnd c = false := by
  induction h with
  | nil => simp [hexPairs]
  | @cons bytes text b u v _ ih =>
    obtain ⟨hpairs, hlen, htext⟩ := ih
    obtain ⟨hb, hu⟩ := digit_spec b u
    have hv := (digit_spec b v).2
    refine ⟨?_, by simp [hlen]; omega, ?_⟩
    · rw [hexPairs, (hu _ (by simp)).1, (hv _ (by simp)).1, hpairs]
      exact congrArg (fun b => some (b :: bytes)) hb.symm
    · simp only [forall_mem_cons]
      exact ⟨(hu _ (by simp)).2, (hv _ (by simp)).2, htext⟩

theorem readBytes_iff (h : Stored n size bytes text ending) (hn : 0 < n) (junk : Bytes) :
    readBytes n size junk (text ++ ending) = some bytes ↔
      (text = bytes → ∀ b ∈ bytes.getLast?, isLineEnd b = false) := by
  have htake : (text ++ ending).take (size - 1) = text ++ ending :=
    take_of_length_le (Nat.le_sub_one_of_lt h.fits)
  have hstrip : (text ++ ending).rdropWhile isLineEnd = text.rdropWhile isLineEnd := by
    rw [rdropWhile, reverse_append, dropWhile_append_of_pos (by simpa using h.lineEnds), rdropWhile]
  have hself (l : Bytes) : l.rdropWhile isLineEnd = l ↔ ∀ b ∈ l.getLast?, isLineEnd b = false := by
    rw [rdropWhile_eq_self_iff]
    rcases eq_or_ne l [] with rfl | hne
    · simp
    · simp [hne, getLast?_eq_some_getLast hne]
  simp only [readBytes, htake, hstrip]
  rcases h.stored with rfl | hhex
  · rw [← hself]
    by_cases hlast : text.rdropWhile isLineEnd = text
    · simp [hlast, h.length_eq]
    · have hpre : text.rdropWhile isLineEnd <+: text := rdropWhile_prefix ..
      have hlt : (text.rdropWhile isLineEnd).length < n := by
        refine h.length_eq ▸ lt_of_le_of_ne hpre.length_le fun heq => hlast ?_
        exact hpre.eq_of_length heq
      rw [if_neg hlt.ne, if_neg (by omega)]
      simp [hlast]
  · obtain ⟨hpairs, hlen, htext⟩ := hhex.read
    have hkept : text.rdropWhile isLineEnd = text :=
      (hself text).2 fun b hb => (htext b (mem_of_getLast? hb)).2
    have hcut : cut text = text := cut_eq_self fun h0 => (htext 0 h0).1 rfl
    rw [h.length_eq] at hlen
    rw [hkept, if_neg (by omega), if_pos hlen, hex2bin, hcut, if_neg (by omega), hpairs]
    refine iff_of_true (by simp [← h.length_eq]) fun heq => ?_
    have hlen' := h.length_eq
    rw [← heq] at hlen'
    omega

/-- **Keys and signatures pass as they are stored**, unless a raw one ends in a line ending. -/
theorem verifySignature_iff {key keyText keyEnd sig sigText sigEnd : Bytes}
    (hkey : Stored 32 128 key keyText keyEnd) (hsig : Stored 64 256 sig sigText sigEnd)
    (keyJunk sigJunk package : Bytes) :
    verifySignature keyJunk sigJunk (some (keyText ++ keyEnd)) (some (sigText ++ sigEnd))
        (some package) = some (sig, package, key) ↔
      package ≠ [] ∧ (keyText = key → ∀ b ∈ key.getLast?, isLineEnd b = false) ∧
        (sigText = sig → ∀ b ∈ sig.getLast?, isLineEnd b = false) := by
  rw [← readBytes_iff hkey (by decide) keyJunk, ← readBytes_iff hsig (by decide) sigJunk]
  simp only [verifySignature, Option.bind_eq_bind, Option.bind_some]
  rcases readBytes 32 128 keyJunk (keyText ++ keyEnd) with - | k
  · simp
  rcases readBytes 64 256 sigJunk (sigText ++ sigEnd) with - | s
  · simp
  · by_cases hpackage : package = [] <;> simp [hpackage, and_comm]

theorem verifySignature_iff_ones :
    verifySignature [] [] (some (replicate 32 1 ++ [10])) (some (replicate 64 1 ++ [])) (some [7]) =
      some (replicate 64 1, [7], replicate 32 1) := by
  refine (verifySignature_iff ⟨by decide, .inl rfl, by simp [isLineEnd], by decide⟩
    ⟨by decide, .inl rfl, by simp, by decide⟩ [] [] [7]).2 ?_
  simp [isLineEnd]

/-- A raw key that ends in a newline. -/
theorem key_refused : verifySignature [] [] (some (replicate 31 1 ++ [10]))
    (some (replicate 64 1)) (some [7]) = none := by
  decide

/-! ## The steps of an installation -/

/-- The system while `lpkg` runs, with the database in memory. -/
structure Machine (α : Type) extends System α where
  db : List Package
  deriving DecidableEq

/-- How the steps of an installation go: what `tar` writes, and what it lists. -/
structure Steps (α : Type) where
  sigFile : Bool
  verified : Bool
  extracted : List α
  extracts : Bool
  listing : Bytes
  saves : Bool

variable {α : Type} {path : Bytes} {e : Steps α} {m : Machine α}

/-- `install_local_lpkg`.  That `tar` cannot list the files is not noticed. -/
def installLocal (path : Bytes) (e : Steps α) (m : Machine α) : Int × Machine α :=
  if !e.sigFile then (-1, m)
  else if !e.verified then (-1, m)
  else
    let m := { m with files := m.files ++ e.extracted }
    if !e.extracts then (-1, m)
    else
      match enterPackage m.db (newPackage path e.listing) with
      | none => (-1, m)
      | some db =>
        if !e.saves then (-1, { m with db := db })
        else (0, { m with db := db, dbFile := saveInstalled db })

/-- **A failed installation leaves nothing behind** iff it fails at the signature, or it has written
no file and the database does not change in memory. -/
theorem installLocal_undone_iff :
    ((installLocal path e m).1 = -1 → (installLocal path e m).2 = m) ↔
      e.sigFile = false ∨ e.verified = false ∨
        e.extracts = true ∧ e.saves = true ∧
          (enterPackage m.db (newPackage path e.listing)).isSome = true ∨
        e.extracted = [] ∧ (e.extracts = true → e.saves = false →
          ∀ db ∈ enterPackage m.db (newPackage path e.listing), db = m.db) := by
  obtain ⟨⟨file, files⟩, db⟩ := m
  rcases hsig : e.sigFile <;> rcases hver : e.verified <;> rcases hext : e.extracts <;>
    rcases hsave : e.saves <;> rcases henter : enterPackage db (newPackage path e.listing) <;>
    simp [installLocal, hsig, hver, hext, hsave, henter]

/-- The database cannot be saved when the files are there. -/
theorem files_left_behind :
    installLocal (utf8 "a.lpkg") ⟨true, true, [1], true, [], false⟩ ⟨.empty, []⟩ =
      (-1, ⟨⟨[], [1]⟩, [newPackage (utf8 "a.lpkg") []]⟩) := by
  decide

/-! ## Names -/

variable {T U listing : Bytes} {db db₁ : List Package}

/-- The name of the file is the name of the package if it has no dash and is short. -/
theorem packageName_destLpkg_iff (hnul : 0 ∉ T) (hslash : 47 ∉ T) :
    (packageName (destLpkg T)).bytes = T ↔ 45 ∉ T ∧ T.length ≤ 63 := by
  constructor
  · intro h
    refine ⟨fun hdash => ?_, Nat.le_of_lt_succ (h ▸ (packageName (destLpkg T)).length_lt)⟩
    rw [← h] at hdash
    simpa using mem_takeWhile_imp (CStr.mem_of_mem_print hdash)
  · rintro ⟨hdash, hlen⟩
    have hext : utf8 ".lpkg" = [46, 108, 112, 107, 103] := by decide
    have hdest : destLpkg T = [47, 116, 109, 112] ++ 47 :: (T ++ utf8 ".lpkg") := by
      have htmp : utf8 "/tmp/" = [47, 116, 109, 112, 47] := by decide
      rw [destLpkg, htmp, hext]
      exact CStr.bytes_print (by simp; omega) (by simp [hnul])
    have hbase : (destLpkg T).rtakeWhile (fun b => b ≠ 47) = T ++ utf8 ".lpkg" := by
      rw [hdest, rtakeWhile, reverse_append, reverse_cons, append_assoc,
        takeWhile_append_of_pos (by simpa [hext] using fun b hb => ne_of_mem_of_not_mem hb hslash)]
      simp
    have hbuf : nameBuf (destLpkg T) = T := by
      rw [nameBuf, hbase, hext, CStr.bytes_print (by simp; omega) (by simp [hnul])]
      simp [rdropWhile]
    rw [packageName, hbuf, takeWhile_eq_self_iff.2 fun b hb => ?_,
      CStr.bytes_print (Nat.lt_succ_of_le hlen) hnul]
    exact decide_eq_true (ne_of_mem_of_not_mem hb hdash)

theorem getElem?_enterPackage {p pkg : Package} {i : Nat}
    (henter : enterPackage db pkg = some db₁) (hp : db[i]? = some p) (hne : p.name ≠ pkg.name) :
    db₁[i]? = some p := by
  rw [enterPackage] at henter
  split at henter
  · next j hj =>
    cases henter
    obtain ⟨hj', hjname, -⟩ := findIdx?_eq_some_iff_getElem.1 hj
    have hij : j ≠ i := by
      rintro rfl
      rw [getElem?_eq_getElem hj', Option.some.injEq] at hp
      exact hne (hp ▸ of_decide_eq_true hjname)
    rw [getElem?_set_ne hij, hp]
  · split_ifs at henter
    cases henter
    rw [getElem?_append_left (List.getElem?_eq_some_iff.1 hp).1, hp]

/-- **A package of the repository is found under its name, and stays** when another one is
installed, iff the name has no dash and is short, and the other name is not read as this one. -/
theorem installed_iff (hnul : 0 ∉ T) (hslash : 47 ∉ T)
    (henter : enterPackage db (newPackage (destLpkg T) listing) = some db₁) :
    ((∃ p ∈ db₁, p.name.bytes = T) ∧
        ∀ listing₂ db₂, enterPackage db₁ (newPackage (destLpkg U) listing₂) = some db₂ →
          ∀ (i : Nat) (p : Package), db₁[i]? = some p → p.name.bytes = T → db₂[i]? = some p) ↔
      (45 ∉ T ∧ T.length ≤ 63 ∨ ∃ p ∈ db, p.name.bytes = T) ∧
        (packageName (destLpkg U)).bytes ≠ T := by
  have hnamed := packageName_destLpkg_iff hnul hslash
  have hfound : (∃ p ∈ db₁, p.name.bytes = T) ↔
      45 ∉ T ∧ T.length ≤ 63 ∨ ∃ p ∈ db, p.name.bytes = T := by
    rw [← hnamed]
    simp only [mem_enterPackage_iff henter]
    constructor
    · rintro ⟨p, rfl | hp, hT⟩
      · exact .inl hT
      · exact .inr ⟨p, mem_of_mem_eraseP hp, hT⟩
    · rintro (hT | ⟨p, hp, hT⟩)
      · exact ⟨_, .inl rfl, hT⟩
      · by_cases hnew : (packageName (destLpkg T)).bytes = T
        · exact ⟨_, .inl rfl, hnew⟩
        · refine ⟨p, .inr ((mem_eraseP_of_neg fun h => hnew ?_).2 hp), hT⟩
          exact (of_decide_eq_true h).symm.trans hT
  rw [hfound]
  refine and_congr_right fun h => ⟨fun hstays hname => ?_, fun hname listing₂ db₂ h₂ => ?_⟩
  · obtain ⟨p, hp, hT⟩ := hfound.2 h
    rcases hidx : db₁.findIdx? (fun q => q.name = packageName (destLpkg U)) with - | i
    · have hne := findIdx?_eq_none_iff.1 hidx p hp
      simp [CStr.ext_iff, hT, hname] at hne
    · obtain ⟨hi, hiname, -⟩ := findIdx?_eq_some_iff_getElem.1 hidx
      -- the entry cannot be the new one for two different lists of files
      have hsame (l : Bytes) : newPackage (destLpkg U) l = db₁[i] := by
        have hidx' : db₁.findIdx? (fun q => q.name = (newPackage (destLpkg U) l).name) = some i :=
          hidx
        have hkept := hstays l _ (by rw [enterPackage, hidx']) i _ (getElem?_eq_getElem hi)
          (by simpa [CStr.ext_iff, hname] using hiname)
        simpa [hi] using hkept
      exact absurd (congrArg Package.files ((hsame []).trans (hsame [97, 10]).symm))
        (by decide : tarFiles [] ≠ tarFiles [97, 10])
  · exact fun i p hp hT => getElem?_enterPackage h₂ hp fun h =>
      hname ((congrArg CStr.bytes h).symm.trans hT)

theorem installed_iff_vim :
    ∃ p ∈ [newPackage (destLpkg (utf8 "vim")) []], p.name.bytes = utf8 "vim" :=
  ((@installed_iff _ (utf8 "htop") [] [] _ (by decide) (by decide) rfl).2
    ⟨.inl (by decide), by decide⟩).1

/-- The second package is entered in the place of the first. -/
theorem package_replaced :
    (packageName (destLpkg (utf8 "gtk-doc"))).bytes = utf8 "gtk" ∧
    enterPackage [newPackage (destLpkg (utf8 "gtk")) []]
      (newPackage (destLpkg (utf8 "gtk-doc")) []) =
        some [newPackage (destLpkg (utf8 "gtk-doc")) []] := by
  decide

end Lpkg
