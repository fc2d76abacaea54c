import Mathlib.Logic.Equiv.List
import MahinaOS.Control.State
import MahinaOS.Lib.Needle

/-!
# What a manifest digest tells apart

`compute_digest` hashes the fields of a manifest with bars between them, and four of them are texts
that are taken as they are given.

* **`eq_iff_bars_of_digest`**: of two manifests with the same digest, the fields are the same
  exactly if these texts have the same numbers of bars in both.
* `descriptions_collide`: a description that takes the place of the time and the kernel version.
-/

namespace Control

open Needle List

theorem bar_notMem_toString (n : Nat) : '|' ∉ (toString n).toList := by
  intro h
  have hdigit := Nat.isDigit_of_mem_toDigits (by decide) (by decide) (Nat.toList_repr ▸ h)
  exact absurd hdigit (by decide)

theorem toString_nat_inj {n n' : Nat} (h : toString n = toString n') : n = n' := by
  have hread (n : Nat) : Nat.ofDigitChars 10 (toString n).toList 0 = n := by
    rw [show (toString n).toList = Nat.toDigits 10 n from Nat.toList_repr,
      Nat.ofDigitChars_ten_toDigits]
  rw [← hread n, h, hread]

/-- The arguments of `compute_digest`. -/
structure DigestFields where
  id : UInt32
  parentId : Option UInt32
  description : String
  createdAtEpochSecs : UInt64
  kernelVersion : String
  status : GenerationStatus
  btrfsTreeRootId : UInt64
  isPinned : Bool
  packageManifest : String
  kernelSha256 : String
  initramfsSha256 : String
  deriving DecidableEq, Repr

namespace DigestFields

def digest (t : DigestFields) (digestHex : String → String) : String :=
  computeDigest digestHex t.id t.parentId t.description t.createdAtEpochSecs t.kernelVersion
    t.status t.btrfsTreeRootId t.isPinned t.packageManifest t.kernelSha256 t.initramfsSha256

/-- The bars in the texts that are taken as they are given. -/
def bars (t : DigestFields) : List Nat :=
  [t.description, t.kernelVersion, t.kernelSha256, t.initramfsSha256].map (·.toList.count '|')

/-- The parent as it is written. -/
def parentText (t : DigestFields) : String := t.parentId.elim "none" toString

/-- The parts between the bars that the format writes. -/
def segments (t : DigestFields) (digestHex : String → String) : List (List Char) :=
  [("id:" ++ toString t.id).toList, ("parent:" ++ t.parentText).toList,
    ("desc:" ++ t.description).toList, ("time:" ++ toString t.createdAtEpochSecs).toList,
    ("kernel:" ++ t.kernelVersion).toList, ("status:" ++ t.status.display).toList,
    ("btrfs_tree:" ++ toString t.btrfsTreeRootId).toList, ("pinned:" ++ toString t.isPinned).toList,
    ("pkg_digest:" ++ digestHex t.packageManifest).toList, ("k_hash:" ++ t.kernelSha256).toList,
    ("initrd_hash:" ++ t.initramfsSha256).toList]

variable {digestHex : String → String} {t t' : DigestFields}

theorem exists_text (digestHex : String → String) (t : DigestFields) : ∃ text : String,
    t.digest digestHex = digestHex text ∧
      '|' :: text.toList = fieldsText '|' (t.segments digestHex) := by
  refine ⟨_, rfl, ?_⟩
  rw [segments, parentText]
  rcases t.parentId with - | p
  all_goals simp [fieldsText]

theorem parentText_inj (h : t.parentText = t'.parentText) : t.parentId = t'.parentId := by
  -- a number is not written with letters
  have hnone (p : UInt32) : toString p ≠ "none" := by
    intro hp
    have hn : 'n' ∈ Nat.toDigits 10 p.toNat := by
      rw [← Nat.toList_repr]
      exact (congrArg String.toList hp) ▸ mem_cons_self
    exact absurd (Nat.isDigit_of_mem_toDigits (by decide) (by decide) hn) (by decide)
  rw [parentText, parentText] at h
  generalize t.parentId = a, t'.parentId = b at h
  rcases a with - | p <;> rcases b with - | p'
  · rfl
  · exact absurd h.symm (hnone p')
  · exact absurd h (hnone p)
  · exact congrArg some (UInt32.toNat_inj.1 (toString_nat_inj h))

theorem segments_inj (hinj : Function.Injective digestHex)
    (h : t.segments digestHex = t'.segments digestHex) : t = t' := by
  simp only [segments, cons.injEq, String.toList_append, append_cancel_left_eq,
    String.toList_inj, and_true] at h
  obtain ⟨hid, hparent, hdesc, htime, hkernel, hstatus, htree, hpin, hpkg, hk, hi⟩ := h
  have hpinned : t.isPinned = t'.isPinned := by
    generalize t.isPinned = b, t'.isPinned = b' at hpin
    revert b b'
    decide
  have hparents := parentText_inj hparent
  rcases t
  rcases t'
  simp only [mk.injEq]
  exact ⟨UInt32.toNat_inj.1 (toString_nat_inj hid), hparents, hdesc,
    UInt64.toNat_inj.1 (toString_nat_inj htime), hkernel, GenerationStatus.display_inj hstatus,
    UInt64.toNat_inj.1 (toString_nat_inj htree), hpinned, hinj hpkg, hk, hi⟩

/-- Numbers, the status and the pin have no bars in them. -/
theorem count_segments (hbar : ∀ s, '|' ∉ (digestHex s).toList) (t : DigestFields) :
    (t.segments digestHex).map (count '|') =
      [0, 0, t.description.toList.count '|', 0, t.kernelVersion.toList.count '|', 0, 0, 0, 0,
        t.kernelSha256.toList.count '|', t.initramfsSha256.toList.count '|'] := by
  have hnum (n : Nat) : (toString n).toList.count '|' = 0 :=
    count_eq_zero_of_not_mem (bar_notMem_toString n)
  have hid : (toString t.id).toList.count '|' = 0 := hnum t.id.toNat
  have htime : (toString t.createdAtEpochSecs).toList.count '|' = 0 := hnum _
  have htree : (toString t.btrfsTreeRootId).toList.count '|' = 0 := hnum _
  have hpin : (toString t.isPinned).toList.count '|' = 0 := by cases t.isPinned <;> decide
  have hstatus := count_eq_zero_of_not_mem t.status.bar_notMem_display
  have hpkg := count_eq_zero_of_not_mem (hbar t.packageManifest)
  have hparent : t.parentText.toList.count '|' = 0 := by
    rw [parentText]
    rcases t.parentId with - | p
    · decide
    · exact hnum p.toNat
  simp [segments, hid, hparent, htime, hstatus, htree, hpin, hpkg]

/-- **Which manifests share a digest.**  If the digest of a text has no collisions and no bars, as
in hexadecimal, two manifests with one digest are the same exactly if their descriptions, their
kernel versions and their two hashes have the same numbers of bars. -/
theorem eq_iff_bars_of_digest (hinj : Function.Injective digestHex)
    (hbar : ∀ s, '|' ∉ (digestHex s).toList) (h : t.digest digestHex = t'.digest digestHex) :
    t = t' ↔ t.bars = t'.bars := by
  constructor
  · rintro rfl
    rfl
  · intro hbars
    simp only [bars, map_cons, cons.injEq, and_true] at hbars
    obtain ⟨hdesc, hkernel, hk, hi⟩ := hbars
    obtain ⟨text, hdigest, hchars⟩ := t.exists_text digestHex
    obtain ⟨text', hdigest', hchars'⟩ := t'.exists_text digestHex
    obtain rfl : text = text' := hinj (hdigest.symm.trans (h.trans hdigest'))
    refine segments_inj hinj (fieldsText_inj ?_ (hchars.symm.trans hchars'))
    rw [count_segments hbar, count_segments hbar, hdesc, hkernel, hk, hi]

def sample : DigestFields :=
  ⟨102, some 101, "a", 1, "b|time:2|kernel:c", .staged, 256, false, "", "", ""⟩

/-- The same text with a description that goes on with a time and a kernel version. -/
def collided : DigestFields :=
  { sample with description := "a|time:1|kernel:b", createdAtEpochSecs := 2, kernelVersion := "c" }

theorem digest_collided (digestHex : String → String) :
    sample.digest digestHex = collided.digest digestHex :=
  congrArg digestHex (by rfl)

/-- A digest without collisions and without bars: the number of the text. -/
theorem eq_iff_bars_of_digest_sample : ∃ digestHex : String → String,
    Function.Injective digestHex ∧ (∀ s, '|' ∉ (digestHex s).toList) ∧
      (sample = sample ↔ sample.bars = sample.bars) ∧
      (sample = collided ↔ sample.bars = collided.bars) := by
  have hinj : Function.Injective fun s : String =>
      toString (Encodable.encode (s.toList.map Char.toNat)) := by
    intro s s' h
    have hcodes := Encodable.encode_injective (toString_nat_inj h)
    exact String.toList_inj.1 (map_injective_iff.2 (fun _ _ => Char.toNat_inj.1) hcodes)
  exact ⟨_, hinj, fun _ => bar_notMem_toString _,
    eq_iff_bars_of_digest hinj (fun _ => bar_notMem_toString _) rfl,
    eq_iff_bars_of_digest hinj (fun _ => bar_notMem_toString _) (digest_collided _)⟩

/-- Two manifests with one digest, for every digest of the text. -/
theorem descriptions_collide : ∃ t t' : DigestFields, t ≠ t' ∧
    ∀ digestHex, t.digest digestHex = t'.digest digestHex :=
  ⟨sample, collided, by decide, digest_collided⟩

end DigestFields

end Control
