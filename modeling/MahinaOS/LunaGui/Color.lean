import Mathlib.Tactic.Ring

/-!
# Blending colours

`alpha_blend` divides a channel by the alpha of the result, which is rounded down, while the
destination's share of the channel is rounded on its own.  If the alphas are small the quotient can
be larger than both channels and than a byte, and what does not fit goes into the channel next to it
(`blended_iff`, `blend_spills`).
-/

namespace LunaGui

/-- The channels of a colour, as numbers. -/
structure Channels where
  a : Nat
  r : Nat
  g : Nat
  b : Nat
  deriving DecidableEq

def Channels.of (c : UInt32) : Channels where
  a := c.toNat >>> 24
  r := c.toNat >>> 16 % 2 ^ 8
  g := c.toNat >>> 8 % 2 ^ 8
  b := c.toNat % 2 ^ 8

/-- The channels side by side; they are not cut to a byte. -/
def Channels.pack (c : Channels) : UInt32 :=
  .ofNat (c.a <<< 24 ||| c.r <<< 16 ||| c.g <<< 8 ||| c.b)

/-- A colour channel, if the alpha of the result is not zero. -/
def blendChannel (srcA dstA s d : Nat) : Nat :=
  (s * srcA + d * dstA * (255 - srcA) / 255) / (srcA + dstA * (255 - srcA) / 255)

/-- The channels that `alpha_blend` puts together. -/
def blend (src dst : Channels) : Channels :=
  if src.a = 255 then src
  else if src.a = 0 then dst
  else if dst.a = 0 then src
  else
    let outA := src.a + dst.a * (255 - src.a) / 255
    if outA = 0 then ⟨0, 0, 0, 0⟩
    else
      ⟨outA, blendChannel src.a dst.a src.r dst.r, blendChannel src.a dst.a src.g dst.g,
        blendChannel src.a dst.a src.b dst.b⟩

def alphaBlend (src dst : UInt32) : UInt32 := (blend (.of src) (.of dst)).pack

/-- A channel is a byte and between those it is made of, up to one. -/
def Within (s d c : Nat) : Prop := c < 256 ∧ min s d ≤ c + 1 ∧ c ≤ max s d + 1

instance (s d c : Nat) : Decidable (Within s d c) := inferInstanceAs (Decidable (_ ∧ _ ∧ _))

/-- Every channel is within its bounds, and the alpha is no smaller than that of the source. -/
def Blended (src dst out : Channels) : Prop :=
  (src.a ≤ out.a ∧ out.a < 256) ∧ Within src.r dst.r out.r ∧ Within src.g dst.g out.g ∧
    Within src.b dst.b out.b

instance (src dst out : Channels) : Decidable (Blended src dst out) :=
  inferInstanceAs (Decidable ((_ ∧ _) ∧ _ ∧ _ ∧ _))

/-- What the alpha of the result loses by rounding, times the destination's channel, is smaller than
what the distance of the channels makes up for and two steps above them, or one above 255. -/
def Room (srcA dstA s d : Nat) : Prop :=
  let share := dstA * (255 - srcA)
  d * (share % 255) / 255 <
    min 2 (256 - max s d) * (srcA + share / 255) + ((s - d) * (share / 255) + (d - s) * srcA)

/-- One of the colours is returned as it is, or there is room for each channel. -/
def Fits (s d : Channels) : Prop :=
  s.a = 0 ∨ s.a = 255 ∨ d.a = 0 ∨
    Room s.a d.a s.r d.r ∧ Room s.a d.a s.g d.g ∧ Room s.a d.a s.b d.b

theorem max_mul_add (s d a q : Nat) :
    max s d * (a + q) = s * a + d * q + ((s - d) * q + (d - s) * a) := by
  rcases Nat.le_total s d with h | h
  · obtain ⟨k, rfl⟩ := Nat.exists_eq_add_of_le h
    simp
    ring
  · obtain ⟨k, rfl⟩ := Nat.exists_eq_add_of_le h
    simp
    ring

theorem within_iff {srcA dstA s d : Nat} (ha : 0 < srcA) (hs : s < 256) (hd : d < 256) :
    Within s d (blendChannel srcA dstA s d) ↔ Room srcA dstA s d := by
  have hshare : d * dstA * (255 - srcA) / 255 =
      d * (dstA * (255 - srcA) / 255) + d * (dstA * (255 - srcA) % 255) / 255 := by
    rw [Nat.mul_assoc]
    conv_lhs => rw [← Nat.div_add_mod (dstA * (255 - srcA)) 255]
    rw [Nat.mul_add, Nat.mul_left_comm, Nat.mul_add_div (by decide)]
  simp only [blendChannel, Room, hshare]
  generalize d * (dstA * (255 - srcA) % 255) / 255 = e
  generalize dstA * (255 - srcA) / 255 = q
  have hout : 0 < srcA + q := Nat.add_pos_left ha q
  have hlow : min s d ≤ (s * srcA + (d * q + e)) / (srcA + q) := by
    rw [Nat.le_div_iff_mul_le hout, Nat.mul_add]
    have h1 := Nat.mul_le_mul_right srcA (Nat.min_le_left s d)
    have h2 := Nat.mul_le_mul_right q (Nat.min_le_right s d)
    omega
  have hhigh : (s * srcA + (d * q + e)) / (srcA + q) < max s d + min 2 (256 - max s d) ↔ _ :=
    Nat.div_lt_iff_lt_mul hout
  rw [Nat.add_mul, max_mul_add] at hhigh
  rw [Within]
  omega

theorem of_lt (c : UInt32) : (Channels.of c).a < 256 ∧ (Channels.of c).r < 256 ∧
    (Channels.of c).g < 256 ∧ (Channels.of c).b < 256 := by
  have hlt := c.toNat_lt
  simp only [Channels.of, Nat.shiftRight_eq_div_pow]
  omega

/-- **When a blend is in bounds.**  For all colours: the channels that `alpha_blend` puts together
are bytes, between those of the source and the destination up to one, and the alpha is no smaller
than that of the source, if and only if one of the colours is returned as it is or there is room for
each channel. -/
theorem blended_iff (src dst : UInt32) :
    Blended (.of src) (.of dst) (blend (.of src) (.of dst)) ↔ Fits (.of src) (.of dst) := by
  obtain ⟨hsa, hsr, hsg, hsb⟩ := of_lt src
  obtain ⟨hda, hdr, hdg, hdb⟩ := of_lt dst
  generalize Channels.of src = s at *
  generalize Channels.of dst = d at *
  rw [Fits, blend]
  split_ifs with hfull hclear hnone
  · simp only [hfull, true_or, or_true, iff_true, Blended, Within]
    omega
  · simp only [hclear, true_or, iff_true, Blended, Within]
    omega
  · simp only [hnone, true_or, or_true, iff_true, Blended, Within]
    omega
  · have ha : 0 < s.a := Nat.pos_of_ne_zero hclear
    have hshare : d.a * (255 - s.a) ≤ 255 * (255 - s.a) := Nat.mul_le_mul_right _ (by omega)
    have hout : s.a + d.a * (255 - s.a) / 255 ≠ 0 := by omega
    simp only [hfull, hclear, hnone, hout, false_or, if_false, Blended,
      within_iff ha hsr hdr, within_iff ha hsg hdg, within_iff ha hsb hdb]
    exact and_iff_right (by omega)

/-- Almost transparent white over white: the channels are 381 with alpha 2, and the result is a dark
grey with alpha 3. -/
theorem blend_spills :
    blend (.of 0x02FFFFFF) (.of 0x01FFFFFF) = ⟨2, 381, 381, 381⟩ ∧
      alphaBlend 0x02FFFFFF 0x01FFFFFF = 0x037D7D7D ∧
      ¬Blended (.of 0x02FFFFFF) (.of 0x01FFFFFF) (blend (.of 0x02FFFFFF) (.of 0x01FFFFFF)) := by
  decide

end LunaGui
