import FramePacing.Proofs.Binary.Order

/-!
# Cutting a float down to a whole number

To make a word of a float, core's model shifts out what is behind the point, and takes the nearer
end of the range for what a word cannot hold.

* `roundToInt_eq` — shifting is taking the whole part.
* `Canonical.toNat_toUInt64` — the word that is made of a finite float.
-/

namespace FramePacing.Binary

open Float.Model Float.Model.UnpackedFloat

lemma Reads.mantissa_eq {em : ExtendedMantissa} {q : ℚ} (h : Reads em q) :
    em.mantissa = ⌊q⌋₊ := by
  obtain ⟨hlow, hhigh⟩ := Leaves.nonneg_and_lt_one h
  have hmantissa : (0 : ℚ) ≤ em.mantissa := Nat.cast_nonneg _
  rw [eq_comm, Nat.floor_eq_iff (by linarith)]
  constructor <;> linarith

/-- **What is shifted out is what is behind the point.** -/
theorem roundToInt_eq (s : Sign) (m : ℕ) (e : ℤ) :
    roundToInt s m e = s.apply ⌊(m : ℚ) * 2 ^ e⌋₊ := by
  have hvalue := decreaseExponent_value m e 0
  have hle : (decreaseExponent m e 0).2 ≤ 0 := by
    simp only [decreaseExponent]
    omega
  rw [roundToInt]
  generalize decreaseExponent m e 0 = d at hvalue hle
  obtain ⟨n, f⟩ := d
  have hshift : (n : ℚ) / 2 ^ (0 - f).toNat = m * 2 ^ e := by
    rw [← hvalue, div_eq_mul_inv, ← zpow_natCast, ← zpow_neg]
    congr 2
    omega
  have hreads : Reads (.ofMantissaAndAccuracy n .exact) n :=
    reads_ofMantissaAndAccuracy (sub_self _)
  have hwhole := (hreads.shiftRight (0 - f).toNat).mantissa_eq
  rw [hshift] at hwhole
  rw [← hwhole]
  rfl

lemma toNat_ofNatClamp (n : ℕ) : (UInt64.ofNatClamp n).toNat = min n (2 ^ 64 - 1) := by
  rw [UInt64.ofNatClamp]
  split_ifs with h
  · rw [UInt64.toNat_ofNatLT]
    exact (min_eq_left (Nat.le_sub_one_of_lt h)).symm
  · rw [UInt64.toNat_ofNatLT]
    exact (min_eq_right ((Nat.sub_le _ 1).trans (not_lt.mp h))).symm

/-- **A finite float is made a word** without what is behind its point, zero if it is negative. -/
theorem Canonical.toNat_toUInt64 {x : Float} {s : Sign} {q : ℚ}
    (h : Canonical s q x.toModel.unpack) :
    x.toUInt64.toNat = min (s.apply ⌊q⌋₊).toNat (2 ^ 64 - 1) := by
  change (UInt64.ofNatClamp (x.toModel.unpack.toInt 0 (UInt64.size - 1)).toNat).toNat = _
  rw [toNat_ofNatClamp]
  generalize x.toModel.unpack = u at h
  rcases h with _ | @⟨m, e, hpos, hlt, hmin, hfull⟩
  · cases s <;> rfl
  · rw [← roundToInt_eq]
    rfl

end FramePacing.Binary
