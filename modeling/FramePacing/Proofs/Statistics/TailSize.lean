import FramePacing.Proofs.Decimal.Shortest
import FramePacing.Proofs.Duration.Proper
import FramePacing.Statistics
import Mathlib.Data.Nat.Cast.Order.Field
import Mathlib.Algebra.Order.Floor.Semifield

/-!
# How many frames are in a tail

The size of a tail is a share of a count, rounded twice: to a float, when the share is taken, and to
a whole number.  Both roundings respect the order, so a smaller share never takes more frames.

* `roundToNat_eq` — rounding a float to a natural number.
* `size_tenthPercent_le` — the tenth of a percent takes no more frames than the percent.
* `size_eq` — up to `2 ^ 52` frames the two roundings do no harm.
* `size_is_rounded_share` — the size of a tail, for any count.
-/

namespace FramePacing.Statistics

open Binary Decimal
open Float.Model

/-! ## Whole numbers -/

lemma roundDiv_away (num : ℕ) {den : ℕ} (hden : 0 < den) :
    roundDiv .away num den = (2 * num + den) / (2 * den) := by
  have hrest := Nat.mod_lt num hden
  have hsplit : 2 * num + den = 2 * (num % den) + den + 2 * den * (num / den) := by
    have hdiv := Nat.div_add_mod num den
    linarith
  have hcarry : (2 * (num % den) + den) / (2 * den) = if 2 * (num % den) < den then 0 else 1 := by
    split_ifs with h
    · exact Nat.div_eq_of_lt (by omega)
    · exact Nat.div_eq_of_lt_le (by omega) (by omega)
  rw [hsplit, Nat.add_mul_div_left _ _ (by omega), hcarry, roundDiv]
  split_ifs <;> omega

lemma roundDiv_magnitude (x : Magnitude) :
    roundDiv .away x.numerator x.denominator = ⌊x.value + 1 / 2⌋₊ := by
  have hden : (x.denominator : ℚ) ≠ 0 := by exact_mod_cast x.denominator_pos.ne'
  rw [roundDiv_away _ x.denominator_pos, ← x.numerator_div_denominator,
    ← Nat.floor_div_eq_div (K := ℚ)]
  congr 1
  push_cast
  field_simp

/-- **A float is rounded to the nearest natural number**, halves upwards. -/
theorem roundToNat_eq {x : Float} (hx : x.isFinite = true) (h : 0 ≤ value x) :
    roundToNat x = ⌊value x + 1 / 2⌋₊ := by
  obtain ⟨s, q, hq, -⟩ := exists_canonical hx
  rw [hq.value_eq] at h ⊢
  rw [roundToNat, Reading.ofFloat]
  generalize x.toModel.unpack = u at hq
  rcases hq with _ | @⟨m, e, hpos, hlt, hmin, hfull⟩
  · have hhalf : ⌊(1 / 2 : ℚ)⌋₊ = 0 := by norm_num
    rw [signed_zero, zero_add, hhalf]
    cases s <;> rfl
  · have hvalue : (0 : ℚ) < m * 2 ^ e := mul_pos (by exact_mod_cast hpos) (zpow_two_pos e)
    cases s
    · exact absurd h (not_le.mpr (neg_lt_zero.mpr hvalue))
    · exact roundDiv_magnitude ⟨m, e⟩

lemma roundToNat_mono {x y : Float} (hx : x.isFinite = true) (hy : y.isFinite = true)
    (h : 0 ≤ value x) (hxy : value x ≤ value y) : roundToNat x ≤ roundToNat y := by
  rw [roundToNat_eq hx h, roundToNat_eq hy (h.trans hxy)]
  exact Nat.floor_mono (by linarith)

/-! ## Shares -/

section Share

variable {n : ℕ}

lemma isFinite_fraction (tail : Tail) : tail.fraction.isFinite = true := by
  cases tail <;> decide

lemma value_fraction_nonneg (tail : Tail) : 0 ≤ value tail.fraction := by
  rw [← Duration.value_zero, ← le_iff_value_le Duration.isFinite_zero (isFinite_fraction tail)]
  cases tail <;> decide

lemma value_fraction_le_one (tail : Tail) : value tail.fraction ≤ 1 := by
  obtain ⟨hfinite, hone⟩ := value_nearestFloat (n := 1) (by norm_num)
  rw [Nat.cast_one] at hone
  rw [← hone, ← le_iff_value_le (isFinite_fraction tail) hfinite]
  cases tail <;> decide

lemma value_fraction_tenthPercent_le :
    value Tail.tenthPercent.fraction ≤ value Tail.onePercent.fraction := by
  rw [← le_iff_value_le (isFinite_fraction _) (isFinite_fraction _)]
  decide

/-- A share of a count is rounded after the count. -/
lemma value_share (tail : Tail) (h : n ≤ 2 ^ 64) :
    (tail.fraction * nearestFloat n).isFinite = true
      ∧ value (tail.fraction * nearestFloat n) = nearest (value tail.fraction * nearest n) := by
  obtain ⟨hfinite, hvalue⟩ := (roundsTo_nearestFloat n).of_abs_le (abs_cast_le h)
  have hround := roundsTo_mul (isFinite_fraction tail) hfinite
  rw [hvalue] at hround
  refine hround.of_abs_le ?_
  rw [abs_mul, abs_of_nonneg (value_fraction_nonneg tail)]
  calc value tail.fraction * |nearest n| ≤ 1 * 2 ^ 1023 :=
        mul_le_mul (value_fraction_le_one tail) (abs_nearest_le (abs_cast_le h))
          (abs_nonneg _) zero_le_one
    _ = 2 ^ 1023 := one_mul _

/-- Neither a smaller fraction nor a smaller count makes a share larger. -/
lemma roundToNat_share_mono {m : ℕ} {tail tail' : Tail}
    (htail : value tail.fraction ≤ value tail'.fraction) (hmn : m ≤ n) (h : n ≤ 2 ^ 64) :
    roundToNat (tail.fraction * nearestFloat m) ≤ roundToNat (tail'.fraction * nearestFloat n) := by
  obtain ⟨hfinite, hvalue⟩ := value_share tail (hmn.trans h)
  obtain ⟨hfinite', hvalue'⟩ := value_share tail' h
  have hm : 0 ≤ nearest m := nearest_nonneg (Nat.cast_nonneg m)
  have hmono : nearest m ≤ nearest n := nearest_mono (by exact_mod_cast hmn)
  refine roundToNat_mono hfinite hfinite' ?_ ?_
  · rw [hvalue]
    exact nearest_nonneg (mul_nonneg (value_fraction_nonneg tail) hm)
  · rw [hvalue, hvalue']
    exact nearest_mono (mul_le_mul htail hmono hm (value_fraction_nonneg tail'))

/-- **A smaller share takes no more frames**, -/
theorem size_tenthPercent_le (h : n ≤ 2 ^ 64) :
    Tail.tenthPercent.size n ≤ Tail.onePercent.size n := by
  have hround := roundToNat_share_mono value_fraction_tenthPercent_le le_rfl h
  simp only [Tail.size]
  omega

/-- nor does the same share of fewer. -/
lemma size_mono (tail : Tail) {m : ℕ} (hmn : m ≤ n) (h : n ≤ 2 ^ 64) :
    tail.size m ≤ tail.size n := by
  have hround := roundToNat_share_mono (le_refl (value tail.fraction)) hmn h
  simp only [Tail.size]
  omega

end Share

/-! ## The share that is meant

The fraction of a tail is a little more than the hundredth or thousandth that it stands for, so a
count that is halfway between two sizes goes up, as it should.  What lies below halfway stays
below: the next count that does is a whole frame away, and all that the two roundings can add is
less than that as long as counts are at most `2 ^ 52`.
-/

section Exact

variable {n : ℕ}

/-- How many frames there are for each one in a tail. -/
def framesPerOne : Tail → ℕ
  | .onePercent => 100
  | .tenthPercent => 1000

lemma framesPerOne_pos (tail : Tail) : (0 : ℚ) < framesPerOne tail := by
  cases tail <;> norm_num [framesPerOne]

lemma framesPerOne_le (tail : Tail) : (framesPerOne tail : ℚ) ≤ 1000 := by
  cases tail <;> norm_num [framesPerOne]

lemma value_onePercent : value Tail.onePercent.fraction = 5764607523034235 / 2 ^ 59 := by
  decide +kernel

lemma value_tenthPercent : value Tail.tenthPercent.fraction = 1152921504606847 / 2 ^ 60 := by
  decide +kernel

/-- A fraction is at least what it stands for, and hardly more. -/
lemma fraction_bounds (tail : Tail) :
    1 ≤ value tail.fraction * framesPerOne tail
      ∧ value tail.fraction * framesPerOne tail ≤ 1 + halfUnit / 4 := by
  cases tail with
  | onePercent =>
    rw [value_onePercent]
    norm_num [framesPerOne, halfUnit]
  | tenthPercent =>
    rw [value_tenthPercent]
    norm_num [framesPerOne, halfUnit]

/-- Small counts are floats, so that only the product is rounded. -/
lemma value_share_of_le (tail : Tail) (h : n ≤ 2 ^ 52) :
    value (tail.fraction * nearestFloat n) = nearest (value tail.fraction * n) := by
  have hlimit : |(n : ℤ)| ≤ 2 ^ 53 := by
    rw [Int.abs_natCast]
    exact_mod_cast h.trans (by norm_num)
  have hexact := nearest_dyadic n (k := 0) hlimit (by norm_num)
  rw [zpow_zero, mul_one, Int.cast_natCast] at hexact
  rw [(value_share tail (h.trans (by norm_num))).2, hexact]

/-- **Halfway is reached**, because a fraction is not less than what it stands for, … -/
lemma le_share {tail : Tail} {k : ℤ} (hk : |2 * k - 1| ≤ 2 ^ 53)
    (h : ((k : ℚ) - 1 / 2) * framesPerOne tail ≤ n) :
    (k : ℚ) ≤ nearest (value tail.fraction * n) + 1 / 2 := by
  have hhalf : ((2 * k - 1 : ℤ) : ℚ) * 2 ^ (-1 : ℤ) = k - 1 / 2 := by
    push_cast
    rw [zpow_neg_one]
    ring
  have hexact := nearest_dyadic (2 * k - 1) (k := -1) hk (by norm_num)
  rw [hhalf] at hexact
  have hle : (k : ℚ) - 1 / 2 ≤ value tail.fraction * n := by
    refine le_of_mul_le_mul_right ?_ (framesPerOne_pos tail)
    calc ((k : ℚ) - 1 / 2) * framesPerOne tail ≤ 1 * n := by rw [one_mul]; exact h
      _ ≤ value tail.fraction * framesPerOne tail * n :=
        mul_le_mul_of_nonneg_right (fraction_bounds tail).1 (Nat.cast_nonneg n)
      _ = value tail.fraction * n * framesPerOne tail := by ring
  have hmono := nearest_mono hle
  rw [hexact] at hmono
  linarith

/-- … and nothing below it is rounded up to it. -/
lemma share_lt {tail : Tail} {k : ℤ} (hn : 0 < n) (hsmall : n ≤ 2 ^ 52)
    (h : (n : ℚ) + 1 ≤ (k + 1 / 2) * framesPerOne tail) :
    nearest (value tail.fraction * n) + 1 / 2 < k + 1 := by
  have hnQ : (1 : ℚ) ≤ n := by exact_mod_cast hn
  have hsmallQ : (n : ℚ) ≤ 2 ^ 52 := by exact_mod_cast hsmall
  have hpos := framesPerOne_pos tail
  obtain ⟨hlow, hhigh⟩ := fraction_bounds tail
  -- a thousandth at least, which is nowhere near the least float
  have hmin : (2 : ℚ) ^ (-1022 : ℤ) ≤ value tail.fraction * n := by
    have hthousand : 1 ≤ value tail.fraction * 1000 :=
      hlow.trans (mul_le_mul_of_nonneg_left (framesPerOne_le tail) (value_fraction_nonneg tail))
    have hfraction : (2 : ℚ) ^ (-10 : ℤ) ≤ value tail.fraction := by
      rw [show (2 : ℚ) ^ (-10 : ℤ) = 1 / 1024 by norm_num]
      linarith
    calc (2 : ℚ) ^ (-1022 : ℤ) ≤ 2 ^ (-10 : ℤ) := zpow_le_zpow_right₀ one_le_two (by norm_num)
      _ ≤ value tail.fraction := hfraction
      _ ≤ value tail.fraction * n := le_mul_of_one_le_right (value_fraction_nonneg tail) hnQ
  have hround := (close_nearest hmin).bounds.2
  have hproduct : nearest (value tail.fraction * n) * framesPerOne tail < n + 1 := by
    calc nearest (value tail.fraction * n) * framesPerOne tail
        ≤ (1 + halfUnit) * (value tail.fraction * n) * framesPerOne tail :=
          mul_le_mul_of_nonneg_right hround hpos.le
      _ = (1 + halfUnit) * (value tail.fraction * framesPerOne tail) * n := by ring
      _ ≤ (1 + halfUnit) * (1 + halfUnit / 4) * n := by
        refine mul_le_mul_of_nonneg_right ?_ (Nat.cast_nonneg n)
        exact mul_le_mul_of_nonneg_left hhigh (by linarith [halfUnit_pos])
      _ = n + n * ((1 + halfUnit) * (1 + halfUnit / 4) - 1) := by ring
      _ ≤ n + 2 ^ 52 * ((1 + halfUnit) * (1 + halfUnit / 4) - 1) := by
        refine add_le_add_right (mul_le_mul_of_nonneg_right hsmallQ ?_) _
        norm_num [halfUnit]
      _ < n + 1 := by norm_num [halfUnit]
  have hlt : nearest (value tail.fraction * n) < k + 1 / 2 :=
    lt_of_mul_lt_mul_right (hproduct.trans_le h) hpos.le
  linarith

/-- **The rounded share is the share rounded**, halves upwards. -/
lemma roundToNat_share (tail : Tail) (hn : 0 < n) (hsmall : n ≤ 2 ^ 52) :
    roundToNat (tail.fraction * nearestFloat n)
      = (n + framesPerOne tail / 2) / framesPerOne tail := by
  obtain ⟨hfinite, -⟩ := value_share tail (hsmall.trans (by norm_num))
  have hvalue := value_share_of_le tail hsmall
  have hnonneg : 0 ≤ nearest (value tail.fraction * n) :=
    nearest_nonneg (mul_nonneg (value_fraction_nonneg tail) (Nat.cast_nonneg n))
  rw [roundToNat_eq hfinite (hvalue ▸ hnonneg), hvalue, Nat.floor_eq_iff (by linarith)]
  obtain ⟨k, hk⟩ : ∃ k, k = (n + framesPerOne tail / 2) / framesPerOne tail := ⟨_, rfl⟩
  have hbounds : 2 * k * framesPerOne tail ≤ 2 * n + framesPerOne tail
      ∧ 2 * n + 2 ≤ (2 * k + 1) * framesPerOne tail := by
    cases tail <;> simp only [framesPerOne] at hk ⊢ <;> omega
  have hlow : 2 * (k : ℚ) * framesPerOne tail ≤ 2 * n + framesPerOne tail := by
    exact_mod_cast hbounds.1
  have hhigh : 2 * (n : ℚ) + 2 ≤ (2 * k + 1) * framesPerOne tail := by exact_mod_cast hbounds.2
  rw [← hk]
  constructor
  · refine le_share (k := k) (abs_le.mpr ?_) (by push_cast; linarith)
    have hle : k ≤ n := by
      cases tail <;> simp only [framesPerOne] at hk <;> omega
    omega
  · refine share_lt (k := k) hn hsmall (by push_cast; linarith)

lemma size_eq (tail : Tail) (h : n ≤ 2 ^ 52) :
    tail.size n = max 1 ((n + framesPerOne tail / 2) / framesPerOne tail) := by
  rcases n.eq_zero_or_pos with rfl | hn
  · cases tail <;> simp [Tail.size, framesPerOne]
  · rw [Tail.size, roundToNat_share tail hn h]
    cases tail <;> simp only [framesPerOne] <;> omega

/-- **The size of a tail is the rounded share**, although it is computed with floats: up to
`2 ^ 52` frames it is the hundredth or thousandth of the count, halves rounded upwards, and one at
least.  For any count there is it lies between one and the count, grows with the count, and is the
smaller one for the smaller tail. -/
theorem size_is_rounded_share :
    (∀ n ≤ 2 ^ 52, Tail.onePercent.size n = max 1 ((n + 50) / 100)
      ∧ Tail.tenthPercent.size n = max 1 ((n + 500) / 1000))
    ∧ ∀ n : UInt64,
      (∀ tail : Tail, 1 ≤ tail.size n.toNat ∧ tail.size n.toNat ≤ max 1 n.toNat
        ∧ ∀ m ≤ n, tail.size m.toNat ≤ tail.size n.toNat)
      ∧ Tail.tenthPercent.size n.toNat ≤ Tail.onePercent.size n.toNat := by
  refine ⟨fun n hn => ⟨size_eq .onePercent hn, size_eq .tenthPercent hn⟩, fun n => ⟨?_, ?_⟩⟩
  · intro tail
    refine ⟨le_max_left _ _, ?_, fun m hm => ?_⟩
    · simp only [Tail.size]
      omega
    · exact size_mono tail (UInt64.le_iff_toNat_le.mp hm) n.toNat_lt.le
  · exact size_tenthPercent_le n.toNat_lt.le

/-- A hundredth of 150 frames is one and a half, which goes up; a hundredth of 149 is less. -/
theorem size_is_rounded_share_at_a_tie :
    149 ≤ 2 ^ 52 ∧ 150 ≤ 2 ^ 52 ∧ Tail.onePercent.size 149 = 1 ∧ Tail.onePercent.size 150 = 2 :=
  ⟨by norm_num, by norm_num, (size_is_rounded_share.1 149 (by norm_num)).1,
    (size_is_rounded_share.1 150 (by norm_num)).1⟩

end Exact

end FramePacing.Statistics
