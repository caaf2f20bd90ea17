import FramePacing.Proofs.Binary.Errors
import FramePacing.Proofs.Duration.Proper

/-!
# Rates of durations

The rate of a duration is the exact quotient, rounded once, so a longer duration never has a higher
rate.  No positive rate is so small that it would be rounded to zero.  But it can be too large for a
float: what is asked before the division is whether the duration is zero, and there are positive
durations, `TooShort` ones, of which the rate is infinite all the same.

* `roundsTo_rate` — the rate of a finite positive number of milliseconds.
* `isFinite_rate_iff` — the rate is finite unless the duration is too short.
* `value_rate_pos`, `rate_anti` — a finite rate is positive, and no higher for a longer duration.
* `rate?_isFinite_iff` — which numbers of milliseconds have no rate or a finite positive one.
-/

namespace FramePacing.Duration

open Binary

variable {x y : Float}

/-- That a number of milliseconds is positive, and a thousand divided by it is no float. -/
def TooShort (x : Float) : Prop :=
  x.isFinite = true ∧ 0 < x ∧ value x * infinityFrom ≤ 1000

lemma isFinite_thousand : (1000 : Float).isFinite = true := by decide

lemma value_thousand : value 1000 = 1000 := by decide +kernel

/-! ## Which durations have a rate -/

lemma rate?_of_pos (hx : x.isFinite = true) (hpos : 0 < x) :
    (ofMillis x).rate? = some (1000 / x) := by
  have h := isProper_ofMillis x
  rw [ofMillis_of_pos hx hpos] at h
  exact h.rate?_eq hpos

lemma rate_eq {rate : Float} (hx : x.isFinite = true) (hpos : 0 < x)
    (hrate : (ofMillis x).rate? = some rate) : 1000 / x = rate :=
  Option.some.inj ((rate?_of_pos hx hpos).symm.trans hrate)

lemma rate?_cases (x : Float) :
    x.isFinite = true ∧ 0 < x ∧ (ofMillis x).rate? = some (1000 / x)
      ∨ (ofMillis x).rate? = none := by
  rcases ofMillis_cases x with ⟨hx, hpos, -⟩ | hzero
  · exact .inl ⟨hx, hpos, rate?_of_pos hx hpos⟩
  · rw [hzero]
    exact .inr rfl

/-! ## The value of a rate -/

section Positive

variable (hx : x.isFinite = true) (hpos : 0 < x)
include hx hpos

lemma value_pos : 0 < value x := (pos_iff_value_pos hx).mp hpos

lemma quotient_pos : 0 < 1000 / value x := div_pos (by norm_num) (value_pos hx hpos)

/-- **A rate is the exact quotient**, rounded once. -/
theorem roundsTo_rate : RoundsTo (1000 / value x) (1000 / x) := by
  have h := roundsTo_div isFinite_thousand hx (value_pos hx hpos).ne'
  rwa [value_thousand] at h

/-- **A rate is finite** unless the duration is too short. -/
theorem isFinite_rate_iff : (1000 / x).isFinite = true ↔ ¬TooShort x := by
  rw [(roundsTo_rate hx hpos).isFinite_iff (quotient_pos hx hpos).le,
    div_lt_iff₀ (value_pos hx hpos), mul_comm, ← not_le]
  exact not_congr ⟨fun h => ⟨hx, hpos, h⟩, fun h => h.2.2⟩

/-- The rate of a duration that is too short is infinite. -/
lemma unpack_rate (hrate : ¬(1000 / x).isFinite = true) :
    (1000 / x).toModel.unpack = .infinity .positive :=
  (roundsTo_rate hx hpos).unpack_eq (quotient_pos hx hpos).le hrate

/-- A rate is not rounded to zero, … -/
lemma value_rate_pos (hrate : (1000 / x).isFinite = true) : 0 < value (1000 / x) := by
  have hlarge : (2 : ℚ) ^ (-1024 : ℤ) ≤ 1000 / value x := by
    have hlimit := (le_abs_self _).trans_lt (abs_value_lt hx)
    rw [le_div_iff₀ (value_pos hx hpos), zpow_neg, inv_mul_le_iff₀ (zpow_two_pos _)]
    refine hlimit.le.trans ?_
    exact le_mul_of_one_le_right (pow_nonneg two_pos.le _) (by norm_num)
  have hexact := nearest_dyadic 1 (k := -1024) (by norm_num) (by norm_num)
  rw [Int.cast_one, one_mul] at hexact
  calc (0 : ℚ) < 2 ^ (-1024 : ℤ) := zpow_two_pos _
    _ = nearest (2 ^ (-1024 : ℤ)) := hexact.symm
    _ ≤ nearest (1000 / value x) := nearest_mono hlarge
    _ = value (1000 / x) := ((roundsTo_rate hx hpos).value_eq hrate).symm

/-- … and a longer duration has no higher one. -/
theorem rate_anti (hy : y.isFinite = true) (hxy : x ≤ y) (hrate : (1000 / x).isFinite = true) :
    0 < y ∧ (1000 / y).isFinite = true ∧ value (1000 / y) ≤ value (1000 / x) := by
  have hvalue := value_pos hx hpos
  have hle := (le_iff_value_le hx hy).mp hxy
  have hypos : 0 < y := (pos_iff_value_pos hy).mpr (hvalue.trans_le hle)
  have hquotient : 1000 / value y ≤ 1000 / value x :=
    div_le_div_of_nonneg_left (by norm_num) hvalue hle
  have hround := roundsTo_rate hx hpos
  have hround' := roundsTo_rate hy hypos
  have hfinite : (1000 / y).isFinite = true := by
    rw [hround'.isFinite_iff (quotient_pos hy hypos).le]
    exact hquotient.trans_lt ((hround.isFinite_iff (quotient_pos hx hpos).le).mp hrate)
  refine ⟨hypos, hfinite, ?_⟩
  rw [hround.value_eq hrate, hround'.value_eq hfinite]
  exact nearest_mono hquotient

end Positive

/-- **Which durations have no infinite rate**: those that are not too short. -/
theorem rate?_isFinite_iff (x : Float) :
    (∀ rate, (ofMillis x).rate? = some rate → rate.isFinite = true ∧ 0 < rate) ↔ ¬TooShort x := by
  constructor
  · intro hall hshort
    have hrate := rate?_of_pos hshort.1 hshort.2.1
    exact (isFinite_rate_iff hshort.1 hshort.2.1).mp (hall _ hrate).1 hshort
  · intro hshort rate hrate
    rcases rate?_cases x with ⟨hx, hpos, -⟩ | hnone
    · obtain rfl := rate_eq hx hpos hrate
      have hfinite := (isFinite_rate_iff hx hpos).mpr hshort
      exact ⟨hfinite, (pos_iff_value_pos hfinite).mpr (value_rate_pos hx hpos hfinite)⟩
    · rw [hnone] at hrate
      cases hrate

end FramePacing.Duration
