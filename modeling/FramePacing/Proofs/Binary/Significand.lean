import FramePacing.Proofs.Binary.Nearest
import Mathlib.Data.Nat.Log
import Mathlib.Tactic.NormNum

/-!
# How core's float model rounds

The model behind `Float` rounds a number by shifting its significand to the right and keeping two
bits about what was shifted out.  Here this procedure is given its meaning: it computes `roundPos`.

* `Reads` — a significand with its two bits tells enough of a number to round it.
* `canonical_roundWithAccuracy`, `canonical_round` — the result of rounding is `roundPos` of the
  exact number, in the one form in which a number is stored.
-/

namespace FramePacing.Binary

open Float.Model Float.Model.UnpackedFloat

/-! ## What is shifted out -/

/-- `a` tells where the part `rest` of a unit lies that was cut off. -/
def Leaves : (a : Accuracy) → (rest : ℚ) → Prop
  | .exact, rest => rest = 0
  | .inexact .lt, rest => 0 < rest ∧ rest < 1 / 2
  | .inexact .eq, rest => rest = 1 / 2
  | .inexact .gt, rest => 1 / 2 < rest ∧ rest < 1

/-- `em` is the whole part of `q`, with the truth about the rest. -/
def Reads (em : ExtendedMantissa) (q : ℚ) : Prop := Leaves em.accuracy (q - em.mantissa)

lemma Leaves.nonneg_and_lt_one {a : Accuracy} {rest : ℚ} (h : Leaves a rest) :
    0 ≤ rest ∧ rest < 1 := by
  rcases a with _ | o
  · rw [Leaves] at h
    constructor <;> linarith
  · cases o <;> simp only [Leaves] at h <;> constructor <;> linarith

/-- Rounding needs no more of a number than its whole part and this. -/
lemma roundToNearestEven_eq {a : Accuracy} {m : ℕ} {q : ℚ} (h : Leaves a (q - m)) :
    (a.roundToNearestEven m : ℤ) = roundEven q := by
  have hfloor : ⌊q⌋ = m := by
    have hrest := h.nonneg_and_lt_one
    rw [Int.floor_eq_iff, Int.cast_natCast]
    constructor <;> linarith
  simp only [roundEven]
  rw [hfloor, Int.cast_natCast]
  rcases a with _ | o
  · rw [Leaves] at h
    rw [h, if_pos (by norm_num)]
    rfl
  · cases o with
    | lt => rw [if_pos h.2]; rfl
    | eq =>
      rw [Leaves] at h
      rw [h, if_neg (by norm_num), if_neg (by norm_num)]
      rfl
    | gt => rw [if_neg (not_lt.mpr h.1.le), if_pos h.1]; rfl

lemma reads_ofMantissaAndAccuracy {m : ℕ} {a : Accuracy} {q : ℚ} (h : Leaves a (q - m)) :
    Reads (.ofMantissaAndAccuracy m a) q := by
  rcases a with _ | o
  · exact h
  · cases o <;> exact h

lemma Reads.shiftRightOne {em : ExtendedMantissa} {q : ℚ} (h : Reads em q) :
    Reads em.shiftRightOne (q / 2) := by
  obtain ⟨m, roundBit, stickyBit⟩ := em
  have hsplit : (m : ℚ) = 2 * (m / 2 : ℕ) + (m % 2 : ℕ) := by
    exact_mod_cast (Nat.div_add_mod m 2).symm
  rcases Nat.mod_two_eq_zero_or_one m with hbit | hbit
  all_goals
    rw [hbit] at hsplit
    cases roundBit <;> cases stickyBit <;>
      simp [Reads, Leaves, ExtendedMantissa.accuracy, ExtendedMantissa.shiftRightOne, hbit]
        at h ⊢ <;>
      first | linarith | (constructor <;> linarith)

lemma Reads.shiftRight {em : ExtendedMantissa} {q : ℚ} (h : Reads em q) (n : ℕ) :
    Reads (em >>> n) (q / 2 ^ n) := by
  induction n with
  | zero =>
    rw [pow_zero, div_one]
    exact h
  | succ n ih =>
    rw [pow_succ, ← div_div]
    exact ih.shiftRightOne

lemma Reads.roundedMantissa_eq {em : ExtendedMantissa} {q : ℚ} (h : Reads em q) :
    (em.roundedMantissa : ℤ) = roundEven q := roundToNearestEven_eq h

/-! ## The last place -/

lemma targetExponent_eq (t : ℤ) :
    Format.binary64.targetExponent t = max (t - 53) (-1074) :=
  rfl

lemma log_eq_of_mul_le {m : ℕ} (hm : 0 < m) {e : ℤ} {q : ℚ} (hlow : m * 2 ^ e ≤ q)
    (hhigh : q < (m + 1) * 2 ^ e) : Int.log 2 q = m.log2 + e := by
  have hpos := zpow_two_pos e
  have hq : 0 < q := (mul_pos (by exact_mod_cast hm) hpos).trans_le hlow
  have hle : ((2 : ℕ) : ℚ) ^ ((m.log2 : ℤ) + e) ≤ q := by
    have hself : ((2 : ℕ) : ℚ) ^ m.log2 ≤ m := by exact_mod_cast Nat.log2_self_le hm.ne'
    rw [zpow_add₀ (by norm_num), zpow_natCast]
    exact (mul_le_mul_of_nonneg_right hself hpos.le).trans hlow
  have hlt : q < ((2 : ℕ) : ℚ) ^ ((m.log2 : ℤ) + e + 1) := by
    have hself : (m : ℚ) + 1 ≤ ((2 : ℕ) : ℚ) ^ (m.log2 + 1) := by exact_mod_cast Nat.lt_log2_self
    rw [show (m.log2 : ℤ) + e + 1 = ((m.log2 + 1 : ℕ) : ℤ) + e by push_cast; ring,
      zpow_add₀ (by norm_num), zpow_natCast]
    exact hhigh.trans_le (mul_le_mul_of_nonneg_right hself hpos.le)
  refine le_antisymm ?_ ((Int.zpow_le_iff_le_log Nat.one_lt_two hq).mp hle)
  exact Int.lt_add_one_iff.mp ((Int.lt_zpow_iff_log_lt Nat.one_lt_two hq).mp hlt)

/-- From the whole part of a number the last place is found, if the whole part has enough digits. -/
lemma targetExponent_totalExponent {m : ℕ} {e : ℤ} {q : ℚ} (hq : 0 < q) (hlow : m * 2 ^ e ≤ q)
    (hhigh : q < (m + 1) * 2 ^ e) (he : e ≤ lastPlace q) :
    Format.binary64.targetExponent (totalExponent m e) = lastPlace q := by
  rw [targetExponent_eq, totalExponent]
  rcases m.eq_zero_or_pos with rfl | hm
  · have hlog : Int.log 2 q < e := by
      rw [Nat.cast_zero, zero_add, one_mul] at hhigh
      exact (Int.lt_zpow_iff_log_lt Nat.one_lt_two hq).mp (by simpa using hhigh)
    simp only [lastPlace] at he ⊢
    simp only [Nat.log2_zero]
    omega
  · simp only [lastPlace]
    rw [log_eq_of_mul_le hm hlow hhigh]
    omega

lemma lt_of_lastPlace {q : ℚ} : q < (2 ^ 53 : ℤ) * 2 ^ lastPlace q := by
  have hlt : q < ((2 : ℕ) : ℚ) ^ (Int.log 2 q + 1) := Int.lt_zpow_succ_log_self Nat.one_lt_two q
  have hle : ((2 : ℕ) : ℚ) ^ (Int.log 2 q + 1) ≤ 2 ^ (53 + lastPlace q) := by
    rw [Nat.cast_ofNat]
    exact zpow_le_zpow_right₀ one_le_two (by simp only [lastPlace]; omega)
  rw [zpow_add₀ two_ne_zero] at hle
  exact_mod_cast hlt.trans_le hle

lemma le_of_lastPlace {q : ℚ} (hq : 0 < q) (h : lastPlace q ≠ -1074) :
    (2 ^ 52 : ℤ) * 2 ^ lastPlace q ≤ q := by
  have hlog : Int.log 2 q = 52 + lastPlace q := by
    simp only [lastPlace] at h ⊢
    omega
  have hle : ((2 : ℕ) : ℚ) ^ Int.log 2 q ≤ q := Int.zpow_log_le_self Nat.one_lt_two hq
  rw [hlog, Nat.cast_ofNat, zpow_add₀ two_ne_zero] at hle
  exact_mod_cast hle

/-! ## Rounding -/

/-- `u` is the number of sign `s` and magnitude `q` in the one form in which it is stored: with all
53 digits, or with its last digit at the place `-1074`. -/
inductive Canonical (s : Sign) : (q : ℚ) → (u : UnpackedFloat) → Prop where
  | zero : Canonical s 0 (.zero s)
  | finite {m : ℕ} {e : ℤ} (hpos : 0 < m) (hlt : m < 2 ^ 53) (hmin : -1074 ≤ e)
      (hfull : 2 ^ 52 ≤ m ∨ e = -1074) : Canonical s (m * 2 ^ e) (.finite s m e hpos)

section Round

variable {m : ℕ} {e : ℤ} {a : Accuracy} {q : ℚ}

/-- The first shift ends at the last place. -/
lemma shiftToTargetExponent_eq (hq : 0 < q) (hrest : Leaves a (q / 2 ^ e - m))
    (he : e ≤ lastPlace q) : ∃ em, shiftToTargetExponent Format.binary64 m e a = (em, lastPlace q)
      ∧ Reads em (q / 2 ^ lastPlace q) := by
  have hpos := zpow_two_pos e
  obtain ⟨hlow, hhigh⟩ := hrest.nonneg_and_lt_one
  have htarget := targetExponent_totalExponent (m := m) hq
    ((le_div_iff₀ hpos).mp (by linarith)) ((div_lt_iff₀ hpos).mp (by linarith)) he
  have hplace : e + ((lastPlace q - e).toNat : ℤ) = lastPlace q := by omega
  have hread := (reads_ofMantissaAndAccuracy hrest).shiftRight (lastPlace q - e).toNat
  rw [div_div, ← zpow_natCast, ← zpow_add₀ two_ne_zero, hplace] at hread
  refine ⟨_, ?_, hread⟩
  rw [shiftToTargetExponent, htarget, shiftToExponent, hplace]

/-- The second shift finds nothing to do, … -/
lemma shiftToTargetExponent_of_lt (hm : m < 2 ^ 53) (he : -1074 ≤ e) :
    shiftToTargetExponent Format.binary64 m e .exact = (⟨m, false, false⟩, e) := by
  have hlog : m.log2 < 53 := by
    rcases m.eq_zero_or_pos with rfl | hpos
    · decide
    · exact (Nat.log2_lt hpos.ne').mpr hm
  have hshift : (Format.binary64.targetExponent (totalExponent m e) - e).toNat = 0 := by
    rw [targetExponent_eq, totalExponent]
    omega
  rw [shiftToTargetExponent, shiftToExponent, hshift]
  simp [ExtendedMantissa.ofMantissaAndAccuracy, HShiftRight.hShiftRight, Nat.repeat]

/-- … unless rounding has carried into a 54th digit. -/
lemma shiftToTargetExponent_carry (he : -1074 ≤ e) :
    shiftToTargetExponent Format.binary64 (2 ^ 53) e .exact
      = (⟨2 ^ 52, false, false⟩, e + 1) := by
  have hshift : (Format.binary64.targetExponent (totalExponent (2 ^ 53) e) - e).toNat = 1 := by
    rw [targetExponent_eq, totalExponent, Nat.log2_two_pow]
    omega
  rw [shiftToTargetExponent, shiftToExponent, hshift]
  rfl

/-- What is rounded at the last place has 53 digits then, or one more if it is a power of two. -/
lemma Reads.roundedMantissa_bounds {em : ExtendedMantissa} (hq : 0 < q)
    (h : Reads em (q / 2 ^ lastPlace q)) :
    roundPos q = em.roundedMantissa * 2 ^ lastPlace q ∧ em.roundedMantissa ≤ 2 ^ 53
      ∧ (2 ^ 52 ≤ em.roundedMantissa ∨ lastPlace q = -1074) := by
  have hpos := zpow_two_pos (lastPlace q)
  have hround : roundPos q = em.roundedMantissa * 2 ^ lastPlace q := by
    rw [roundPos, ← h.roundedMantissa_eq, Int.cast_natCast]
  refine ⟨hround, ?_, or_iff_not_imp_right.mpr fun hplace => ?_⟩
  · have hbound := roundPos_le _ (lt_of_lastPlace (q := q)).le
    rw [hround] at hbound
    exact_mod_cast le_of_mul_le_mul_right hbound hpos
  · have hbound := le_roundPos _ (le_of_lastPlace hq hplace)
    rw [hround] at hbound
    exact_mod_cast le_of_mul_le_mul_right hbound hpos

/-- **Rounding is `roundPos`**, whatever the number of digits that it starts from. -/
theorem canonical_roundWithAccuracy (s : Sign) (hq : 0 < q) (hrest : Leaves a (q / 2 ^ e - m))
    (he : e ≤ lastPlace q) :
    Canonical s (roundPos q) (roundWithAccuracy Format.binary64 s m e a) := by
  have hmin : -1074 ≤ lastPlace q := le_max_right _ _
  obtain ⟨em, hshift, hread⟩ := shiftToTargetExponent_eq hq hrest he
  obtain ⟨hround, hle, hfull⟩ := hread.roundedMantissa_bounds hq
  rw [roundWithAccuracy, hshift, hround]
  dsimp only
  generalize em.roundedMantissa = r at hle hfull
  rcases hle.lt_or_eq with hlt | rfl
  · rw [shiftToTargetExponent_of_lt hlt hmin]
    dsimp only
    by_cases hzero : r = 0
    · rw [dif_pos hzero, hzero, Nat.cast_zero, zero_mul]
      exact .zero
    · rw [dif_neg hzero]
      exact .finite _ hlt hmin hfull
  · rw [shiftToTargetExponent_carry hmin]
    have heq : ((2 ^ 53 : ℕ) : ℚ) * 2 ^ lastPlace q
        = ((2 ^ 52 : ℕ) : ℚ) * 2 ^ (lastPlace q + 1) := by
      rw [zpow_add_one₀ two_ne_zero]
      push_cast
      ring
    rw [heq]
    exact .finite (by norm_num) (by norm_num) (by omega) (Or.inl le_rfl)

end Round

lemma decreaseExponent_value (m : ℕ) (e t : ℤ) :
    ((decreaseExponent m e t).1 : ℚ) * 2 ^ (decreaseExponent m e t).2 = m * 2 ^ e := by
  simp only [decreaseExponent]
  rw [Nat.shiftLeft_eq, Nat.cast_mul, mul_assoc, Nat.cast_pow, Nat.cast_ofNat, ← zpow_natCast,
    ← zpow_add₀ two_ne_zero]
  congr 2
  omega

theorem canonical_round (s : Sign) {m : ℕ} (hm : 0 < m) (e : ℤ) :
    Canonical s (roundPos (m * 2 ^ e)) (UnpackedFloat.round Format.binary64 s m e) := by
  have hpos := zpow_two_pos e
  have hq : (0 : ℚ) < m * 2 ^ e := mul_pos (by exact_mod_cast hm) hpos
  have hplace : Format.binary64.targetExponent (totalExponent m e) = lastPlace (m * 2 ^ e) := by
    have hlog := log_eq_of_mul_le hm le_rfl (mul_lt_mul_of_pos_right (lt_add_one (m : ℚ)) hpos)
    rw [targetExponent_eq, totalExponent, lastPlace, hlog]
    omega
  have hvalue := decreaseExponent_value m e (lastPlace (m * 2 ^ e))
  have hle : (decreaseExponent m e (lastPlace (m * 2 ^ e))).2 ≤ lastPlace (m * 2 ^ e) := by
    simp only [decreaseExponent]
    omega
  have hround : UnpackedFloat.round Format.binary64 s m e
      = roundWithAccuracy Format.binary64 s (decreaseExponent m e (lastPlace (m * 2 ^ e))).1
          (decreaseExponent m e (lastPlace (m * 2 ^ e))).2 .exact := by
    rw [UnpackedFloat.round, hplace]
  rw [hround]
  generalize decreaseExponent m e (lastPlace (m * 2 ^ e)) = d at hvalue hle
  refine canonical_roundWithAccuracy s hq ?_ hle
  rw [← hvalue, mul_div_cancel_right₀ _ (zpow_two_pos d.2).ne']
  exact sub_self _

end FramePacing.Binary
