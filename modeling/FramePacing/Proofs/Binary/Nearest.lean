import Mathlib.Data.Int.Log
import Mathlib.Data.Rat.Floor
import Mathlib.Data.Sign.Basic
import Mathlib.Tactic.Linarith
import Mathlib.Tactic.Ring

/-!
# Rounding a rational number to a float

`roundEven` takes a rational number to the nearest integer, a tie to the even one, and `nearest` to
the nearest number that has at most 53 binary digits and none below the place `-1074`.  This is what
the result of a float operation is, unless it is too large: the operations are compared with
`nearest` in `FramePacing.Proofs.Binary.Arithmetic`.

* `nearest_mono` — rounding respects the order.
* `nearest_dyadic` — a number that needs no rounding is left alone.
-/

namespace FramePacing.Binary

/-! ## To an integer -/

/-- The nearest integer, the even one of two. -/
def roundEven (q : ℚ) : ℤ :=
  if q - ⌊q⌋ < 1 / 2 then ⌊q⌋ else if 1 / 2 < q - ⌊q⌋ then ⌊q⌋ + 1 else ⌊q⌋ + ⌊q⌋ % 2

lemma roundEven_intCast (n : ℤ) : roundEven n = n := by
  simp [roundEven]

lemma floor_le_roundEven (q : ℚ) : ⌊q⌋ ≤ roundEven q := by
  simp only [roundEven]
  split_ifs <;> omega

lemma roundEven_le_floor_add_one (q : ℚ) : roundEven q ≤ ⌊q⌋ + 1 := by
  simp only [roundEven]
  split_ifs <;> omega

lemma roundEven_mono {p q : ℚ} (h : p ≤ q) : roundEven p ≤ roundEven q := by
  rcases (Int.floor_le_floor h).lt_or_eq with hlt | heq
  · exact (roundEven_le_floor_add_one p).trans
      ((Int.add_one_le_iff.mpr hlt).trans (floor_le_roundEven q))
  · simp only [roundEven]
    rw [heq]
    split_ifs <;> first | omega | linarith

/-! ## To 53 binary digits

Of a positive number the digits from the first one down to `lastPlace` are kept.
-/

/-- The place of the last binary digit that is kept of a positive number. -/
def lastPlace (q : ℚ) : ℤ := max (Int.log 2 q - 52) (-1074)

/-- A positive number rounded at its last place. -/
def roundPos (q : ℚ) : ℚ := roundEven (q / 2 ^ lastPlace q) * 2 ^ lastPlace q

lemma zpow_two_pos (e : ℤ) : (0 : ℚ) < 2 ^ e := zpow_pos two_pos e

/-- A whole number of last places is a bound that rounding keeps. -/
lemma roundPos_le {q : ℚ} (n : ℤ) (h : q ≤ n * 2 ^ lastPlace q) :
    roundPos q ≤ n * 2 ^ lastPlace q := by
  have hpos := zpow_two_pos (lastPlace q)
  have hround : roundEven (q / 2 ^ lastPlace q) ≤ n := by
    rw [← roundEven_intCast n]
    exact roundEven_mono ((div_le_iff₀ hpos).mpr h)
  exact mul_le_mul_of_nonneg_right (by exact_mod_cast hround) hpos.le

lemma le_roundPos {q : ℚ} (n : ℤ) (h : n * 2 ^ lastPlace q ≤ q) :
    n * 2 ^ lastPlace q ≤ roundPos q := by
  have hpos := zpow_two_pos (lastPlace q)
  have hround : n ≤ roundEven (q / 2 ^ lastPlace q) := by
    rw [← roundEven_intCast n]
    exact roundEven_mono ((le_div_iff₀ hpos).mpr h)
  exact mul_le_mul_of_nonneg_right (by exact_mod_cast hround) hpos.le

lemma roundPos_nonneg {q : ℚ} (h : 0 ≤ q) : 0 ≤ roundPos q := by
  simpa using le_roundPos (q := q) 0 (by simpa using h)

/-- Anything that ends at or above a place is a whole number of that place. -/
lemma mul_zpow_two_eq (n : ℤ) {place e : ℤ} (h : place ≤ e) :
    (n : ℚ) * 2 ^ e = ((n * 2 ^ (e - place).toNat : ℤ) : ℚ) * 2 ^ place := by
  have hsplit : (2 : ℚ) ^ e = 2 ^ (e - place).toNat * 2 ^ place := by
    rw [← zpow_natCast, ← zpow_add₀ two_ne_zero]
    congr 1
    omega
  rw [hsplit]
  push_cast
  ring

lemma roundPos_le_zpow_two {q : ℚ} {e : ℤ} (hplace : lastPlace q ≤ e) (h : q ≤ 2 ^ e) :
    roundPos q ≤ 2 ^ e := by
  have heq := mul_zpow_two_eq 1 hplace
  rw [Int.cast_one, one_mul] at heq
  rw [heq] at h ⊢
  exact roundPos_le _ h

lemma zpow_two_le_roundPos {q : ℚ} {e : ℤ} (hplace : lastPlace q ≤ e) (h : 2 ^ e ≤ q) :
    2 ^ e ≤ roundPos q := by
  have heq := mul_zpow_two_eq 1 hplace
  rw [Int.cast_one, one_mul] at heq
  rw [heq] at h ⊢
  exact le_roundPos _ h

lemma roundPos_mono {p q : ℚ} (hp : 0 < p) (h : p ≤ q) : roundPos p ≤ roundPos q := by
  have hq : 0 < q := hp.trans_le h
  have hlog : Int.log 2 p ≤ Int.log 2 q := Int.log_mono_right hp h
  rcases eq_or_ne (lastPlace p) (lastPlace q) with heq | hne
  · have hpos := zpow_two_pos (lastPlace q)
    simp only [roundPos]
    rw [heq]
    refine mul_le_mul_of_nonneg_right ?_ hpos.le
    exact_mod_cast roundEven_mono ((div_le_div_iff_of_pos_right hpos).mpr h)
  · -- Between them lies the power of two from which on one digit less is kept.
    have hplaces : lastPlace p ≤ Int.log 2 q ∧ lastPlace q ≤ Int.log 2 q
        ∧ Int.log 2 p < Int.log 2 q := by
      simp only [lastPlace] at hne ⊢
      omega
    obtain ⟨hplace, hplace', hlt⟩ := hplaces
    have hle : p ≤ 2 ^ Int.log 2 q := by
      simpa using ((Int.lt_zpow_iff_log_lt Nat.one_lt_two hp).mpr hlt).le
    have hge : 2 ^ Int.log 2 q ≤ q := by
      simpa using Int.zpow_log_le_self Nat.one_lt_two hq
    exact (roundPos_le_zpow_two hplace hle).trans (zpow_two_le_roundPos hplace' hge)

/-- Rounding leaves a number alone that ends at or above its last place. -/
lemma roundPos_of_lastPlace_le (n : ℤ) {k : ℤ} (h : lastPlace (n * 2 ^ k) ≤ k) :
    roundPos (n * 2 ^ k) = n * 2 ^ k := by
  have heq := mul_zpow_two_eq n h
  refine le_antisymm ?_ ?_
  · exact (roundPos_le _ heq.le).trans heq.ge
  · exact heq.le.trans (le_roundPos _ heq.ge)

lemma lastPlace_le {q : ℚ} (hq : 0 < q) {k : ℤ} (hk : -1074 ≤ k) (h : q < 2 ^ (k + 53)) :
    lastPlace q ≤ k := by
  have hlog : Int.log 2 q < k + 53 :=
    (Int.lt_zpow_iff_log_lt Nat.one_lt_two hq).mp (by simpa using h)
  simp only [lastPlace]
  omega

lemma roundPos_dyadic {n : ℕ} (hpos : 0 < n) (hn : n ≤ 2 ^ 53) {k : ℤ} (hk : -1074 ≤ k) :
    roundPos (n * 2 ^ k) = n * 2 ^ k := by
  have hq : (0 : ℚ) < n * 2 ^ k := mul_pos (by exact_mod_cast hpos) (zpow_two_pos k)
  have hsplit : (2 : ℚ) ^ (k + 53) = 2 ^ 53 * 2 ^ k := by
    rw [zpow_add₀ two_ne_zero, mul_comm]
    norm_num
  rcases hn.lt_or_eq with hlt | rfl
  · refine roundPos_of_lastPlace_le n (lastPlace_le hq hk ?_)
    rw [hsplit]
    exact mul_lt_mul_of_pos_right (by exact_mod_cast hlt) (zpow_two_pos k)
  · -- The first number of 54 digits ends in a zero.
    have heq : ((2 ^ 53 : ℕ) : ℚ) * 2 ^ k = (1 : ℤ) * 2 ^ (k + 53) := by
      rw [hsplit]
      norm_num
    rw [heq]
    refine roundPos_of_lastPlace_le 1 ((lastPlace_le ?_ (k := k + 1) (by omega) ?_).trans ?_)
    · exact heq ▸ hq
    · rw [Int.cast_one, one_mul]
      exact zpow_lt_zpow_right₀ one_lt_two (by omega)
    · omega

/-! ## To a float -/

/-- The nearest number with 53 binary digits and none below the place `-1074`. -/
def nearest (q : ℚ) : ℚ := SignType.sign q * roundPos |q|

@[simp] lemma nearest_zero : nearest 0 = 0 := by simp [nearest]

lemma nearest_of_pos {q : ℚ} (h : 0 < q) : nearest q = roundPos q := by
  simp [nearest, sign_pos h, abs_of_pos h]

lemma nearest_neg (q : ℚ) : nearest (-q) = -nearest q := by
  simp [nearest, Left.sign_neg]

lemma nearest_nonneg {q : ℚ} (h : 0 ≤ q) : 0 ≤ nearest q := by
  rcases h.eq_or_lt with rfl | hpos
  · rw [nearest_zero]
  · rw [nearest_of_pos hpos]
    exact roundPos_nonneg h

/-- **Rounding respects the order.** -/
theorem nearest_mono {p q : ℚ} (h : p ≤ q) : nearest p ≤ nearest q := by
  rcases lt_trichotomy p 0 with hp | rfl | hp
  · rcases lt_or_ge q 0 with hq | hq
    · have hle := roundPos_mono (neg_pos.mpr hq) (neg_le_neg h)
      rw [← nearest_of_pos (neg_pos.mpr hq), ← nearest_of_pos (neg_pos.mpr hp), nearest_neg,
        nearest_neg] at hle
      exact neg_le_neg_iff.mp hle
    · have hle := nearest_nonneg (neg_nonneg.mpr hp.le)
      rw [nearest_neg] at hle
      exact (neg_nonneg.mp hle).trans (nearest_nonneg hq)
  · rw [nearest_zero]
    exact nearest_nonneg h
  · rw [nearest_of_pos hp, nearest_of_pos (hp.trans_le h)]
    exact roundPos_mono hp h

/-- **Numbers of 53 binary digits stay as they are**, if none is below the place `-1074`. -/
theorem nearest_dyadic (n : ℤ) {k : ℤ} (hn : |n| ≤ 2 ^ 53) (hk : -1074 ≤ k) :
    nearest (n * 2 ^ k) = n * 2 ^ k := by
  obtain ⟨m, rfl | rfl⟩ := n.eq_nat_or_neg
  all_goals rcases m.eq_zero_or_pos with rfl | hm
  · simp
  · rw [Int.abs_natCast] at hn
    rw [Int.cast_natCast, nearest_of_pos (mul_pos (by exact_mod_cast hm) (zpow_two_pos k))]
    exact roundPos_dyadic hm (by exact_mod_cast hn) hk
  · simp
  · rw [abs_neg, Int.abs_natCast] at hn
    rw [Int.cast_neg, Int.cast_natCast, neg_mul, nearest_neg,
      nearest_of_pos (mul_pos (by exact_mod_cast hm) (zpow_two_pos k)),
      roundPos_dyadic hm (by exact_mod_cast hn) hk]

end FramePacing.Binary
