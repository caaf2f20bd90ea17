import FramePacing.Proofs.Decimal.Shortest
import FramePacing.Proofs.Duration.Proper
import FramePacing.Proofs.Json.Digits

/-!
# The shortest digits, read again

The reader of numbers does not ask which float has the digits it finds: it scales one float by
another, and each of the two is rounded, and the result is rounded again.  A number with a very
small power of ten is scaled twice.  So the float that is read may be another one than that which
was written.  The distance is a matter of adding up: each rounding but the last costs a fixed part
of the number, which is less than a unit of the float, the last one costs a unit at most, and the
shortest digits were half a unit away already.

The bound is of no use at the ends of the range, where five units up are too large for a float and
five units down leave nothing.  There are eight floats of this kind, and for these the reader is
run.

* `reread?_close` — the digits of a float are read as a float less than five units away.
* `reread?_exact` — they are read as the same float if no power and no significand needs rounding.
* `writtenDigits_of_whole` — the digits of a whole number.
-/

namespace FramePacing.Json

open Binary Decimal

/-! ## The tests of the reader -/

section Tests

variable {x : Float}

lemma isInf_eq_false (h : x.isFinite = true) : x.isInf = false := by
  change x.toModel.unpack.isFinite = true at h
  show x.toModel.unpack.isInf = false
  generalize x.toModel.unpack = u at h
  cases u <;> first | rfl | cases h

lemma beq_zero_eq_false (h : x.isFinite = true) (hpos : 0 < value x) : (x == 0) = false :=
  beq_eq_false_of_lt (by decide) ((Duration.pos_iff_value_pos h).mpr hpos)

end Tests

/-! ## Scaling -/

section Scaling

variable {q d : ℚ} {k : ℕ}

/-- How far an exact number `q` may be off the number `d` that was written: by two half units and a
little for the floats that it is made of, by another one for a quotient that was rounded on the way,
and by what a subnormal quotient loses, a tenth of which is left at most. -/
def Off (q d : ℚ) : Prop := |q - d| ≤ 13 / 4 * halfUnit * d + least / 20

lemma off_of_close (h : Close (17 / 8 * halfUnit) q d) (hd : 0 ≤ d) : Off q d := by
  have hpart := mul_nonneg halfUnit_pos.le hd
  have := least_pos
  exact h.trans (by linarith)

/-- Dividing once more, by a power of ten that is exact, and with a quotient that was rounded. -/
lemma off_div (h : Close (17 / 8 * halfUnit) q d) (hd : 0 < d) (hk : 0 < k) :
    Off (nearest q / 10 ^ k) (d / 10 ^ k) := by
  have hpos := halfUnit_pos
  have hle := halfUnit_le
  have hten : (10 : ℚ) ≤ 10 ^ k := by
    simpa using pow_le_pow_right₀ (show (1 : ℚ) ≤ 10 by norm_num) hk
  have hpow : (0 : ℚ) < 10 ^ k := by linarith
  have hq : 0 < q := h.pos (by linarith) hd
  have hnear : |nearest q - q| ≤ 9 / 8 * halfUnit * d + least / 2 := by
    refine (abs_nearest_sub_le_max hq).trans (max_le ?_ ?_)
    · have hhigh := mul_le_mul_of_nonneg_left h.bounds.2 hpos.le
      have hpart := mul_le_mul_of_nonneg_right hle (mul_pos hpos hd).le
      linarith [mul_pos hpos hd, least_pos]
    · linarith [mul_pos hpos hd]
  have hsum : |nearest q - d| ≤ 13 / 4 * halfUnit * d + least / 2 := by
    have := abs_sub_le (nearest q) q d
    have hclose : |q - d| ≤ _ := h
    linarith
  rw [Off, ← sub_div, abs_div, abs_of_pos hpow, div_le_iff₀ hpow, add_mul, mul_assoc _ (d / _),
    div_mul_cancel₀ _ hpow.ne']
  have := mul_le_mul_of_nonneg_left hten least_pos.le
  linarith

variable {c : ℕ} {e : ℤ}

lemma shrink_of_gt {x : Float} {n : ℕ} (h : (x == 0) = false) (hn : 308 < n) :
    shrink x n = shrink (x / powerOfTen 308) (n - 308) := by
  rw [shrink, if_neg (by omega), h, if_neg Bool.false_ne_true]

lemma shrink_of_le {x : Float} {n : ℕ} (hn : n ≤ 308) : shrink x n = x / powerOfTen n := by
  rw [shrink, if_pos hn]

lemma scale?_of_nonneg (hfinite : (nearestFloat c).isFinite = true)
    (hpos : 0 < value (nearestFloat c)) (hk : k ≤ 308)
    (hproduct : (nearestFloat c * powerOfTen k).isFinite = true) :
    scale? c k = some (nearestFloat c * powerOfTen k) := by
  rw [scale?, if_neg (by omega), beq_zero_eq_false hfinite hpos, if_neg Bool.false_ne_true,
    if_pos (by omega), Int.toNat_natCast]
  dsimp only
  rw [isInf_eq_false hproduct]
  rfl

lemma scale?_of_neg (hk : 0 < k) : scale? c (-k) = some (shrink (nearestFloat c) k) := by
  rw [scale?, if_pos (by omega), Int.natAbs_neg, Int.natAbs_natCast]

/-- Up to `10 ^ 308` there is one multiplication, -/
lemma exists_off_of_nonneg (hpos : 0 < c) (hc : c ≤ significandLimit) (hk : k ≤ 308) :
    ∃ q y, Off q (c * 10 ^ k) ∧ RoundsTo q y ∧ (y.isFinite = true → scale? c k = some y) := by
  obtain ⟨hfinite, hS⟩ := close_nearestFloat hpos (hc.trans (by decide))
  obtain ⟨hfinite', hP⟩ := close_powerOfTen hk
  have hcQ : (0 : ℚ) < c := by exact_mod_cast hpos
  have hten : (0 : ℚ) < 10 ^ k := pow_pos (by norm_num) k
  have hSpos := hS.pos (by linarith [halfUnit_le]) hcQ
  exact ⟨_, _, off_of_close (close_mul hS hP hcQ hten) (mul_pos hcQ hten).le,
    roundsTo_mul hfinite hfinite', scale?_of_nonneg hfinite hSpos hk⟩

/-- down to its inverse there is one division, -/
lemma exists_off_of_neg (hpos : 0 < c) (hc : c ≤ significandLimit) (hk : 0 < k) (hk' : k ≤ 308) :
    ∃ q y, Off q (c / 10 ^ k) ∧ RoundsTo q y ∧ scale? c (-k) = some y := by
  obtain ⟨hfinite, hS⟩ := close_nearestFloat hpos (hc.trans (by decide))
  obtain ⟨hfinite', hP⟩ := close_powerOfTen hk'
  have hcQ : (0 : ℚ) < c := by exact_mod_cast hpos
  have hten : (0 : ℚ) < 10 ^ k := pow_pos (by norm_num) k
  have hne := (hP.pos (by linarith [halfUnit_le]) hten).ne'
  refine ⟨_, _, off_of_close (close_div hS hP hcQ hten) (div_pos hcQ hten).le,
    roundsTo_div hfinite hfinite' hne, ?_⟩
  rw [scale?_of_neg hk, shrink_of_le hk']

/-- and below that there are two. -/
lemma exists_off_of_small (hpos : 0 < c) (hc : c ≤ significandLimit) (hk : 0 < k) (hk' : k ≤ 22) :
    ∃ q y, Off q (c / 10 ^ (308 + k)) ∧ RoundsTo q y ∧ scale? c (-(308 + k : ℕ)) = some y := by
  obtain ⟨hfinite, hS⟩ := close_nearestFloat hpos (hc.trans (by decide))
  obtain ⟨hfinite', hP⟩ := close_powerOfTen (n := 308) le_rfl
  obtain ⟨hfinite'', hvalue''⟩ := value_powerOfTen hk'
  have hcQ : (0 : ℚ) < c := by exact_mod_cast hpos
  have hten : (0 : ℚ) < 10 ^ 308 := pow_pos (by norm_num) 308
  have hSpos := hS.pos (by linarith [halfUnit_le]) hcQ
  have hPpos := hP.pos (by linarith [halfUnit_le]) hten
  have hquotient := close_div hS hP hcQ hten
  -- the first quotient is far from overflow
  have hbound : |value (nearestFloat c) / value (powerOfTen 308)| ≤ 2 ^ 1023 := by
    have hone : 1 ≤ value (powerOfTen 308) := by
      have htwo : (2 : ℚ) ≤ 10 ^ 308 :=
        (by norm_num : (2 : ℚ) ≤ 10).trans (le_self_pow₀ (by norm_num) (by norm_num))
      generalize (10 : ℚ) ^ 308 = most at htwo hP
      linarith [hP.bounds.1, mul_le_mul_of_nonneg_right halfUnit_le (zero_le_two.trans htwo)]
    rw [abs_of_pos (div_pos hSpos hPpos)]
    calc value (nearestFloat c) / value (powerOfTen 308) ≤ value (nearestFloat c) :=
          div_le_self hSpos.le hone
      _ ≤ 2 * c := by linarith [hS.bounds.2, mul_le_mul_of_nonneg_right halfUnit_le hcQ.le]
      _ ≤ 2 * 2 ^ 64 := by
        have : (c : ℚ) ≤ 2 ^ 64 := by exact_mod_cast hc.trans (by decide)
        linarith
      _ = 2 ^ 65 := by norm_num
      _ ≤ 2 ^ 1023 := pow_le_pow_right₀ one_le_two (by norm_num)
  obtain ⟨hfirst, hvalue⟩ := (roundsTo_div hfinite hfinite' hPpos.ne').of_abs_le hbound
  have hround := roundsTo_div hfirst hfinite'' (by rw [hvalue'']; positivity)
  rw [hvalue, hvalue''] at hround
  refine ⟨_, _, ?_, hround, ?_⟩
  · rw [pow_add, ← div_div]
    exact off_div hquotient (div_pos hcQ hten) hk
  · rw [scale?_of_neg (by omega), shrink_of_gt (beq_zero_eq_false hfinite hSpos) (by omega),
      Nat.add_sub_cancel_left, shrink_of_le (by omega)]

/-- **What scaling computes** is rounded from a number that is not far off what was written. -/
theorem exists_off (hpos : 0 < c) (hc : c ≤ significandLimit) (hmin : -324 ≤ e) (hmax : e ≤ 308) :
    ∃ q y, Off q (c * 10 ^ e) ∧ RoundsTo q y ∧ (y.isFinite = true → scale? c e = some y) := by
  rcases lt_or_ge e 0 with he | he
  · obtain ⟨k, rfl⟩ : ∃ k : ℕ, e = -k := ⟨e.natAbs, by omega⟩
    rw [zpow_neg, zpow_natCast, ← div_eq_mul_inv]
    rcases le_or_gt k 308 with hk | hk
    · obtain ⟨q, y, hq, hy, hscale⟩ := exists_off_of_neg hpos hc (by omega) hk
      exact ⟨q, y, hq, hy, fun _ => hscale⟩
    · obtain ⟨j, rfl⟩ := Nat.exists_eq_add_of_lt hk
      obtain ⟨q, y, hq, hy, hscale⟩ := exists_off_of_small hpos hc j.succ_pos (by omega)
      exact ⟨q, y, hq, hy, fun _ => hscale⟩
  · obtain ⟨k, rfl⟩ : ∃ k : ℕ, e = k := ⟨e.toNat, by omega⟩
    rw [zpow_natCast]
    exact exists_off_of_nonneg hpos hc (by omega)

end Scaling

/-! ## Back to the float -/

section Reread

variable {x : Magnitude} {q d : ℚ}

lemma halfUnit_mul_le (hhigh : d ≤ 2 ^ 53 * x.unit) : halfUnit * d ≤ x.unit := by
  have hone : halfUnit * 2 ^ 53 = 1 := by norm_num [halfUnit]
  calc halfUnit * d ≤ halfUnit * (2 ^ 53 * x.unit) :=
        mul_le_mul_of_nonneg_left hhigh halfUnit_pos.le
    _ = x.unit := by rw [← mul_assoc, hone, one_mul]

lemma least_le_unit (hx : x.Stored) : least ≤ x.unit :=
  zpow_le_zpow_right₀ one_le_two hx.min

/-- **Five units are enough** for all that is lost. -/
lemma abs_nearest_sub_value_lt (hx : x.Stored) (hlow : x.unit / 2 ≤ d) (hhigh : d ≤ 2 ^ 53 * x.unit)
    (hd : |d - x.value| ≤ x.unit / 2) (h : Off q d) : |nearest q - x.value| < 5 * x.unit := by
  have hpart := halfUnit_mul_le hhigh
  have hleast := least_le_unit hx
  have hunit := x.unit_pos
  have hoff : |q - d| ≤ 13 / 4 * halfUnit * d + least / 20 := h
  have hq : 0 < q := by
    have := mul_le_mul_of_nonneg_right halfUnit_le ((half_pos hunit).le.trans hlow)
    linarith [(abs_le.mp hoff).1]
  have hround : |nearest q - q| ≤ 11 / 10 * x.unit := by
    refine (abs_nearest_sub_le_max hq).trans (max_le ?_ (by linarith))
    have hle : q ≤ d + 33 / 10 * x.unit := by linarith [(abs_le.mp hoff).2]
    have := mul_le_mul_of_nonneg_left hle halfUnit_pos.le
    linarith [mul_le_mul_of_nonneg_right halfUnit_le hunit.le]
  have := abs_sub_le (nearest q) q d
  have := abs_sub_le (nearest q) d x.value
  linarith

lemma value_asWritten (d : Scaled) : (asWritten d).value = d.value := by
  rw [asWritten]
  split
  next h =>
    obtain ⟨n, hn⟩ := Int.eq_ofNat_of_zero_le h.2
    rw [Scaled.value, Scaled.value, hn, Int.toNat_natCast, zpow_natCast]
    push_cast
    rw [pow_succ, zpow_neg_one]
    ring
  next => rfl

/-- The digits that are written for a float, with their power of ten. -/
def writtenDigits (x : Magnitude) : Scaled := asWritten (x.shortest .toEven)

/-- The float that these are read as. -/
def reread? (x : Magnitude) : Option Float :=
  scale? (writtenDigits x).coefficient (writtenDigits x).exponent

/-- What is written is near the float, and all digits of it fit. -/
structure IsWritten (x : Magnitude) (d : Scaled) : Prop where
  pos : 0 < d.coefficient
  fits : d.coefficient ≤ significandLimit
  min : -324 ≤ d.exponent
  max : d.exponent ≤ 308
  near : |d.value - x.value| ≤ x.unit / 2
  low : x.unit / 2 ≤ d.value
  high : d.value ≤ 2 ^ 53 * x.unit
  nearest_eq : nearest d.value = x.value

lemma isWritten (hx : x.Stored) : IsWritten x (writtenDigits x) := by
  have hd := Magnitude.isShortest hx .toEven
  have hfits := asWritten_coefficient_le (d := x.shortest .toEven) (by
    have := hd.lt
    rw [significandLimit]
    omega)
  have hvalue := value_asWritten (x.shortest .toEven)
  obtain ⟨hlow, hhigh⟩ := Magnitude.bounds_of_readsBack hx.pos hd.readsBack
  have hnear := Magnitude.abs_sub_value_le hx.pos hd.readsBack
  have hnearest := Magnitude.nearest_of_readsBack hx hd.readsBack
  rw [← Scaled.value, ← hvalue, ← writtenDigits] at hlow hhigh hnear hnearest
  refine ⟨?_, hfits, ?_, ?_, hnear, ?_, ?_, hnearest⟩
  · rw [writtenDigits, asWritten]
    split
    · exact Nat.mul_pos hd.pos (Nat.pow_pos (by norm_num))
    · exact hd.pos
  · rw [writtenDigits, asWritten]
    split
    · norm_num
    · exact hd.min
  · rw [writtenDigits, asWritten]
    split
    · norm_num
    · exact hd.max
  · have := x.low_le_value
    have := Magnitude.unit_le_value hx.pos
    have := abs_le.mp hnear
    linarith
  · exact hhigh.trans (Magnitude.high_lt hx.lt).le

/-- The digits are written as a numeral. -/
lemma exists_shows_shortest (hx : x.Stored) :
    ∃ n : Numeral, n.Shows ((x.shortest .toEven).text .json).toList (writtenDigits x).coefficient
      (writtenDigits x).exponent := by
  have hd := Magnitude.isShortest hx .toEven
  refine exists_shows hd.pos ?_
  have hlength : (x.shortest .toEven).digits.length ≤ 18 :=
    (Nat.length_toDigits_le_iff (by norm_num) (by norm_num)).mpr (hd.lt.trans (by norm_num))
  have hmin := hd.min
  have hmax := hd.max
  rw [Scaled.leading, exponentLimit]
  omega

/-- Away from the ends of the range, -/
lemma exists_reread_of_inner (hx : x.Stored) (hlow : 5 * x.unit ≤ x.value)
    (hhigh : x.value + 5 * x.unit ≤ 2 ^ 1024) :
    ∃ y, reread? x = some y ∧ y.isFinite = true ∧ 0 < value y
      ∧ |value y - x.value| < 5 * x.unit := by
  have hd := isWritten hx
  obtain ⟨q, y, hoff, hround, hscale⟩ := exists_off hd.pos hd.fits hd.min hd.max
  have hnear := abs_nearest_sub_value_lt hx hd.low hd.high hd.near hoff
  obtain ⟨hdown, hup⟩ := abs_lt.mp hnear
  have hpos : 0 < nearest q := by linarith
  have hbelow : |nearest q| < 2 ^ 1024 := by
    rw [abs_of_pos hpos]
    exact (sub_lt_iff_lt_add'.mp hup).trans_le hhigh
  obtain ⟨hfinite, hvalue⟩ := hround.finite hbelow
  exact ⟨y, hscale hfinite, hfinite, hvalue ▸ hpos, hvalue ▸ hnear⟩

/-- at the least floats -/
lemma map_ofFloat_reread?_least : ∀ k < 4,
    (reread? ⟨k + 1, -1074⟩).map Reading.ofFloat = some (.finite false ⟨k + 1, -1074⟩) := by
  decide +kernel

/-- and at the greatest, which are read as odd ones. -/
lemma map_ofFloat_reread?_greatest : ∀ k < 4,
    (reread? ⟨2 ^ 53 - 4 + k, 971⟩).map Reading.ofFloat
      = some (.finite false ⟨2 ^ 53 - 4 + (2 * (k / 2) + 1), 971⟩) := by
  decide +kernel

lemma exists_reread_of_map {n : ℕ} (hpos : 0 < n) (hlow : x.significand < n + 5)
    (hhigh : n < x.significand + 5)
    (h : (reread? x).map Reading.ofFloat = some (.finite false ⟨n, x.exponent⟩)) :
    ∃ y, reread? x = some y ∧ y.isFinite = true ∧ 0 < value y
      ∧ |value y - x.value| < 5 * x.unit := by
  obtain ⟨y, hy, hreading⟩ := Option.map_eq_some_iff.mp h
  obtain ⟨hfinite, hvalue⟩ := Magnitude.value_of_ofFloat hreading
  refine ⟨y, hy, hfinite, ?_, ?_⟩
  · rw [hvalue]
    exact mul_pos (by exact_mod_cast hpos) (zpow_two_pos _)
  · rw [hvalue, Magnitude.value, Magnitude.value, ← sub_mul, abs_mul, abs_of_pos (zpow_two_pos _)]
    refine mul_lt_mul_of_pos_right (abs_lt.mpr ⟨?_, ?_⟩) (zpow_two_pos _)
    · have : (x.significand : ℚ) < n + 5 := by exact_mod_cast hlow
      linarith
    · have : (n : ℚ) < x.significand + 5 := by exact_mod_cast hhigh
      linarith

lemma five_mul_unit_le (h : 5 ≤ x.significand) : 5 * x.unit ≤ x.value :=
  mul_le_mul_of_nonneg_right (by exact_mod_cast h) x.unit_pos.le

lemma mul_zpow_le {n a : ℕ} {e : ℤ} (hn : n ≤ 2 ^ a) (he : a + e ≤ 1024) :
    (n : ℚ) * 2 ^ e ≤ 2 ^ 1024 := by
  calc (n : ℚ) * 2 ^ e ≤ 2 ^ (a : ℤ) * 2 ^ e := by
        refine mul_le_mul_of_nonneg_right ?_ (zpow_two_pos e).le
        rw [zpow_natCast]
        exact_mod_cast hn
    _ = 2 ^ (a + e) := (zpow_add₀ two_ne_zero _ _).symm
    _ ≤ 2 ^ (1024 : ℤ) := zpow_le_zpow_right₀ one_le_two he

/-- Five units up there is room, but at the end of the range. -/
lemma value_add_le (hx : x.Stored) (h : x.significand + 5 ≤ 2 ^ 53 ∨ x.exponent ≠ 971) :
    x.value + 5 * x.unit ≤ 2 ^ 1024 := by
  have hmax := hx.max
  have hlt := hx.lt
  have hsum : x.value + 5 * x.unit = (x.significand + 5 : ℕ) * 2 ^ x.exponent := by
    rw [Magnitude.value, Magnitude.unit]
    push_cast
    ring
  rw [hsum]
  rcases h with hroom | hbelow
  · exact mul_zpow_le hroom (by omega)
  · exact mul_zpow_le (a := 54) (by omega) (by omega)

/-- **The digits of a float are read as a float less than five units away.** -/
theorem reread?_close (hx : x.Stored) :
    ∃ y, reread? x = some y ∧ y.isFinite = true ∧ 0 < value y
      ∧ |value y - x.value| < 5 * x.unit := by
  have hpos := hx.pos
  have hlt := hx.lt
  have hfull := hx.full
  obtain ⟨m, e⟩ := x
  dsimp only at hpos hlt hfull
  by_cases hlow : 5 ≤ m
  · by_cases hhigh : m + 5 ≤ 2 ^ 53 ∨ e ≠ 971
    · exact exists_reread_of_inner hx (five_mul_unit_le hlow) (value_add_le hx hhigh)
    · obtain ⟨hm, he⟩ := not_or.mp hhigh
      obtain rfl : e = 971 := not_not.mp he
      obtain ⟨k, rfl⟩ : ∃ k, m = 2 ^ 53 - 4 + k := ⟨m - (2 ^ 53 - 4), by omega⟩
      have hread := map_ofFloat_reread?_greatest k (by omega)
      exact exists_reread_of_map (by omega) (by dsimp only; omega) (by dsimp only; omega) hread
  · obtain rfl : e = -1074 := hfull.resolve_left (by omega)
    obtain ⟨k, rfl⟩ : ∃ k, m = k + 1 := ⟨m - 1, by omega⟩
    have hread := map_ofFloat_reread?_least k (by omega)
    exact exists_reread_of_map (by omega) (by dsimp only; omega) (by dsimp only; omega) hread

/-! ### Without rounding -/

lemma exists_roundsTo_of_exact {c : ℕ} {e : ℤ} (hpos : 0 < c) (hc : c ≤ 2 ^ 53)
    (he : e.natAbs ≤ 22) :
    ∃ y, RoundsTo (c * 10 ^ e) y ∧ (y.isFinite = true → scale? c e = some y) := by
  obtain ⟨hfinite, hS⟩ := value_nearestFloat hc
  obtain ⟨hfinite', hP⟩ := value_powerOfTen he
  rcases lt_or_ge e 0 with hneg | hnonneg
  · obtain ⟨k, rfl⟩ : ∃ k : ℕ, e = -k := ⟨e.natAbs, by omega⟩
    rw [Int.natAbs_neg, Int.natAbs_natCast] at he hfinite' hP
    have hround := roundsTo_div hfinite hfinite' (by rw [hP]; positivity)
    rw [hS, hP] at hround
    rw [zpow_neg, zpow_natCast, ← div_eq_mul_inv]
    refine ⟨_, hround, fun _ => ?_⟩
    rw [scale?_of_neg (by omega), shrink_of_le (by omega)]
  · obtain ⟨k, rfl⟩ : ∃ k : ℕ, e = k := ⟨e.toNat, by omega⟩
    rw [Int.natAbs_natCast] at he hfinite' hP
    have hround := roundsTo_mul hfinite hfinite'
    rw [hS, hP] at hround
    rw [zpow_natCast]
    have hSpos : 0 < value (nearestFloat c) := by
      rw [hS]
      exact_mod_cast hpos
    exact ⟨_, hround, scale?_of_nonneg hfinite hSpos (by omega)⟩

/-- **They are read as the same float** if neither the digits nor the power of ten need rounding. -/
theorem reread?_exact (hx : x.Stored) (hdigits : (writtenDigits x).coefficient ≤ 2 ^ 53)
    (hpower : (writtenDigits x).exponent.natAbs ≤ 22) :
    ∃ y, reread? x = some y ∧ y.isFinite = true ∧ value y = x.value := by
  have hd := isWritten hx
  obtain ⟨y, hround, hscale⟩ := exists_roundsTo_of_exact hd.pos hdigits hpower
  rw [← Scaled.value] at hround
  have hbelow : |nearest (writtenDigits x).value| < 2 ^ 1024 := by
    rw [hd.nearest_eq, abs_of_pos hx.value_pos]
    exact (mul_zpow_lt_iff hx.lt hx.full).mpr hx.max
  obtain ⟨hfinite, hvalue⟩ := hround.finite hbelow
  exact ⟨y, hscale hfinite, hfinite, hvalue.trans hd.nearest_eq⟩

/-! ### Whole numbers -/

section Whole

variable {n : ℕ}

/-- No two whole numbers are nearer to each other than one. -/
lemma eq_of_abs_sub_lt {m : ℕ} (h : |(m : ℚ) - n| < 1) : m = n := by
  have hint : |(m : ℤ) - n| < 1 := by exact_mod_cast h
  rw [Int.abs_lt_one_iff] at hint
  omega

/-- The interval of a whole number that is small enough is narrow, -/
lemma unit_lt_of_whole (hx : x.Stored) (hvalue : x.value = n) (hn : 10 * n ≤ 2 ^ 53) :
    x.unit < 1 := by
  have hnQ : 10 * (n : ℚ) ≤ 2 ^ 53 := by exact_mod_cast hn
  rcases hx.full with hfull | hleast
  · have hle : (2 ^ 52 : ℚ) * x.unit ≤ x.value :=
      mul_le_mul_of_nonneg_right (by exact_mod_cast hfull) x.unit_pos.le
    linarith
  · rw [Magnitude.unit, hleast]
    exact zpow_lt_one_of_neg₀ one_lt_two (by norm_num)

/-- and has a point on the grid of the whole numbers. -/
lemma isSome_onGrid?_zero (hx : x.Stored) (hvalue : x.value = n) :
    (x.onGrid? .toEven 0).isSome := by
  have hnear := x.abs_roundDiv_sub_le .toEven 0
  rw [zpow_zero, mul_one, hvalue] at hnear
  have hpoint := eq_of_abs_sub_lt (hnear.trans_lt (by norm_num))
  refine Magnitude.isSome_onGrid?_of_readsBack ((Magnitude.readsBack_iff hx.pos).mpr ?_)
  rw [hpoint, zpow_zero, mul_one, ← hvalue]
  have hlow := x.low_le_sub
  have hhigh := x.high_eq
  have hunit := x.unit_pos
  split <;> constructor <;> linarith

/-- **A whole number is written as it is**, with one decimal place. -/
lemma writtenDigits_of_whole (hx : x.Stored) (hvalue : x.value = n) (hn : 10 * n ≤ 2 ^ 53) :
    writtenDigits x = ⟨10 * n, -1⟩ := by
  have hd := Magnitude.isShortest hx .toEven
  have hunit := unit_lt_of_whole hx hvalue hn
  have hzero : (0 : ℤ) ∈ Magnitude.grids := Magnitude.mem_grids_iff.mpr (by norm_num)
  obtain ⟨hexponent, -, -⟩ := Magnitude.exists_shortest hzero (isSome_onGrid?_zero hx hvalue)
  have hnear := Magnitude.abs_sub_value_le hx.pos hd.readsBack
  have hpos := hd.pos
  rw [writtenDigits]
  generalize x.shortest .toEven = d at hexponent hnear hpos ⊢
  obtain ⟨k, hk⟩ := Int.eq_ofNat_of_zero_le hexponent
  have hcoefficient : d.coefficient * 10 ^ k = n := by
    rw [hk, zpow_natCast, hvalue] at hnear
    refine eq_of_abs_sub_lt (lt_of_le_of_lt ?_ hunit)
    push_cast
    linarith [x.unit_pos]
  have hlength : d.digits.length - 1 + k < 16 := by
    have hle := Nat.mul_le_mul_right (10 ^ k) (pow_le_coefficient hpos)
    rw [← pow_add, hcoefficient] at hle
    exact (Nat.pow_lt_pow_iff_right (by norm_num)).mp (hle.trans_lt (by omega : n < 10 ^ 16))
  have hpositional : Layout.json.positional d.leading = true := by
    have hdigits : 0 < d.digits.length := Nat.length_toDigits_pos
    simp [Layout.json, Scaled.leading]
    omega
  rw [asWritten, if_pos ⟨hpositional, hexponent⟩, hk, Int.toNat_natCast, pow_succ, ← mul_assoc,
    hcoefficient, mul_comm]

end Whole

end Reread

end FramePacing.Json
