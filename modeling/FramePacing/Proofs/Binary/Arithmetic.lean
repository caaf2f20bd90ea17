import FramePacing.Decimal.Magnitude
import FramePacing.Proofs.Binary.Order

/-!
# Float arithmetic is exact arithmetic, rounded

The result of an operation on finite floats is `nearest` of the exact result, or infinite if that
is too large: `RoundsTo` says this of a rational number and a float.

* `roundsTo_add`, `roundsTo_sub`, `roundsTo_mul`, `roundsTo_div` — for the operations that are used
  on times and durations.
* `roundsTo_nearestFloat` — for a count that is made a float.
-/

namespace FramePacing.Binary

open Float.Model Float.Model.UnpackedFloat

/-- `x` is what the exact number `q` is rounded to. -/
structure RoundsTo (q : ℚ) (x : Float) : Prop where
  finite : |nearest q| < 2 ^ 1024 → x.isFinite = true ∧ value x = nearest q
  infinite : 2 ^ 1024 ≤ |nearest q| →
    x.toModel.unpack = .infinity (if q < 0 then .negative else .positive)

/-! ## Results in range -/

section Range

variable {q : ℚ} {x : Float}

lemma isFinite_of_infinite {s : Sign} (h : x.toModel.unpack = .infinity s) :
    x.isFinite = false := by
  show x.toModel.unpack.isFinite = false
  rw [h]
  rfl

/-- A result that is finite is rounded, -/
lemma RoundsTo.value_eq (h : RoundsTo q x) (hx : x.isFinite = true) : value x = nearest q := by
  rcases lt_or_ge |nearest q| (2 ^ 1024) with hlt | hle
  · exact (h.finite hlt).2
  · rw [isFinite_of_infinite (h.infinite hle)] at hx
    cases hx

/-- and one that is not is infinite, with the sign of the exact number. -/
lemma RoundsTo.unpack_eq (h : RoundsTo q x) (hq : 0 ≤ q) (hx : ¬x.isFinite = true) :
    x.toModel.unpack = .infinity .positive := by
  have hle : 2 ^ 1024 ≤ |nearest q| := not_lt.mp fun hlt => hx (h.finite hlt).1
  rw [h.infinite hle, if_neg hq.not_gt]

lemma abs_nearest_le (h : |q| ≤ 2 ^ 1023) : |nearest q| ≤ 2 ^ 1023 := by
  have hbound : nearest (2 ^ 1023) = 2 ^ 1023 := by
    simpa using nearest_dyadic 1 (k := 1023) (by norm_num) (by norm_num)
  obtain ⟨hlow, hhigh⟩ := abs_le.mp h
  refine abs_le.mpr ⟨?_, ?_⟩
  · rw [← hbound, ← nearest_neg]
    exact nearest_mono hlow
  · rw [← hbound]
    exact nearest_mono hhigh

/-- What is not too large is finite. -/
lemma RoundsTo.of_abs_le (h : RoundsTo q x) (hq : |q| ≤ 2 ^ 1023) :
    x.isFinite = true ∧ value x = nearest q :=
  h.finite ((abs_nearest_le hq).trans_lt (pow_lt_pow_right₀ one_lt_two (by norm_num)))

/-- No count of 64 bits is too large. -/
lemma abs_cast_le {n : ℕ} (h : n ≤ 2 ^ 64) : |(n : ℚ)| ≤ 2 ^ 1023 := by
  have hcast : (n : ℚ) ≤ 2 ^ 64 := by exact_mod_cast h
  rw [Nat.abs_cast]
  exact hcast.trans (pow_le_pow_right₀ one_le_two (by norm_num))

/-- **A result that needs no rounding** is exact. -/
theorem RoundsTo.of_dyadic {n k : ℤ} (h : RoundsTo (n * 2 ^ k) x) (hn : |n| ≤ 2 ^ 53)
    (hmin : -1074 ≤ k) (hmax : k ≤ 970) : x.isFinite = true ∧ value x = n * 2 ^ k := by
  have hbound : |(n : ℚ) * 2 ^ k| ≤ 2 ^ 1023 := by
    have hnQ : |(n : ℚ)| ≤ 2 ^ 53 := by exact_mod_cast hn
    have hkQ : (2 : ℚ) ^ k ≤ 2 ^ 970 := by
      rw [← zpow_natCast]
      exact zpow_le_zpow_right₀ one_le_two hmax
    rw [abs_mul, abs_of_pos (zpow_two_pos k), pow_add 2 53 970]
    exact mul_le_mul hnQ hkQ (zpow_two_pos k).le (by norm_num)
  have hexact := h.of_abs_le hbound
  rw [nearest_dyadic n hn hmin] at hexact
  exact hexact

lemma nearest_value (hx : x.isFinite = true) : nearest (value x) = value x := by
  obtain ⟨s, q, h, -⟩ := exists_canonical hx
  rw [h.value_eq]
  generalize x.toModel.unpack = u at h
  rcases h with _ | @⟨m, e, hpos, hlt, hmin, hfull⟩
  · rw [signed_zero, nearest_zero]
  · have hexact := nearest_dyadic m (k := e) (by rw [Int.abs_natCast]; exact_mod_cast hlt.le) hmin
    rw [Int.cast_natCast] at hexact
    cases s
    · rw [signed, nearest_neg, hexact]
    · exact hexact

end Range

/-! ## Storing a result -/

section Pack

variable {s : Sign} {q : ℚ} {u : UnpackedFloat}

lemma nearest_signed (hq : 0 < q) : nearest (signed s q) = signed s (roundPos q) := by
  cases s
  · rw [signed, nearest_neg, nearest_of_pos hq, signed]
  · exact nearest_of_pos hq

lemma abs_signed (hq : 0 ≤ q) : |signed s q| = q := by
  cases s <;> simp [signed, abs_of_nonneg hq]

lemma abs_value_lt {x : Float} (hx : x.isFinite = true) : |value x| < 2 ^ 1024 := by
  obtain ⟨s, q, h, hlt⟩ := exists_canonical hx
  rwa [h.value_eq, abs_signed h.nonneg]

/-- Storing a number that was rounded. -/
lemma roundsTo_pack (hq : 0 < q) (h : Canonical s (roundPos q) u) :
    RoundsTo (signed s q) (.ofModel (.pack u)) := by
  have habs : |nearest (signed s q)| = roundPos q := by
    rw [nearest_signed hq, abs_signed h.nonneg]
  constructor
  · intro hlt
    have hunpack := unpack_pack h (habs ▸ hlt)
    have hstored : Canonical s (roundPos q) (Float.ofModel (.pack u)).toModel.unpack := by
      rw [hunpack]
      exact h
    exact ⟨hstored.isFinite, by rw [hstored.value_eq, nearest_signed hq]⟩
  · intro hle
    refine (unpack_pack_of_le h (habs ▸ hle)).trans ?_
    cases s
    · exact congrArg _ (if_pos (neg_lt_zero.mpr hq)).symm
    · exact congrArg _ (if_neg (not_lt.mpr hq.le)).symm

lemma roundsTo_zero (s : Sign) : RoundsTo 0 (.ofModel (.pack (.zero s))) := by
  have hstored : Canonical s 0 (Float.ofModel (.pack (.zero s))).toModel.unpack := by
    rw [unpack_pack_zero]
    exact .zero
  constructor
  · intro _
    exact ⟨hstored.isFinite, by rw [hstored.value_eq, signed_zero, nearest_zero]⟩
  · intro hle
    rw [nearest_zero, abs_zero] at hle
    exact absurd hle (by norm_num)

/-- Storing a number that needs no rounding. -/
lemma roundsTo_pack_self (h : Canonical s q u) : RoundsTo (signed s q) (.ofModel (.pack u)) := by
  rcases h with _ | @⟨m, e, hpos, hlt, hmin, hfull⟩
  · rw [signed_zero]
    exact roundsTo_zero s
  · refine roundsTo_pack (mul_pos (by exact_mod_cast hpos) (zpow_two_pos e)) ?_
    rw [roundPos_dyadic hpos hlt.le hmin]
    exact .finite hpos hlt hmin hfull

lemma roundsTo_normalize (n e : ℤ) (s : Sign) :
    RoundsTo (n * 2 ^ e) (.ofModel (.pack (UnpackedFloat.normalize Format.binary64 n e s))) := by
  simp only [UnpackedFloat.normalize]
  rcases lt_trichotomy n 0 with hn | rfl | hn
  · rw [compare_lt_iff_lt.mpr hn]
    obtain ⟨m, rfl⟩ : ∃ m : ℕ, n = -m := ⟨n.natAbs, by omega⟩
    have hm : 0 < m := by omega
    have hpos : (0 : ℚ) < m * 2 ^ e := mul_pos (by exact_mod_cast hm) (zpow_two_pos e)
    have h := roundsTo_pack hpos (canonical_round .negative hm e)
    simpa [signed] using h
  · rw [compare_eq_iff_eq.mpr rfl, Int.cast_zero, zero_mul]
    exact roundsTo_zero s
  · rw [compare_gt_iff_gt.mpr hn]
    obtain ⟨m, rfl⟩ : ∃ m : ℕ, n = m := ⟨n.natAbs, by omega⟩
    have hm : 0 < m := by omega
    have hpos : (0 : ℚ) < m * 2 ^ e := mul_pos (by exact_mod_cast hm) (zpow_two_pos e)
    exact roundsTo_pack hpos (canonical_round .positive hm e)

/-- **A count that is made a float** is rounded. -/
theorem roundsTo_nearestFloat (n : ℕ) : RoundsTo n (Decimal.nearestFloat n) := by
  have h := roundsTo_normalize n 0 .positive
  rw [zpow_zero, mul_one] at h
  exact h

lemma value_nearestFloat {n : ℕ} (h : n ≤ 2 ^ 53) :
    (Decimal.nearestFloat n).isFinite = true ∧ value (Decimal.nearestFloat n) = n := by
  have hround : RoundsTo ((n : ℤ) * 2 ^ (0 : ℤ)) (Decimal.nearestFloat n) := by
    rw [zpow_zero, mul_one]
    exact roundsTo_nearestFloat n
  have hexact := hround.of_dyadic (by rw [Int.abs_natCast]; exact_mod_cast h) (by norm_num)
    (by norm_num)
  rwa [zpow_zero, mul_one] at hexact

end Pack

/-! ## Sums -/

section Sum

lemma cast_apply (s : Sign) (n : ℕ) : ((s.apply n : ℤ) : ℚ) = signed s n := by
  cases s <;> simp [Sign.apply, signed]

lemma signed_mul (s : Sign) (a b : ℚ) : signed s a * b = signed s (a * b) := by
  cases s <;> simp [signed]

/-- A significand brought down to a lower exponent. -/
lemma decreaseExponent_mul (m : ℕ) {e t : ℤ} (h : t ≤ e) :
    ((decreaseExponent m e t).1 : ℚ) * 2 ^ t = m * 2 ^ e := by
  rw [← decreaseExponent_value m e t]
  congr 2
  simp only [decreaseExponent]
  omega

variable {x y : Float}

/-- Adding two unpacked numbers. -/
lemma roundsTo_pack_add {s t : Sign} {p q : ℚ} {u v : UnpackedFloat} (h : Canonical s p u)
    (h' : Canonical t q v) :
    RoundsTo (signed s p + signed t q)
      (.ofModel (.pack (UnpackedFloat.add Format.binary64 u v))) := by
  rcases h with _ | @⟨m, e, hm, hlt, hmin, hfull⟩
  · rcases h' with _ | @⟨n, f, hn, hlt', hmin', hfull'⟩
    · rw [signed_zero, signed_zero, add_zero]
      cases s <;> cases t <;> exact roundsTo_zero _
    · rw [signed_zero, zero_add]
      exact roundsTo_pack_self (.finite hn hlt' hmin' hfull')
  · rcases h' with _ | @⟨n, f, hn, hlt', hmin', hfull'⟩
    · rw [signed_zero, add_zero]
      exact roundsTo_pack_self (.finite hm hlt hmin hfull)
    · have hnormalize := roundsTo_normalize
        (s.apply (decreaseExponent m e (min e f)).1 + t.apply (decreaseExponent n f (min e f)).1)
        (min e f) .positive
      rw [Int.cast_add, cast_apply, cast_apply, add_mul, signed_mul, signed_mul,
        decreaseExponent_mul m (min_le_left e f), decreaseExponent_mul n (min_le_right e f)]
        at hnormalize
      exact hnormalize

/-- **The sum of two floats** is the rounded sum of their values. -/
theorem roundsTo_add (hx : x.isFinite = true) (hy : y.isFinite = true) :
    RoundsTo (value x + value y) (x + y) := by
  obtain ⟨s, p, h, -⟩ := exists_canonical hx
  obtain ⟨t, q, h', -⟩ := exists_canonical hy
  rw [h.value_eq, h'.value_eq]
  exact roundsTo_pack_add h h'

/-! ### Differences -/

lemma signed_neg (s : Sign) (q : ℚ) : signed (-s) q = -signed s q := by
  cases s
  · exact (neg_neg q).symm
  · rfl

lemma apply_neg (s : Sign) (n : ℕ) : (-s).apply n = -s.apply n := by
  cases s
  · exact (neg_neg (n : ℤ)).symm
  · rfl

lemma Canonical.neg {s : Sign} {q : ℚ} {u : UnpackedFloat} (h : Canonical s q u) :
    Canonical (-s) q (UnpackedFloat.neg u) := by
  rcases h with _ | ⟨hm, hlt, hmin, hfull⟩
  · exact .zero
  · exact .finite hm hlt hmin hfull

/-- Subtracting is adding with the other sign. -/
lemma sub_eq_add_neg_of_canonical {s t : Sign} {p q : ℚ} {u v : UnpackedFloat}
    (h : Canonical s p u) (h' : Canonical t q v) :
    UnpackedFloat.sub Format.binary64 u v
      = UnpackedFloat.add Format.binary64 u (UnpackedFloat.neg v) := by
  rcases h with _ | @⟨m, e, hm, -, -, -⟩
  · rcases h' with _ | _ <;> rfl
  · rcases h' with _ | @⟨n, f, hn, -, -, -⟩
    · rfl
    · have hsignificand (a b : ℕ) : s.apply a - t.apply b = s.apply a + (-t).apply b := by
        rw [apply_neg, sub_eq_add_neg]
      exact congrArg (UnpackedFloat.normalize Format.binary64 · (min e f) .positive)
        (hsignificand _ _)

/-- **The difference of two floats** is the rounded difference of their values. -/
theorem roundsTo_sub (hx : x.isFinite = true) (hy : y.isFinite = true) :
    RoundsTo (value x - value y) (x - y) := by
  obtain ⟨s, p, h, -⟩ := exists_canonical hx
  obtain ⟨t, q, h', -⟩ := exists_canonical hy
  have hsub := roundsTo_pack_add h h'.neg
  rw [← sub_eq_add_neg_of_canonical h h', signed_neg, ← sub_eq_add_neg] at hsub
  rw [h.value_eq, h'.value_eq]
  exact hsub

end Sum

/-! ## Products and quotients -/

section Quotient

/-- With 53 digits above it, or at the place `-1074`, a place is not below the last one. -/
lemma le_lastPlace {q : ℚ} (hq : 0 < q) {e : ℤ} (h : e ≤ -1074 ∨ 2 ^ (52 + e) ≤ q) :
    e ≤ lastPlace q := by
  simp only [lastPlace]
  rcases h with h | h
  · omega
  · have hlog := (Int.zpow_le_iff_le_log Nat.one_lt_two hq).mp (by simpa using h)
    omega

lemma signed_mul_signed (s t : Sign) (p q : ℚ) :
    signed s p * signed t q = signed (s * t) (p * q) := by
  cases s <;> cases t
  · exact neg_mul_neg p q
  · exact neg_mul p q
  · exact mul_neg p q
  · rfl

/-- A product of significands that have all their digits, or are subnormal, has enough of them. -/
lemma mul_le_lastPlace {m n : ℕ} {e f : ℤ} (hm : 0 < m) (hn : 0 < n)
    (hfull : 2 ^ 52 ≤ m ∨ e = -1074) (hfull' : 2 ^ 52 ≤ n ∨ f = -1074) :
    e + f ≤ lastPlace ((m * n : ℕ) * 2 ^ (e + f)) := by
  have hpos : (0 : ℚ) < (m * n : ℕ) * 2 ^ (e + f) :=
    mul_pos (by exact_mod_cast Nat.mul_pos hm hn) (zpow_two_pos _)
  have hdigits : e + f ≤ -1074 ∨ 2 ^ 52 ≤ m * n := by
    rcases hfull with h | rfl
    · exact Or.inr (h.trans (Nat.le_mul_of_pos_right m hn))
    · rcases hfull' with h' | rfl
      · exact Or.inr (h'.trans (Nat.le_mul_of_pos_left n hm))
      · exact Or.inl (by norm_num)
  refine le_lastPlace hpos (hdigits.imp_right fun h => ?_)
  rw [zpow_add₀ two_ne_zero]
  exact mul_le_mul_of_nonneg_right (by exact_mod_cast h) (zpow_two_pos _).le

variable {x y : Float}

/-- **The product of two floats** is the rounded product of their values. -/
theorem roundsTo_mul (hx : x.isFinite = true) (hy : y.isFinite = true) :
    RoundsTo (value x * value y) (x * y) := by
  obtain ⟨s, p, h, -⟩ := exists_canonical hx
  obtain ⟨t, q, h', -⟩ := exists_canonical hy
  rw [h.value_eq, h'.value_eq]
  change RoundsTo _ (.ofModel (.pack (UnpackedFloat.mul Format.binary64 x.toModel.unpack
    y.toModel.unpack)))
  generalize x.toModel.unpack = u at h
  generalize y.toModel.unpack = v at h'
  rcases h with _ | @⟨m, e, hm, hlt, hmin, hfull⟩
  · rw [signed_zero, zero_mul]
    rcases h' with _ | @⟨n, f, hn, hlt', hmin', hfull'⟩ <;> exact roundsTo_zero _
  · rcases h' with _ | @⟨n, f, hn, hlt', hmin', hfull'⟩
    · rw [signed_zero, mul_zero]
      exact roundsTo_zero _
    · have hvalue : (m : ℚ) * 2 ^ e * (n * 2 ^ f) = (m * n : ℕ) * 2 ^ (e + f) := by
        rw [zpow_add₀ two_ne_zero]
        push_cast
        ring
      have hpos : (0 : ℚ) < (m * n : ℕ) * 2 ^ (e + f) :=
        mul_pos (by exact_mod_cast Nat.mul_pos hm hn) (zpow_two_pos _)
      rw [signed_mul_signed, hvalue]
      refine roundsTo_pack hpos (canonical_roundWithAccuracy (s * t) hpos ?_
        (mul_le_lastPlace hm hn hfull hfull'))
      rw [mul_div_cancel_right₀ _ (zpow_two_pos _).ne']
      exact sub_self _

lemma leaves_accuracyOfFraction {num den : ℕ} (h : num < den) :
    Leaves (accuracyOfFraction num den) (num / den) := by
  have hden : (0 : ℚ) < den := by exact_mod_cast Nat.zero_lt_of_lt h
  have hlt : (num : ℚ) < den := by exact_mod_cast h
  simp only [accuracyOfFraction]
  split_ifs with hzero
  · rw [hzero, Nat.cast_zero, zero_div]
    rfl
  · have hnum : (0 : ℚ) < num := by exact_mod_cast Nat.pos_of_ne_zero hzero
    rcases lt_trichotomy (2 * num) den with hlt' | heq | hgt
    · have hltQ : 2 * (num : ℚ) < den := by exact_mod_cast hlt'
      rw [compare_lt_iff_lt.mpr hlt']
      refine ⟨div_pos hnum hden, ?_⟩
      rw [div_lt_iff₀ hden]
      linarith
    · have heqQ : 2 * (num : ℚ) = den := by exact_mod_cast heq
      rw [compare_eq_iff_eq.mpr heq]
      show (num : ℚ) / den = 1 / 2
      rw [div_eq_iff hden.ne']
      linarith
    · have hgtQ : (den : ℚ) < 2 * num := by exact_mod_cast hgt
      rw [compare_gt_iff_gt.mpr hgt]
      refine ⟨?_, (div_lt_one hden).mpr hlt⟩
      rw [lt_div_iff₀ hden]
      linarith

/-- A magnitude lies below the power of two at its total exponent, and not below the one before. -/
lemma zpow_totalExponent_bounds {m : ℕ} (hm : 0 < m) (e : ℤ) :
    (2 : ℚ) ^ (totalExponent m e - 1) ≤ m * 2 ^ e ∧ (m : ℚ) * 2 ^ e < 2 ^ totalExponent m e := by
  have hpos := zpow_two_pos e
  have hlow : (2 : ℚ) ^ m.log2 ≤ m := by exact_mod_cast Nat.log2_self_le hm.ne'
  have hhigh : (m : ℚ) < 2 ^ (m.log2 + 1) := by exact_mod_cast Nat.lt_log2_self
  constructor
  · rw [totalExponent, show (m.log2 : ℤ) + 1 + e - 1 = m.log2 + e by ring, zpow_add₀ two_ne_zero,
      zpow_natCast]
    exact mul_le_mul_of_nonneg_right hlow hpos.le
  · rw [totalExponent, zpow_add₀ two_ne_zero, show (m.log2 : ℤ) + 1 = (m.log2 + 1 : ℕ) by simp,
      zpow_natCast]
    exact mul_lt_mul_of_pos_right hhigh hpos

section Significands

variable {m n : ℕ} (hm : 0 < m) (hn : 0 < n) (e f : ℤ)

include hm hn in
/-- The quotient of the significands has a digit at the last place, … -/
lemma divCore_le_lastPlace :
    (divCore Format.binary64 m e n f).2.1 ≤ lastPlace (m * 2 ^ e / (n * 2 ^ f)) := by
  obtain ⟨hlow, -⟩ := zpow_totalExponent_bounds hm e
  obtain ⟨-, hhigh⟩ := zpow_totalExponent_bounds hn f
  have hpos : (0 : ℚ) < m * 2 ^ e := mul_pos (by exact_mod_cast hm) (zpow_two_pos e)
  have hpos' : (0 : ℚ) < n * 2 ^ f := mul_pos (by exact_mod_cast hn) (zpow_two_pos f)
  have hmin : (divCore Format.binary64 m e n f).2.1 = min (e - f)
      (max (totalExponent m e - totalExponent n f - 53) (-1074)) := by
    rw [← targetExponent_eq]
    rfl
  generalize (divCore Format.binary64 m e n f).2.1 = k at hmin ⊢
  refine le_lastPlace (div_pos hpos hpos') (or_iff_not_imp_left.mpr fun hplace => ?_)
  rw [le_div_iff₀ hpos']
  calc (2 : ℚ) ^ (52 + k) * (n * 2 ^ f) ≤ 2 ^ (52 + k) * 2 ^ totalExponent n f :=
        mul_le_mul_of_nonneg_left hhigh.le (zpow_two_pos _).le
    _ = 2 ^ (52 + k + totalExponent n f) := (zpow_add₀ two_ne_zero _ _).symm
    _ ≤ 2 ^ (totalExponent m e - 1) := zpow_le_zpow_right₀ one_le_two (by omega)
    _ ≤ m * 2 ^ e := hlow

include hn in
/-- … and what is left over tells how far it is from the quotient. -/
lemma leaves_divCore :
    let d := divCore Format.binary64 m e n f
    Leaves d.2.2 (m * 2 ^ e / (n * 2 ^ f) / 2 ^ d.2.1 - d.1) := by
  intro d
  have hn' : (n : ℚ) ≠ 0 := by exact_mod_cast hn.ne'
  have hle : d.2.1 ≤ e - f := min_le_left _ _
  -- both results of the division of whole numbers are about this shifted significand
  obtain ⟨a, ha⟩ : ∃ a, a = m <<< (e - f - d.2.1).toNat := ⟨_, rfl⟩
  have hshift : (a : ℚ) / n = m * 2 ^ e / (n * 2 ^ f) / 2 ^ d.2.1 := by
    rw [ha, Nat.shiftLeft_eq, Nat.cast_mul, Nat.cast_pow, Nat.cast_ofNat, ← zpow_natCast,
      Int.toNat_of_nonneg (by omega), zpow_sub₀ two_ne_zero, zpow_sub₀ two_ne_zero]
    ring
  have hdiv : (a : ℚ) = n * (a / n : ℕ) + (a % n : ℕ) := by
    exact_mod_cast (Nat.div_add_mod a n).symm
  have hrest : m * 2 ^ e / (n * 2 ^ f) / 2 ^ d.2.1 - (a / n : ℕ) = ((a % n : ℕ) : ℚ) / n := by
    rw [← hshift, hdiv, add_div, mul_div_cancel_left₀ _ hn']
    exact add_sub_cancel_left _ _
  have hleaves := leaves_accuracyOfFraction (Nat.mod_lt a hn)
  rw [← hrest, ha] at hleaves
  exact hleaves

end Significands

lemma signed_div_signed (s t : Sign) (p q : ℚ) :
    signed s p / signed t q = signed (s / t) (p / q) := by
  cases s <;> cases t
  · exact neg_div_neg_eq p q
  · exact neg_div q p
  · exact div_neg p
  · rfl

/-- **The quotient of two floats** is the rounded quotient of their values. -/
theorem roundsTo_div (hx : x.isFinite = true) (hy : y.isFinite = true) (hzero : value y ≠ 0) :
    RoundsTo (value x / value y) (x / y) := by
  obtain ⟨s, p, h, -⟩ := exists_canonical hx
  obtain ⟨t, q, h', -⟩ := exists_canonical hy
  rw [h'.value_eq] at hzero
  rw [h.value_eq, h'.value_eq]
  change RoundsTo _ (.ofModel (.pack (UnpackedFloat.div Format.binary64 x.toModel.unpack
    y.toModel.unpack)))
  generalize x.toModel.unpack = u at h
  generalize y.toModel.unpack = v at h'
  rcases h' with _ | @⟨n, f, hn, hlt', hmin', hfull'⟩
  · exact absurd (signed_zero t) hzero
  · rcases h with _ | @⟨m, e, hm, hlt, hmin, hfull⟩
    · rw [signed_zero, zero_div]
      exact roundsTo_zero _
    · have hpos : (0 : ℚ) < m * 2 ^ e / (n * 2 ^ f) :=
        div_pos (mul_pos (by exact_mod_cast hm) (zpow_two_pos e))
          (mul_pos (by exact_mod_cast hn) (zpow_two_pos f))
      rw [signed_div_signed]
      exact roundsTo_pack hpos (canonical_roundWithAccuracy (s / t) hpos
        (leaves_divCore hn e f) (divCore_le_lastPlace hm hn e f))

end Quotient

end FramePacing.Binary
