import FramePacing.Proofs.Binary.Least

/-!
# How far rounding goes

Rounding a number to a float moves it by half a unit in the last place at most.  Of a number that is
not too small this is a fixed part of it, `halfUnit`, and so errors of this kind are counted in
parts of the number: `Close`.  They add up in products and quotients.

* `abs_nearest_sub_le` — by how much rounding moves a number, and `close_nearest`, by what part.
* `RoundsTo.isFinite_iff` — which results are too large for a float.
* `Close.mul`, `Close.div` — products and quotients of approximations; `close_mul`, `close_div` — of
  numbers that were rounded.
* `roundsTo_powerOfTen` — the powers of ten that numbers are scaled by are rounded once.
-/

namespace FramePacing.Binary

open Float.Model Float.Model.UnpackedFloat

/-! ## One rounding -/

section Rounding

variable {q : ℚ}

lemma abs_roundEven_sub_le (q : ℚ) : |(roundEven q : ℚ) - q| ≤ 1 / 2 := by
  have hlow := Int.floor_le q
  have hhigh := Int.lt_floor_add_one q
  rw [abs_le, roundEven]
  split_ifs with h h'
  · constructor <;> linarith
  · push_cast
    constructor <;> linarith
  · have heq : q - ⌊q⌋ = 1 / 2 := le_antisymm (not_lt.mp h') (not_lt.mp h)
    rcases Int.emod_two_eq_zero_or_one ⌊q⌋ with hpar | hpar <;> rw [hpar] <;> push_cast <;>
      constructor <;> linarith

/-- The nearest integer is the only one that is nearer than half a unit, -/
lemma roundEven_of_lt {q : ℚ} {n : ℤ} (h : |q - n| < 1 / 2) : roundEven q = n := by
  have hround := abs_roundEven_sub_le q
  have hsum := abs_add_le ((roundEven q : ℚ) - q) (q - n)
  rw [sub_add_sub_cancel] at hsum
  have hlt : |(roundEven q : ℚ) - n| < 1 := by linarith
  have hint : |roundEven q - n| < 1 := by exact_mod_cast hlt
  rw [Int.abs_lt_one_iff] at hint
  omega

/-- and of two that are as near, the even one. -/
lemma roundEven_of_even {q : ℚ} {n : ℤ} (h : |q - n| ≤ 1 / 2) (hn : n % 2 = 0) :
    roundEven q = n := by
  rcases h.lt_or_eq with hlt | heq
  · exact roundEven_of_lt hlt
  rcases (abs_eq (by norm_num)).mp heq with hq | hq
  · have hfloor : ⌊q⌋ = n := Int.floor_eq_iff.mpr ⟨by linarith, by linarith⟩
    rw [roundEven, hfloor, if_neg (by linarith), if_neg (by linarith), hn, add_zero]
  · have hfloor : ⌊q⌋ = n - 1 := by
      refine Int.floor_eq_iff.mpr ⟨?_, ?_⟩ <;> push_cast <;> linarith
    rw [roundEven, hfloor, if_neg (by push_cast; linarith), if_neg (by push_cast; linarith)]
    omega

/-- That `n` is the integer nearest to `q`, and the even one if there are two. -/
structure IsNearestInt (q : ℚ) (n : ℤ) : Prop where
  le : ∀ m : ℤ, |q - n| ≤ |q - m|
  even : ∀ m : ℤ, m ≠ n → |q - m| = |q - n| → n % 2 = 0

theorem isNearestInt_roundEven (q : ℚ) : IsNearestInt q (roundEven q) := by
  have hround := abs_roundEven_sub_le q
  rw [abs_sub_comm] at hround
  constructor
  · intro m
    by_contra hlt
    rw [not_le] at hlt
    rw [roundEven_of_lt (hlt.trans_le hround)] at hlt
    exact lt_irrefl _ hlt
  · intro m hm heq
    by_contra hodd
    -- of two neighbours one is even, and that is the one that is taken
    have hstep : (1 : ℚ) ≤ |(m : ℚ) - roundEven q| := by
      exact_mod_cast Int.one_le_abs (sub_ne_zero.mpr hm)
    have hsplit := abs_sub_le (m : ℚ) q (roundEven q)
    rw [abs_sub_comm (m : ℚ) q, heq] at hsplit
    have hnear : |q - roundEven q| = 1 / 2 := by linarith
    have hneighbour : |m - roundEven q| = 1 := by
      have : |(m : ℚ) - roundEven q| = 1 := by linarith
      exact_mod_cast this
    have heven : m % 2 = 0 := by
      rcases (abs_eq zero_le_one).mp hneighbour with h | h <;> omega
    exact hm (roundEven_of_even (heq.trans hnear).le heven).symm

/-- **Rounding moves a number by half a unit in the last place** at most. -/
theorem abs_nearest_sub_le (hq : 0 < q) : |nearest q - q| ≤ 2 ^ lastPlace q / 2 := by
  have hpos := zpow_two_pos (lastPlace q)
  have hsplit : nearest q - q
      = (roundEven (q / 2 ^ lastPlace q) - q / 2 ^ lastPlace q) * 2 ^ lastPlace q := by
    rw [nearest_of_pos hq, roundPos, sub_mul, div_mul_cancel₀ _ hpos.ne']
  rw [hsplit, abs_mul, abs_of_pos hpos]
  linarith [mul_le_mul_of_nonneg_right (abs_roundEven_sub_le (q / 2 ^ lastPlace q)) hpos.le]

/-- The part of a number that half a unit in its last place is at most, if it is not subnormal. -/
def halfUnit : ℚ := 2 ^ (-53 : ℤ)

lemma halfUnit_pos : 0 < halfUnit := zpow_two_pos _

/-- A unit in the last place is a small part of a number, or the least unit that there is. -/
lemma zpow_lastPlace_le (hq : 0 < q) : (2 : ℚ) ^ lastPlace q ≤ max (2 * halfUnit * q) least := by
  have hle : (2 : ℚ) ^ Int.log 2 q ≤ q := by simpa using Int.zpow_log_le_self Nat.one_lt_two hq
  rcases max_cases (Int.log 2 q - 52) (-1074) with ⟨hplace, -⟩ | ⟨hplace, -⟩
  · refine le_max_of_le_left ?_
    rw [lastPlace, hplace, zpow_sub₀ two_ne_zero, halfUnit, div_eq_mul_inv, mul_comm]
    norm_num
    linarith
  · refine le_max_of_le_right ?_
    rw [lastPlace, hplace, least]

lemma abs_nearest_sub_le_max (hq : 0 < q) :
    |nearest q - q| ≤ max (halfUnit * q) (least / 2) := by
  refine (abs_nearest_sub_le hq).trans ?_
  rcases le_max_iff.mp (zpow_lastPlace_le hq) with h | h
  · exact le_max_of_le_left (by linarith)
  · exact le_max_of_le_right (by linarith)

end Rounding

/-! ## Too large numbers -/

section Overflow

variable {q : ℚ} {x : Float}

/-- The number from which on rounding leads to infinity, half a unit above the largest float. -/
def infinityFrom : ℚ := 2 ^ 1024 - 2 ^ 970

lemma two_pow_1024 : (2 : ℚ) ^ 1024 = 2 ^ 53 * 2 ^ (971 : ℤ) := by
  rw [pow_add 2 53 971]
  rfl

lemma infinityFrom_eq : infinityFrom = (2 ^ 53 - 1 / 2) * 2 ^ (971 : ℤ) := by
  have hhalf : (2 : ℚ) ^ (971 : ℤ) = 2 * 2 ^ 970 := by
    rw [← pow_succ']
    rfl
  rw [infinityFrom, two_pow_1024, hhalf]
  generalize (2 : ℚ) ^ 970 = u
  ring

lemma infinityFrom_bounds : 2 ^ 1023 ≤ infinityFrom ∧ infinityFrom < 2 ^ 1024 := by
  have hpow : (2 : ℚ) ^ 970 ≤ 2 ^ 1023 := pow_le_pow_right₀ one_le_two (by norm_num)
  have htop : (2 : ℚ) ^ 1024 = 2 * 2 ^ 1023 := pow_succ' 2 1023
  have hpos : (0 : ℚ) < 2 ^ 970 := pow_pos two_pos _
  rw [infinityFrom, htop]
  generalize (2 : ℚ) ^ 970 = half at hpow hpos ⊢
  generalize (2 : ℚ) ^ 1023 = most at hpow ⊢
  constructor <;> linarith

/-- Below it the last place of the large numbers is that of the largest float. -/
lemma lastPlace_of_large (hlow : 2 ^ 1023 ≤ q) (hhigh : q < 2 ^ 1024) : lastPlace q = 971 := by
  have hpos : 0 < q := (pow_pos two_pos _).trans_le hlow
  exact le_antisymm (lastPlace_le hpos (by norm_num) hhigh) (le_lastPlace hpos (.inr hlow))

/-- **A number stays below `2 ^ 1024`** when it is rounded, if it is below the limit. -/
theorem nearest_lt_iff : nearest q < 2 ^ 1024 ↔ q < infinityFrom := by
  obtain ⟨hlow, hhigh⟩ := infinityFrom_bounds
  have hpos : (0 : ℚ) < 2 ^ (971 : ℤ) := zpow_two_pos _
  have hround {p : ℚ} (hlow : 2 ^ 1023 ≤ p) (hhigh : p < 2 ^ 1024) :
      nearest p = roundEven (p / 2 ^ (971 : ℤ)) * 2 ^ (971 : ℤ) := by
    rw [nearest_of_pos ((pow_pos two_pos _).trans_le hlow), roundPos,
      lastPlace_of_large hlow hhigh]
  constructor
  · contrapose!
    intro hq
    -- the limit itself lies halfway, and the even neighbour is the upper one
    have hlimit : roundEven (infinityFrom / 2 ^ (971 : ℤ)) = 2 ^ 53 := by
      rw [infinityFrom_eq, mul_div_cancel_right₀ _ hpos.ne']
      refine roundEven_of_even ?_ (by norm_num)
      norm_num
    calc (2 : ℚ) ^ 1024 = nearest infinityFrom := by
          rw [hround hlow hhigh, hlimit, two_pow_1024, Int.cast_pow, Int.cast_ofNat]
      _ ≤ nearest q := nearest_mono hq
  · intro hq
    rcases lt_or_ge q (2 ^ 1023) with hsmall | hlarge
    · have hexact := nearest_dyadic 1 (k := 1023) (by norm_num) (by norm_num)
      rw [Int.cast_one, one_mul] at hexact
      calc nearest q ≤ nearest (2 ^ (1023 : ℤ)) := nearest_mono (by exact_mod_cast hsmall.le)
        _ = 2 ^ (1023 : ℤ) := hexact
        _ < 2 ^ 1024 := by exact_mod_cast hlow.trans_lt hhigh
    · have hdiv : q / 2 ^ (971 : ℤ) < 2 ^ 53 - 1 / 2 := by
        rw [div_lt_iff₀ hpos, ← infinityFrom_eq]
        exact hq
      have hnear := (abs_le.mp (abs_roundEven_sub_le (q / 2 ^ (971 : ℤ)))).2
      rw [hround hlarge (hq.trans hhigh), two_pow_1024]
      exact mul_lt_mul_of_pos_right (by linarith) hpos

/-- **What an exact result is rounded to is finite** exactly if it is below the limit. -/
theorem RoundsTo.isFinite_iff (h : RoundsTo q x) (hq : 0 ≤ q) :
    x.isFinite = true ↔ q < infinityFrom := by
  rw [← nearest_lt_iff, ← abs_of_nonneg (nearest_nonneg hq)]
  constructor
  · contrapose!
    intro hle
    rw [isFinite_of_infinite (h.infinite hle)]
    exact Bool.false_ne_true
  · exact fun hlt => (h.finite hlt).1

end Overflow

/-! ## Approximations -/

/-- That `a` differs from `b` by a part of `b` that is not larger than `δ`. -/
def Close (δ a b : ℚ) : Prop := |a - b| ≤ δ * b

section Close

variable {δ ε a b c d q : ℚ}

lemma Close.bounds (h : Close δ a b) : (1 - δ) * b ≤ a ∧ a ≤ (1 + δ) * b := by
  obtain ⟨hlow, hhigh⟩ := abs_le.mp h
  constructor <;> linarith

lemma Close.of_bounds (hlow : (1 - δ) * b ≤ a) (hhigh : a ≤ (1 + δ) * b) : Close δ a b :=
  abs_le.mpr ⟨by linarith, by linarith⟩

lemma Close.mono (h : Close δ a b) (hδ : δ ≤ ε) (hb : 0 ≤ b) : Close ε a b :=
  h.trans (mul_le_mul_of_nonneg_right hδ hb)

lemma Close.pos (h : Close δ a b) (hδ : δ < 1) (hb : 0 < b) : 0 < a :=
  (mul_pos (by linarith) hb).trans_le h.bounds.1

lemma Close.nonneg (h : Close δ a b) (hb : 0 < b) : 0 ≤ δ :=
  nonneg_of_mul_nonneg_left ((abs_nonneg _).trans h) hb

/-- In a product the parts add up, -/
lemma Close.mul (h : Close δ a b) (h' : Close ε c d) (hδ : δ < 1) (hε : ε < 1) (hb : 0 < b)
    (hd : 0 < d) : Close (δ + ε + δ * ε) (a * c) (b * d) := by
  have hδε := mul_nonneg (mul_nonneg (h.nonneg hb) (h'.nonneg hd)) (mul_pos hb hd).le
  have ha := h.pos hδ hb
  have hc := h'.pos hε hd
  obtain ⟨halow, hahigh⟩ := h.bounds
  obtain ⟨hclow, hchigh⟩ := h'.bounds
  refine .of_bounds ?_ ?_
  · have hlow := mul_le_mul halow hclow (mul_nonneg (by linarith) hd.le) ha.le
    linarith
  · have hhigh := mul_le_mul hahigh hchigh hc.le (ha.le.trans hahigh)
    linarith

/-- and in a quotient, where a little more is lost. -/
lemma Close.div (h : Close δ a b) (h' : Close ε c d) (hδ : δ < 1) (hε : ε < 1) (hb : 0 < b)
    (hd : 0 < d) : Close ((δ + ε) / (1 - ε)) (a / c) (b / d) := by
  have hδ0 := h.nonneg hb
  have hε0 := h'.nonneg hd
  have hc := h'.pos hε hd
  obtain ⟨halow, hahigh⟩ := h.bounds
  obtain ⟨hclow, hchigh⟩ := h'.bounds
  obtain ⟨η, hη⟩ : ∃ η, η = (δ + ε) / (1 - ε) := ⟨_, rfl⟩
  have hparts : η * (1 - ε) = δ + ε := hη ▸ div_mul_cancel₀ _ (by linarith)
  have hη0 : 0 ≤ η := hη ▸ div_nonneg (by linarith) (by linarith)
  rw [← hη]
  refine .of_bounds ?_ ?_
  · rw [le_div_iff₀ hc, mul_div_assoc', div_mul_eq_mul_div, div_le_iff₀ hd]
    rcases le_total η 1 with hle | hge
    · calc (1 - η) * b * c ≤ (1 - η) * b * ((1 + ε) * d) :=
            mul_le_mul_of_nonneg_left hchigh (mul_nonneg (by linarith) hb.le)
        _ = (1 - η) * (1 + ε) * b * d := by ring
        _ ≤ (1 - δ) * b * d := by
          refine mul_le_mul_of_nonneg_right (mul_le_mul_of_nonneg_right ?_ hb.le) hd.le
          linarith [mul_nonneg hη0 hε0]
        _ ≤ a * d := mul_le_mul_of_nonneg_right halow hd.le
    · exact (mul_nonpos_of_nonpos_of_nonneg (mul_nonpos_of_nonpos_of_nonneg (by linarith) hb.le)
        hc.le).trans (mul_nonneg (h.pos hδ hb).le hd.le)
  · rw [div_le_iff₀ hc, mul_div_assoc', div_mul_eq_mul_div, le_div_iff₀ hd]
    calc a * d ≤ (1 + δ) * b * d := mul_le_mul_of_nonneg_right hahigh hd.le
      _ = (1 + η) * (1 - ε) * b * d := by rw [add_mul 1 η, hparts]; ring
      _ = (1 + η) * b * ((1 - ε) * d) := by ring
      _ ≤ (1 + η) * b * c :=
        mul_le_mul_of_nonneg_left hclow (mul_nonneg (by linarith) hb.le)

/-- Of a number that is not subnormal, rounding loses a fixed part. -/
lemma close_nearest (h : 2 ^ (-1022 : ℤ) ≤ q) : Close halfUnit (nearest q) q := by
  have hq : 0 < q := (zpow_two_pos _).trans_le h
  refine (abs_nearest_sub_le_max hq).trans (max_le le_rfl ?_)
  have hsmall : least / 2 = halfUnit * 2 ^ (-1022 : ℤ) := by
    rw [least, halfUnit, ← zpow_add₀ two_ne_zero, div_eq_mul_inv, ← zpow_sub_one₀ two_ne_zero]
    norm_num
  rw [hsmall]
  exact mul_le_mul_of_nonneg_left h halfUnit_pos.le

end Close

/-! ## Numbers that were rounded -/

section Rounded

variable {a b p q : ℚ} {x : Float}

lemma halfUnit_le : halfUnit ≤ 1 / 2 ^ 10 := by
  norm_num [halfUnit]

/-- What is rounded, and not too large, is close to the exact number. -/
lemma RoundsTo.close (h : RoundsTo q x) (hmin : 1 ≤ q) (hmax : 3 / 2 * q < 2 ^ 1024) :
    x.isFinite = true ∧ Close halfUnit (value x) q := by
  have hq : 0 ≤ q := zero_le_one.trans hmin
  have hclose := close_nearest ((zpow_le_one_of_nonpos₀ one_le_two (by norm_num)).trans hmin)
  have hbelow : nearest q ≤ 3 / 2 * q := by
    have := mul_le_mul_of_nonneg_right halfUnit_le hq
    linarith [hclose.bounds.2]
  have hlt : |nearest q| < 2 ^ 1024 := by
    rw [abs_of_nonneg (nearest_nonneg hq)]
    exact hbelow.trans_lt hmax
  obtain ⟨hfinite, hvalue⟩ := h.finite hlt
  exact ⟨hfinite, hvalue ▸ hclose⟩

/-- A product of two numbers that were rounded, -/
lemma close_mul (hq : Close halfUnit q a) (hp : Close halfUnit p b) (ha : 0 < a) (hb : 0 < b) :
    Close (17 / 8 * halfUnit) (q * p) (a * b) := by
  have hpos := halfUnit_pos
  have hle := halfUnit_le
  refine (hq.mul hp (by linarith) (by linarith) ha hb).mono ?_ (mul_pos ha hb).le
  have := mul_le_mul_of_nonneg_left hle hpos.le
  linarith

/-- and a quotient. -/
lemma close_div (hq : Close halfUnit q a) (hp : Close halfUnit p b) (ha : 0 < a) (hb : 0 < b) :
    Close (17 / 8 * halfUnit) (q / p) (a / b) := by
  have hpos := halfUnit_pos
  have hle := halfUnit_le
  refine (hq.div hp (by linarith) (by linarith) ha hb).mono ?_ (div_pos ha hb).le
  rw [div_le_iff₀ (by linarith)]
  have := mul_le_mul_of_nonneg_left hle hpos.le
  linarith

lemma close_nearestFloat {n : ℕ} (hpos : 0 < n) (hn : n ≤ 2 ^ 64) :
    (Decimal.nearestFloat n).isFinite = true
      ∧ Close halfUnit (value (Decimal.nearestFloat n)) n := by
  refine (roundsTo_nearestFloat n).close (by exact_mod_cast hpos) ?_
  have hlimit : (n : ℚ) ≤ 2 ^ 64 := by exact_mod_cast hn
  calc 3 / 2 * (n : ℚ) ≤ 2 ^ 66 := by linarith
    _ < 2 ^ 1024 := pow_lt_pow_right₀ one_lt_two (by norm_num)

end Rounded

/-! ## Powers of ten -/

section Powers

variable {n : ℕ}

/-- **A power of ten is rounded once.** -/
theorem roundsTo_powerOfTen (hn : n ≤ 308) :
    RoundsTo (10 ^ n) (Decimal.powerOfTen n) := by
  have hpos : (0 : ℚ) < 10 ^ n := by positivity
  have hstored : Decimal.powerOfTen n
      = .ofModel (.pack (UnpackedFloat.roundWithAccuracy Format.binary64 .positive
          (2 ^ 53 * 10 ^ n) (-53) .exact)) := by
    have hlarge : ¬(n : ℤ) > 2 ^ Format.binary64.exponentBits := by
      rw [show Format.binary64.exponentBits = 11 from rfl]
      omega
    have hsmall : ¬(n : ℤ) < -(2 ^ Format.binary64.exponentBits + (1 : ℕ).log2) := by
      rw [show Format.binary64.exponentBits = 11 from rfl]
      omega
    rw [Decimal.powerOfTen, Float.Model.ofScientific, UnpackedFloat.ofScientific,
      dif_neg one_ne_zero, if_neg hlarge, if_neg hsmall, if_pos (Int.natCast_nonneg n)]
    rfl
  have hvalue : (10 : ℚ) ^ n = (2 ^ 53 * 10 ^ n : ℕ) * 2 ^ (-53 : ℤ) := by
    have hone : (2 : ℚ) ^ 53 * 2 ^ (-53 : ℤ) = 1 := by norm_num
    calc (10 : ℚ) ^ n = 10 ^ n * (2 ^ 53 * 2 ^ (-53 : ℤ)) := by rw [hone, mul_one]
      _ = (2 ^ 53 * 10 ^ n : ℕ) * 2 ^ (-53 : ℤ) := by push_cast; ring
  have hplace : -53 ≤ lastPlace (10 ^ n) :=
    le_lastPlace hpos (.inr ((zpow_le_one_of_nonpos₀ one_le_two (by norm_num)).trans
      (one_le_pow₀ (by norm_num))))
  rw [hstored]
  refine roundsTo_pack hpos (canonical_roundWithAccuracy .positive hpos ?_ hplace)
  rw [hvalue, mul_div_cancel_right₀ _ (zpow_two_pos _).ne']
  exact sub_self _

lemma close_powerOfTen (hn : n ≤ 308) :
    (Decimal.powerOfTen n).isFinite = true
      ∧ Close halfUnit (value (Decimal.powerOfTen n)) (10 ^ n) := by
  refine (roundsTo_powerOfTen hn).close (one_le_pow₀ (by norm_num)) ?_
  have hle : (10 : ℚ) ^ n ≤ 10 ^ 308 := pow_le_pow_right₀ (by norm_num) hn
  have hpowers : (3 : ℚ) * 10 ^ 308 < 2 * 2 ^ 1024 := by
    exact_mod_cast (by decide +kernel : 3 * 10 ^ 308 < 2 * 2 ^ 1024)
  generalize (2 : ℚ) ^ 1024 = limit at hpowers ⊢
  generalize (10 : ℚ) ^ 308 = most at hpowers hle
  linarith

/-- The smaller ones need no rounding. -/
lemma value_powerOfTen (hn : n ≤ 22) :
    (Decimal.powerOfTen n).isFinite = true ∧ value (Decimal.powerOfTen n) = 10 ^ n := by
  have hsplit : (10 : ℚ) ^ n = ((5 ^ n : ℕ) : ℤ) * 2 ^ (n : ℤ) := by
    rw [zpow_natCast, Int.cast_natCast, Nat.cast_pow, ← mul_pow]
    norm_num
  have hround := roundsTo_powerOfTen (n := n) (by omega)
  rw [hsplit] at hround ⊢
  refine hround.of_dyadic ?_ (by omega) (by omega)
  rw [Int.abs_natCast]
  exact_mod_cast (Nat.pow_le_pow_right (by norm_num) hn).trans (by norm_num : 5 ^ 22 ≤ 2 ^ 53)

end Powers

end FramePacing.Binary
