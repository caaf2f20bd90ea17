import FramePacing.Proofs.Binary.Arithmetic

/-!
# The least float

All finite floats are whole numbers of one unit, `least`, the least float above zero.  So no two of
them are nearer to each other than that, and small enough sums of it are exact.  Rounding leaves
nothing of half a unit, and something of anything above.

* `value_add_least_le` — a larger float is larger by a unit at least.
* `nearest_pos_iff` — what is left of a number when it is rounded.
-/

namespace FramePacing.Binary

open Float.Model

/-- The least float above zero. -/
def least : ℚ := 2 ^ (-1074 : ℤ)

lemma least_pos : 0 < least := zpow_two_pos _

section Unit

variable {x y : Float}

lemma exists_mul_least (hx : x.isFinite = true) : ∃ n : ℤ, value x = n * least := by
  obtain ⟨s, q, h, -⟩ := exists_canonical hx
  rw [h.value_eq]
  generalize x.toModel.unpack = u at h
  rcases h with _ | @⟨m, e, hpos, hlt, hmin, hfull⟩
  · exact ⟨0, by rw [signed_zero, Int.cast_zero, zero_mul]⟩
  · have hunits := mul_zpow_two_eq m hmin
    rw [Int.cast_natCast] at hunits
    rw [hunits]
    cases s
    · exact ⟨_, by rw [signed, ← neg_mul, ← Int.cast_neg]; rfl⟩
    · exact ⟨_, rfl⟩

/-- **No float lies between two neighbouring units.** -/
lemma value_add_least_le (hx : x.isFinite = true) (hy : y.isFinite = true)
    (h : value x < value y) : value x + least ≤ value y := by
  obtain ⟨m, hm⟩ := exists_mul_least hx
  obtain ⟨n, hn⟩ := exists_mul_least hy
  rw [hm, hn] at h ⊢
  have hmn : (m : ℚ) + 1 ≤ n := by exact_mod_cast lt_of_mul_lt_mul_right h least_pos.le
  calc (m : ℚ) * least + least = (m + 1) * least := by ring
    _ ≤ n * least := mul_le_mul_of_nonneg_right hmn least_pos.le

lemma least_le_value (hx : x.isFinite = true) (h : 0 < value x) : least ≤ value x := by
  obtain ⟨n, hn⟩ := exists_mul_least hx
  rw [hn] at h ⊢
  have hone : (1 : ℚ) ≤ n := by exact_mod_cast pos_of_mul_pos_left h least_pos.le
  linarith [mul_le_mul_of_nonneg_right hone least_pos.le]

lemma nearest_mul_least {n : ℕ} (h : n ≤ 2 ^ 53) : nearest (n * least) = n * least := by
  have hexact := nearest_dyadic n (k := -1074) (by rw [Int.abs_natCast]; exact_mod_cast h) le_rfl
  rwa [Int.cast_natCast] at hexact

end Unit

/-! ## What rounding leaves -/

section Round

variable {q : ℚ}

lemma roundEven_pos_iff : 0 < roundEven q ↔ 1 / 2 < q := by
  constructor
  · contrapose!
    intro h
    refine (roundEven_mono h).trans ?_
    norm_num [roundEven]
  · intro h
    rcases lt_or_ge q 1 with hlt | hge
    · have hfloor : ⌊q⌋ = 0 := Int.floor_eq_iff.mpr ⟨by norm_num; linarith, by norm_num; linarith⟩
      rw [roundEven, hfloor, Int.cast_zero, sub_zero, if_neg (not_lt.mpr h.le), if_pos h]
      norm_num
    · have hone := roundEven_mono hge
      rw [← Int.cast_one, roundEven_intCast] at hone
      omega

/-- **Rounding leaves something** of anything above half a unit. -/
theorem nearest_pos_iff : 0 < nearest q ↔ least / 2 < q := by
  have hleast := least_pos
  rcases le_or_gt q 0 with hq | hq
  · have hnearest := nearest_mono hq
    rw [nearest_zero] at hnearest
    constructor <;> intro h <;> linarith
  rcases lt_or_ge q least with hlt | hge
  · have hbelow : q < 2 ^ (-1074 + 53 : ℤ) :=
      hlt.trans (zpow_lt_zpow_right₀ one_lt_two (by norm_num))
    have hplace : lastPlace q = -1074 :=
      le_antisymm (lastPlace_le hq le_rfl hbelow) (le_max_right _ _)
    rw [nearest_of_pos hq, roundPos, hplace, mul_pos_iff_of_pos_right (zpow_two_pos _),
      Int.cast_pos, roundEven_pos_iff, lt_div_iff₀ (zpow_two_pos _), one_div_mul_eq_div]
    rfl
  · have hone := nearest_mul_least (n := 1) (by norm_num)
    rw [Nat.cast_one, one_mul] at hone
    have hnearest := nearest_mono hge
    rw [hone] at hnearest
    constructor <;> intro _ <;> linarith

/-- Rounding does not double a number. -/
lemma nearest_lt_two_mul (h : 1 ≤ q) : nearest q < 2 * q := by
  have hq : 0 < q := by linarith
  have hlog : 0 ≤ Int.log 2 q := by
    rw [← Int.zpow_le_iff_le_log Nat.one_lt_two hq]
    simpa using h
  have hplace : lastPlace q = Int.log 2 q - 52 := max_eq_left (by omega)
  have hpos := zpow_two_pos (lastPlace q)
  have hunit : 2 ^ lastPlace q < q := by
    calc (2 : ℚ) ^ lastPlace q < 2 ^ Int.log 2 q := zpow_lt_zpow_right₀ one_lt_two (by omega)
      _ ≤ q := by simpa using Int.zpow_log_le_self Nat.one_lt_two hq
  have hround : (roundEven (q / 2 ^ lastPlace q) : ℚ) ≤ q / 2 ^ lastPlace q + 1 := by
    have hfloor := Int.floor_le (q / 2 ^ lastPlace q)
    have hceil : (roundEven (q / 2 ^ lastPlace q) : ℚ) ≤ ⌊q / 2 ^ lastPlace q⌋ + 1 := by
      exact_mod_cast roundEven_le_floor_add_one _
    linarith
  calc nearest q = roundEven (q / 2 ^ lastPlace q) * 2 ^ lastPlace q := nearest_of_pos hq
    _ ≤ (q / 2 ^ lastPlace q + 1) * 2 ^ lastPlace q := mul_le_mul_of_nonneg_right hround hpos.le
    _ = q + 2 ^ lastPlace q := by rw [add_mul, div_mul_cancel₀ _ hpos.ne', one_mul]
    _ < 2 * q := by linarith

end Round

end FramePacing.Binary
