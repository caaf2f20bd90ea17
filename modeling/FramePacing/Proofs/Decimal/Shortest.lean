import FramePacing.Decimal.Shortest
import FramePacing.Proofs.Binary.Errors
import Mathlib.Tactic.Positivity

/-!
# The shortest digits of a float

The interval of a float is described by natural numbers, in a unit that changes from grid to grid.
Here it is compared with the rational numbers that round to the float.  A decimal in the interval
rounds to the float; and on a grid that is fine enough there always is one, so that the shortest
decimal exists and has less than twenty times as many steps as the float has units.

* `exists_stored` — positive floats and the magnitudes that they hold.
* `readsBack_iff` — what lies in the interval.
* `nearest_of_readsBack` — a decimal in the interval rounds to the float.
* `isShortest` — the shortest decimal exists, lies in the interval and is small.
-/

namespace FramePacing.Decimal

open Binary

/-- The number that a decimal is. -/
def Scaled.value (d : Scaled) : ℚ := d.coefficient * 10 ^ d.exponent

namespace Magnitude

/-- The number that a magnitude is. -/
def value (x : Magnitude) : ℚ := x.significand * 2 ^ x.exponent

/-- The unit in the last place of a magnitude. -/
def unit (x : Magnitude) : ℚ := 2 ^ x.exponent

lemma unit_pos (x : Magnitude) : 0 < x.unit := zpow_two_pos _

/-- That a magnitude is one in the form in which positive floats hold theirs. -/
structure Stored (x : Magnitude) : Prop where
  pos : 0 < x.significand
  lt : x.significand < 2 ^ 53
  min : -1074 ≤ x.exponent
  max : x.exponent ≤ 971
  full : 2 ^ 52 ≤ x.significand ∨ x.exponent = -1074

variable {x : Magnitude} {k : ℤ} {c : ℕ} {tie : Tie}

/-- It is the quotient of two natural numbers. -/
lemma numerator_div_denominator (x : Magnitude) : (x.numerator : ℚ) / x.denominator = x.value := by
  have hpow : ∀ n : ℕ, ((Nat.pow 2 n : ℕ) : ℚ) = 2 ^ (n : ℤ) := by
    intro n
    rw [zpow_natCast]
    exact Nat.cast_pow 2 n
  rw [numerator, denominator, binaryPlaces, Nat.cast_mul, hpow, hpow, mul_div_assoc,
    ← zpow_sub₀ two_ne_zero, value]
  congr 2
  omega

/-! ## Floats -/

/-- A float without a sign has the value of its magnitude. -/
lemma value_of_ofFloat {y : Float} (h : Reading.ofFloat y = .finite false x) :
    y.isFinite = true ∧ Binary.value y = x.value := by
  rw [Reading.ofFloat] at h
  change y.toModel.unpack.isFinite = true ∧ _
  rw [Binary.value]
  split at h
  next => cases h
  next => cases h
  next hy =>
    obtain ⟨-, rfl⟩ := Reading.finite.inj h
    rw [hy, value]
    exact ⟨rfl, by simp⟩
  next sign m e hpos hy =>
    obtain ⟨hsign, rfl⟩ := Reading.finite.inj h
    rw [hy]
    cases sign with
    | negative => cases hsign
    | positive => exact ⟨rfl, rfl⟩

/-- **A positive float is held as its significand and exponent.** -/
theorem exists_stored {y : Float} (hy : y.isFinite = true) (hpos : 0 < Binary.value y) :
    ∃ x : Magnitude, Reading.ofFloat y = .finite false x ∧ x.Stored := by
  have h := canonical_of_value_pos hy hpos
  have hlt := (le_abs_self _).trans_lt (abs_value_lt hy)
  rw [Reading.ofFloat]
  generalize Binary.value y = q at h hpos hlt
  generalize y.toModel.unpack = u at h
  rcases h with _ | @⟨m, e, hm, hltm, hmin, hfull⟩
  · exact absurd hpos (lt_irrefl _)
  · exact ⟨⟨m, e⟩, rfl, hm, hltm, hmin, (mul_zpow_lt_iff hltm hfull).mp hlt, hfull⟩

lemma Stored.value_pos (hx : x.Stored) : 0 < x.value :=
  mul_pos (by exact_mod_cast hx.pos) (zpow_two_pos _)

/-- The unit is that of the last place. -/
lemma lastPlace_value (hx : x.Stored) : lastPlace x.value = x.exponent := by
  refine le_antisymm (lastPlace_le hx.value_pos hx.min ?_) (le_lastPlace hx.value_pos ?_)
  · rw [zpow_add₀ two_ne_zero, mul_comm]
    exact mul_lt_mul_of_pos_right (by exact_mod_cast hx.lt) (zpow_two_pos _)
  · refine hx.full.symm.imp Eq.le fun hfull => ?_
    rw [zpow_add₀ two_ne_zero]
    exact mul_le_mul_of_nonneg_right (by exact_mod_cast hfull) (zpow_two_pos _).le

/-! ## The interval -/

/-- The number of small units in one, on the grid of `10 ^ k`. -/
def small (x : Magnitude) (k : ℤ) : ℚ := 10 ^ (-k).toNat * 2 ^ (2 - x.exponent).toNat

lemma small_pos (x : Magnitude) (k : ℤ) : 0 < x.small k := by
  unfold small
  positivity

lemma cast_step (x : Magnitude) (k : ℤ) : (x.step k : ℚ) = 10 ^ k * x.small k := by
  have hten : (10 : ℚ) ^ k.toNat = 10 ^ k * 10 ^ (-k).toNat := by
    rw [← zpow_natCast, ← zpow_natCast, ← zpow_add₀ (by norm_num)]
    congr 1
    omega
  rw [step, small, Nat.pow_eq, Nat.pow_eq]
  push_cast
  rw [hten, mul_assoc]

lemma cast_quarter (x : Magnitude) (k : ℤ) : (x.quarter k : ℚ) = x.unit / 4 * x.small k := by
  have htwo : (2 : ℚ) ^ (x.exponent - 2).toNat = x.unit / 4 * 2 ^ (2 - x.exponent).toNat := by
    rw [unit, show (4 : ℚ) = 2 ^ (2 : ℤ) by norm_num, ← zpow_sub₀ two_ne_zero, ← zpow_natCast,
      ← zpow_natCast, ← zpow_add₀ two_ne_zero]
    congr 1
    omega
  rw [quarter, small, Nat.pow_eq, Nat.pow_eq]
  push_cast
  rw [htwo]
  ring

/-- The lower end of the interval. -/
def low (x : Magnitude) : ℚ := (x.significand - x.reachBelow / 4) * x.unit

/-- The upper end of the interval. -/
def high (x : Magnitude) : ℚ := (x.significand + 1 / 2) * x.unit

lemma reachBelow_le (x : Magnitude) : x.reachBelow ≤ 2 := by
  rw [reachBelow]
  split <;> norm_num

lemma one_le_reachBelow (x : Magnitude) : 1 ≤ x.reachBelow := by
  rw [reachBelow]
  split <;> norm_num

/-- **What lies in the interval.**  Its ends do if the significand is even. -/
theorem readsBack_iff (h : 0 < x.significand) :
    x.readsBack k c = true ↔
      if x.significand % 2 = 0 then x.low ≤ c * 10 ^ k ∧ c * 10 ^ k ≤ x.high
      else x.low < c * 10 ^ k ∧ c * 10 ^ k < x.high := by
  have hpos := x.small_pos k
  have hreach := x.reachBelow_le
  have hpoint : ((c * x.step k : ℕ) : ℚ) = c * 10 ^ k * x.small k := by
    rw [Nat.cast_mul, cast_step, mul_assoc]
  have hlow : (((4 * x.significand - x.reachBelow) * x.quarter k : ℕ) : ℚ)
      = x.low * x.small k := by
    rw [Nat.cast_mul, cast_quarter, Nat.cast_sub (by omega), low]
    push_cast
    ring
  have hhigh : (((4 * x.significand + 2) * x.quarter k : ℕ) : ℚ) = x.high * x.small k := by
    rw [Nat.cast_mul, cast_quarter, high]
    push_cast
    ring
  rw [readsBack]
  split
  · rw [Bool.and_eq_true, decide_eq_true_iff, decide_eq_true_iff, ← Nat.cast_le (α := ℚ),
      ← Nat.cast_le (α := ℚ), hpoint, hlow, hhigh, mul_le_mul_iff_of_pos_right hpos,
      mul_le_mul_iff_of_pos_right hpos]
  · rw [Bool.and_eq_true, decide_eq_true_iff, decide_eq_true_iff, ← Nat.cast_lt (α := ℚ),
      ← Nat.cast_lt (α := ℚ), hpoint, hlow, hhigh, mul_lt_mul_iff_of_pos_right hpos,
      mul_lt_mul_iff_of_pos_right hpos]

lemma bounds_of_readsBack (hx : 0 < x.significand) (h : x.readsBack k c = true) :
    x.low ≤ c * 10 ^ k ∧ c * 10 ^ k ≤ x.high := by
  have hends := (readsBack_iff hx).mp h
  split at hends
  · exact hends
  · exact hends.imp LT.lt.le LT.lt.le

lemma low_le_value (x : Magnitude) : x.value - x.unit / 2 ≤ x.low := by
  have hreach : (x.reachBelow : ℚ) ≤ 2 := by exact_mod_cast x.reachBelow_le
  have hle := mul_le_mul_of_nonneg_right hreach x.unit_pos.le
  rw [low, value, ← unit]
  linarith

lemma high_eq (x : Magnitude) : x.high = x.value + x.unit / 2 := by
  rw [high, value, ← unit]
  ring

/-- A decimal in the interval is half a unit away at most. -/
lemma abs_sub_value_le (hx : 0 < x.significand) (h : x.readsBack k c = true) :
    |c * 10 ^ k - x.value| ≤ x.unit / 2 := by
  obtain ⟨hlow, hhigh⟩ := bounds_of_readsBack hx h
  have := x.low_le_value
  have := x.high_eq
  exact abs_le.mpr ⟨by linarith, by linarith⟩

lemma unit_le_value (hx : 0 < x.significand) : x.unit ≤ x.value := by
  have hone : (1 : ℚ) ≤ x.significand := by exact_mod_cast hx
  rw [value, ← unit]
  linarith [mul_le_mul_of_nonneg_right hone x.unit_pos.le]

lemma low_pos (hx : 0 < x.significand) : 0 < x.low := by
  linarith [x.low_le_value, unit_le_value hx, x.unit_pos]

lemma high_lt (hx : x.significand < 2 ^ 53) : x.high < 2 ^ 53 * x.unit := by
  have hle : (x.significand : ℚ) + 1 ≤ 2 ^ 53 := by exact_mod_cast hx
  rw [high]
  exact mul_lt_mul_of_pos_right (by linarith) x.unit_pos

/-! ## Rounding -/

/-- The interval keeps the distance that rounding at the last place asks for, -/
lemma roundEven_of_readsBack (hx : 0 < x.significand) (h : x.readsBack k c = true) :
    roundEven (c * 10 ^ k / x.unit) = x.significand := by
  have hpos := x.unit_pos
  have hsub : c * 10 ^ k / x.unit - (x.significand : ℤ) = (c * 10 ^ k - x.value) / x.unit := by
    rw [sub_div, value, ← unit, mul_div_cancel_right₀ _ hpos.ne', Int.cast_natCast]
  have hhalf : x.unit / 2 / x.unit = 1 / 2 := by
    rw [div_right_comm, div_self hpos.ne']
  by_cases heven : x.significand % 2 = 0
  · refine roundEven_of_even ?_ (by omega)
    rw [hsub, abs_div, abs_of_pos hpos, ← hhalf]
    exact (div_le_div_iff_of_pos_right hpos).mpr (abs_sub_value_le hx h)
  · refine roundEven_of_lt ?_
    have hends := (readsBack_iff hx).mp h
    rw [if_neg heven] at hends
    have hlow := x.low_le_value
    have hhigh := x.high_eq
    rw [hsub, abs_div, abs_of_pos hpos, ← hhalf]
    exact (div_lt_div_iff_of_pos_right hpos).mpr (abs_lt.mpr ⟨by linarith, by linarith⟩)

/-- and just below a power of two, where the last place is one further down, it does so as well. -/
lemma roundEven_of_readsBack_below (hx : x.significand = 2 ^ 52) (hmin : -1074 < x.exponent)
    (h : x.readsBack k c = true) (hbelow : c * 10 ^ k < 2 ^ 52 * x.unit) :
    roundEven (c * 10 ^ k / (x.unit / 2)) = 2 ^ 53 := by
  have hpos := x.unit_pos
  obtain ⟨hlow, -⟩ := bounds_of_readsBack (hx ▸ by norm_num) h
  have hreach : x.reachBelow = 1 := if_pos ⟨hx, hmin⟩
  rw [low, hreach, hx] at hlow
  push_cast at hlow
  have hge : 2 ^ 53 - 1 / 2 ≤ c * 10 ^ k / (x.unit / 2) :=
    (le_div_iff₀ (half_pos hpos)).mpr (by linarith)
  have hlt : c * 10 ^ k / (x.unit / 2) < 2 ^ 53 :=
    (div_lt_iff₀ (half_pos hpos)).mpr (by linarith)
  refine roundEven_of_even (abs_le.mpr ⟨?_, ?_⟩) (by norm_num) <;> push_cast <;> linarith

/-- **A decimal in the interval rounds to the float.** -/
theorem nearest_of_readsBack (hx : x.Stored) (h : x.readsBack k c = true) :
    nearest (c * 10 ^ k) = x.value := by
  obtain ⟨hlow, hhigh⟩ := bounds_of_readsBack hx.pos h
  have hpoint : 0 < (c : ℚ) * 10 ^ k := (low_pos hx.pos).trans_le hlow
  have hbelow (n : ℕ) : (2 : ℚ) ^ (x.exponent + n) = 2 ^ n * x.unit := by
    rw [unit, zpow_add₀ two_ne_zero, zpow_natCast, mul_comm]
  have hlt : (c : ℚ) * 10 ^ k < 2 ^ (x.exponent + (53 : ℕ)) := by
    rw [hbelow]
    exact hhigh.trans_lt (high_lt hx.lt)
  have hplace := lastPlace_le hpoint hx.min hlt
  rw [nearest_of_pos hpoint, roundPos]
  by_cases hfull : x.exponent = -1074 ∨ 2 ^ 52 * x.unit ≤ c * 10 ^ k
  · -- the last place is that of the float
    have hsame : lastPlace (c * 10 ^ k) = x.exponent := by
      refine le_antisymm hplace (le_lastPlace hpoint (hfull.imp Eq.le fun hle => ?_))
      rwa [add_comm, show (52 : ℤ) = (52 : ℕ) from rfl, hbelow]
    rw [hsame, ← unit, roundEven_of_readsBack hx.pos h, value, ← unit, Int.cast_natCast]
  · -- the float is a power of two, and the last place is one further down
    obtain ⟨hmin, hlt⟩ := not_or.mp hfull
    rw [not_le] at hlt
    have hpower : x.significand = 2 ^ 52 := by
      refine le_antisymm (Nat.lt_succ_iff.mp ?_) (hx.full.resolve_right hmin)
      have hle : (x.significand : ℚ) * x.unit < (2 ^ 52 + 1) * x.unit := by
        have := x.low_le_value
        rw [value, ← unit] at this
        linarith [x.unit_pos]
      exact_mod_cast lt_of_mul_lt_mul_right hle x.unit_pos.le
    have hsame : lastPlace (c * 10 ^ k) = x.exponent - 1 := by
      have hmin' := hx.min
      refine le_antisymm (lastPlace_le hpoint (by omega) ?_) (le_lastPlace hpoint (.inr ?_))
      · rwa [show x.exponent - 1 + 53 = x.exponent + (52 : ℕ) by push_cast; ring, hbelow]
      · have := x.low_le_value
        rw [value, ← unit, hpower] at this
        rw [show 52 + (x.exponent - 1) = x.exponent + (51 : ℕ) by push_cast; ring, hbelow]
        push_cast at this
        linarith [x.unit_pos]
    have hunit : (2 : ℚ) ^ (x.exponent - 1) = x.unit / 2 := by
      rw [unit, zpow_sub_one₀ two_ne_zero, div_eq_mul_inv]
    rw [hsame, hunit, roundEven_of_readsBack_below hpower (by have := hx.min; omega) h hlt, value,
      ← unit, hpower]
    push_cast
    ring

/-! ## The choice -/

lemma cast_value (x : Magnitude) (k : ℤ) :
    ((4 * x.significand * x.quarter k : ℕ) : ℚ) = x.value * x.small k := by
  rw [Nat.cast_mul, cast_quarter, value, ← unit]
  push_cast
  ring

lemma step_pos (x : Magnitude) (k : ℤ) : 0 < x.step k :=
  Nat.mul_pos (Nat.pow_pos (by norm_num)) (Nat.pow_pos (by norm_num))

/-- The nearest point of a grid is half a step away at most. -/
lemma abs_roundDiv_sub_le (x : Magnitude) (tie : Tie) (k : ℤ) :
    |(roundDiv tie (4 * x.significand * x.quarter k) (x.step k) : ℚ) * 10 ^ k - x.value|
      ≤ 10 ^ k / 2 := by
  have hle := two_mul_roundDiv_le tie (4 * x.significand * x.quarter k) (x.step_pos k)
  have hge := le_two_mul_roundDiv tie (4 * x.significand * x.quarter k) (x.step_pos k)
  generalize roundDiv tie (4 * x.significand * x.quarter k) (x.step k) = c at hle hge ⊢
  have hleQ : (2 : ℚ) * (c * x.step k) ≤ 2 * (4 * x.significand * x.quarter k : ℕ) + x.step k := by
    exact_mod_cast hle
  have hgeQ : (2 : ℚ) * (4 * x.significand * x.quarter k : ℕ) ≤ 2 * (c * x.step k) + x.step k := by
    exact_mod_cast hge
  rw [cast_value, cast_step] at hleQ hgeQ
  have hpos := x.small_pos k
  refine abs_le.mpr ⟨?_, ?_⟩
  · refine le_of_mul_le_mul_right ?_ hpos
    linarith
  · refine le_of_mul_le_mul_right ?_ hpos
    linarith

lemma low_le_sub (x : Magnitude) : x.low ≤ x.value - x.unit / 4 := by
  have hreach : (1 : ℚ) ≤ x.reachBelow := by exact_mod_cast x.one_le_reachBelow
  have hle := mul_le_mul_of_nonneg_right hreach x.unit_pos.le
  rw [low, value, ← unit]
  linarith

/-- Below a significand that is odd, the interval reaches down half a unit. -/
lemma low_of_odd (hodd : ¬x.significand % 2 = 0) : x.low = x.value - x.unit / 2 := by
  have hreach : x.reachBelow = 2 := by
    rw [reachBelow, if_neg]
    rintro ⟨hpower, -⟩
    exact hodd (by rw [hpower])
  rw [low, value, ← unit, hreach]
  push_cast
  ring

/-- The nearest point of a grid is one of those that are tried. -/
lemma isSome_onGrid?_of_readsBack
    (h : x.readsBack k (roundDiv tie (4 * x.significand * x.quarter k) (x.step k)) = true) :
    (x.onGrid? tie k).isSome := by
  rw [onGrid?, Option.isSome_map, List.find?_isSome]
  exact ⟨_, List.mem_cons_self, h⟩

/-- A grid with steps of half a unit at most has a point in the interval. -/
lemma isSome_onGrid? (tie : Tie) (hx : 0 < x.significand) (hk : (10 : ℚ) ^ k ≤ x.unit / 2) :
    (x.onGrid? tie k).isSome := by
  have hpos := x.unit_pos
  have hhigh := x.high_eq
  obtain ⟨hdown, hup⟩ := abs_le.mp (x.abs_roundDiv_sub_le tie k)
  refine isSome_onGrid?_of_readsBack ((readsBack_iff hx).mpr ?_)
  split
  next heven =>
    have hlow := x.low_le_sub
    constructor <;> linarith
  next hodd =>
    have hlow := low_of_odd hodd
    constructor <;> linarith

lemma readsBack_of_onGrid? {d : Scaled} (h : x.onGrid? tie k = some d) :
    d.exponent = k ∧ x.readsBack k d.coefficient = true := by
  rw [onGrid?] at h
  obtain ⟨c, hc, rfl⟩ := Option.map_eq_some_iff.mp h
  exact ⟨rfl, List.find?_some hc⟩

lemma pairwise_grids : grids.Pairwise (· > ·) := by
  rw [grids, List.pairwise_map]
  exact List.pairwise_lt_range.imp fun h => by omega

lemma mem_grids_iff : k ∈ grids ↔ -324 ≤ k ∧ k ≤ 308 := by
  rw [grids, List.mem_map]
  constructor
  · rintro ⟨i, hi, rfl⟩
    rw [List.mem_range] at hi
    omega
  · rintro ⟨hmin, hmax⟩
    exact ⟨(308 - k).toNat, List.mem_range.mpr (by omega), by omega⟩

/-- The first grid that has a point is not below one that is known to have one. -/
lemma exists_shortest (hk : k ∈ grids) (hpoint : (x.onGrid? tie k).isSome) :
    k ≤ (x.shortest tie).exponent ∧ (x.shortest tie).exponent ≤ 308
      ∧ x.readsBack (x.shortest tie).exponent (x.shortest tie).coefficient = true := by
  cases hfind : grids.findSome? (x.onGrid? tie) with
  | none =>
    rw [List.findSome?_eq_none_iff.mp hfind k hk] at hpoint
    cases hpoint
  | some d =>
    rw [shortest, hfind, Option.getD_some]
    obtain ⟨before, l, after, hgrids, hl, hbefore⟩ := List.findSome?_eq_some_iff.mp hfind
    obtain ⟨rfl, hreads⟩ := readsBack_of_onGrid? hl
    have hmax : d.exponent ∈ grids := by simp [hgrids]
    refine ⟨?_, (mem_grids_iff.mp hmax).2, hreads⟩
    rw [hgrids, List.mem_append] at hk
    rcases hk with hk | hk
    · rw [hbefore k hk] at hpoint
      cases hpoint
    · rcases List.mem_cons.mp hk with rfl | hk
      · exact le_rfl
      · have hpairs := pairwise_grids
        rw [hgrids] at hpairs
        exact (List.rel_of_pairwise_cons (List.pairwise_append.mp hpairs).2.1 hk).le

/-! ## The shortest decimal -/

/-- A grid that is fine enough but not much finer. -/
lemma exists_grid (hx : x.Stored) :
    ∃ k ∈ grids, (10 : ℚ) ^ k ≤ x.unit / 2 ∧ x.unit / 2 < 10 * 10 ^ k := by
  have hpos := half_pos x.unit_pos
  have hmin := hx.min
  have hmax := hx.max
  refine ⟨Int.log 10 (x.unit / 2), mem_grids_iff.mpr ⟨?_, ?_⟩, ?_, ?_⟩
  · rw [← Int.zpow_le_iff_le_log (by norm_num) hpos]
    have hunit : (2 : ℚ) ^ (-1074 : ℤ) ≤ x.unit := zpow_le_zpow_right₀ one_le_two hmin
    have hleast : ((10 : ℕ) : ℚ) ^ (-(324 : ℕ) : ℤ) ≤ 2 ^ (-1074 : ℤ) / 2 := by
      have hpowers : (2 : ℚ) ^ 1075 ≤ 10 ^ 324 := by
        exact_mod_cast (by decide +kernel : 2 ^ 1075 ≤ 10 ^ 324)
      rw [div_eq_mul_inv, ← zpow_sub_one₀ two_ne_zero, zpow_neg, zpow_natCast,
        show (-1074 - 1 : ℤ) = -(1075 : ℕ) by norm_num, zpow_neg, zpow_natCast]
      exact inv_anti₀ (by norm_num) (by exact_mod_cast hpowers)
    exact hleast.trans (by linarith)
  · rw [← Int.lt_add_one_iff, ← Int.lt_zpow_iff_log_lt (by norm_num) hpos]
    have hunit : x.unit ≤ (2 : ℚ) ^ (971 : ℤ) := zpow_le_zpow_right₀ one_le_two hmax
    have hmost : (2 : ℚ) ^ (971 : ℤ) < ((10 : ℕ) : ℚ) ^ (308 + 1 : ℤ) := by
      have hpowers : (2 : ℕ) ^ 971 < 10 ^ 309 := by decide +kernel
      rw [show (971 : ℤ) = (971 : ℕ) from rfl, show (308 + 1 : ℤ) = (309 : ℕ) from rfl,
        zpow_natCast, zpow_natCast]
      exact_mod_cast hpowers
    exact (half_le_self x.unit_pos.le).trans_lt (hunit.trans_lt hmost)
  · simpa using Int.zpow_log_le_self (b := 10) (by norm_num) hpos
  · have := Int.lt_zpow_succ_log_self (b := 10) (by norm_num) (x.unit / 2)
    rw [zpow_add_one₀ (by norm_num)] at this
    push_cast at this
    linarith

/-- What there is to know of the shortest decimal of a float. -/
structure IsShortest (x : Magnitude) (d : Scaled) : Prop where
  readsBack : x.readsBack d.exponent d.coefficient = true
  pos : 0 < d.coefficient
  lt : d.coefficient < 20 * 2 ^ 53
  min : -324 ≤ d.exponent
  max : d.exponent ≤ 308

/-- **The shortest decimal exists**, and is small. -/
theorem isShortest (hx : x.Stored) (tie : Tie) : x.IsShortest (x.shortest tie) := by
  obtain ⟨k, hk, hle, hlt⟩ := exists_grid hx
  obtain ⟨hmin, hmax, hreads⟩ := exists_shortest hk (isSome_onGrid? tie hx.pos hle)
  obtain ⟨hlow, hhigh⟩ := bounds_of_readsBack hx.pos hreads
  generalize x.shortest tie = d at hmin hmax hreads hlow hhigh
  have hten : (0 : ℚ) < 10 ^ d.exponent := zpow_pos (by norm_num) _
  have hpos : (0 : ℚ) < d.coefficient :=
    pos_of_mul_pos_left ((low_pos hx.pos).trans_le hlow) hten.le
  refine ⟨hreads, by exact_mod_cast hpos, ?_, (mem_grids_iff.mp hk).1.trans hmin, hmax⟩
  have hgrid : x.unit / 20 ≤ 10 ^ d.exponent := by
    have := zpow_le_zpow_right₀ (show (1 : ℚ) ≤ 10 by norm_num) hmin
    linarith
  have hlt : (d.coefficient : ℚ) * (x.unit / 20) < 20 * 2 ^ 53 * (x.unit / 20) := by
    have := mul_le_mul_of_nonneg_left hgrid hpos.le
    have := high_lt hx.lt
    linarith
  exact_mod_cast lt_of_mul_lt_mul_right hlt (div_pos x.unit_pos (by norm_num)).le

end Magnitude

end FramePacing.Decimal
