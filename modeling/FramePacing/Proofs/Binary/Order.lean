import FramePacing.Proofs.Binary.Packed
import Mathlib.Order.Compare

/-!
# The order of floats

`value` is the exact number that a finite float stands for.  Floats are compared by it, apart from
those that are not numbers.

* `le_iff_value_le`, `lt_iff_value_lt` — comparing finite floats is comparing their values.
* `not_le_iff_lt` — any two floats that are numbers can be compared, the infinite ones included.
* `toBits_le_iff` — for floats without a sign it is the order of their bits, and `eq_of_value_eq`:
  there is one of each value.
-/

namespace FramePacing.Binary

open Float.Model Float.Model.UnpackedFloat

/-! ## Values -/

/-- A magnitude with its sign. -/
def signed : Sign → ℚ → ℚ
  | .negative, q => -q
  | .positive, q => q

/-- The exact value of a float; zero for those that are not finite. -/
def value (x : Float) : ℚ :=
  match x.toModel.unpack with
  | .finite s m e _ => signed s (m * 2 ^ e)
  | _ => 0

section Value

variable {s s' : Sign} {q q' : ℚ} {u v : UnpackedFloat} {x y : Float}

lemma signed_zero (s : Sign) : signed s 0 = 0 := by
  cases s <;> simp [signed]

lemma Canonical.nonneg (h : Canonical s q u) : 0 ≤ q := by
  rcases h with _ | @⟨m, e, hpos, hlt, hmin, hfull⟩
  · exact le_rfl
  · exact mul_nonneg (Nat.cast_nonneg m) (zpow_two_pos e).le

lemma Canonical.value_eq (h : Canonical s q x.toModel.unpack) : value x = signed s q := by
  rw [value]
  generalize x.toModel.unpack = u at h
  rcases h with _ | ⟨_, _, _, _⟩
  · exact (signed_zero s).symm
  · rfl

lemma Canonical.isFinite (h : Canonical s q x.toModel.unpack) : x.isFinite = true := by
  show x.toModel.unpack.isFinite = true
  generalize x.toModel.unpack = u at h
  cases h <;> rfl

/-! ## Comparing -/

/-- A significand that has all its digits wins with the larger exponent. -/
lemma mul_zpow_lt_of_lt {m n : ℕ} {e f : ℤ} (hm : m < 2 ^ 53) (hn : 2 ^ 52 ≤ n) (hef : e < f) :
    (m : ℚ) * 2 ^ e < n * 2 ^ f := by
  have hmQ : (m : ℚ) < 2 ^ 53 := by exact_mod_cast hm
  have hnQ : (2 : ℚ) ^ 52 ≤ n := by exact_mod_cast hn
  have hstep : (2 : ℚ) * 2 ^ e ≤ 2 ^ f := by
    rw [mul_comm, ← zpow_add_one₀ two_ne_zero]
    exact zpow_le_zpow_right₀ one_le_two (by omega)
  calc (m : ℚ) * 2 ^ e < 2 ^ 53 * 2 ^ e := mul_lt_mul_of_pos_right hmQ (zpow_two_pos e)
    _ = 2 ^ 52 * (2 * 2 ^ e) := by ring
    _ ≤ n * 2 ^ f :=
      mul_le_mul hnQ hstep (mul_pos two_pos (zpow_two_pos e)).le (Nat.cast_nonneg n)

/-- Of two numbers in canonical form, the larger exponent or else the larger significand wins. -/
lemma mul_zpow_lt_mul_zpow_iff {m n : ℕ} {e f : ℤ} (hm : m < 2 ^ 53) (hn : n < 2 ^ 53)
    (he : -1074 ≤ e) (hf : -1074 ≤ f) (hm' : 2 ^ 52 ≤ m ∨ e = -1074)
    (hn' : 2 ^ 52 ≤ n ∨ f = -1074) :
    (m : ℚ) * 2 ^ e < n * 2 ^ f ↔ e < f ∨ e = f ∧ m < n := by
  rcases lt_trichotomy e f with hef | rfl | hef
  · have := mul_zpow_lt_of_lt hm (hn'.resolve_right (by omega)) hef
    simp [hef, this]
  · rw [mul_lt_mul_iff_of_pos_right (zpow_two_pos e)]
    simp
  · have := mul_zpow_lt_of_lt hn (hm'.resolve_right (by omega)) hef
    simp [hef.not_gt, hef.ne', this.le]

lemma compares_then {m n : ℕ} {e f : ℤ} (hm : m < 2 ^ 53) (hn : n < 2 ^ 53)
    (he : -1074 ≤ e) (hf : -1074 ≤ f) (hm' : 2 ^ 52 ≤ m ∨ e = -1074)
    (hn' : 2 ^ 52 ≤ n ∨ f = -1074) :
    ((compare e f).then (compare m n)).Compares ((m : ℚ) * 2 ^ e) (n * 2 ^ f) := by
  have hlt := mul_zpow_lt_mul_zpow_iff hm hn he hf hm' hn'
  have hgt := mul_zpow_lt_mul_zpow_iff hn hm hf he hn' hm'
  rcases lt_trichotomy e f with hef | rfl | hef
  · rw [compare_lt_iff_lt.mpr hef]
    exact hlt.mpr (Or.inl hef)
  · rw [compare_eq_iff_eq.mpr rfl]
    rcases lt_trichotomy m n with hmn | rfl | hmn
    · rw [compare_lt_iff_lt.mpr hmn]
      exact hlt.mpr (Or.inr ⟨rfl, hmn⟩)
    · rw [compare_eq_iff_eq.mpr rfl]
      rfl
    · rw [compare_gt_iff_gt.mpr hmn]
      exact hgt.mpr (Or.inr ⟨rfl, hmn⟩)
  · rw [compare_gt_iff_gt.mpr hef]
    exact hgt.mpr (Or.inl hef)

lemma compares_swap_neg {o : Ordering} {a b : ℚ} (h : o.Compares a b) :
    o.swap.Compares (-a) (-b) := by
  cases o <;> simpa [Ordering.Compares] using h

/-- **Canonical numbers compare as their values do.** -/
theorem Canonical.compares (h : Canonical s q u) (h' : Canonical s' q' v) :
    ∃ o, u.compare v = some o ∧ o.Compares (signed s q) (signed s' q') := by
  rcases h with _ | @⟨m, e, hm, hlt, hmin, hfull⟩
  · rcases h' with _ | @⟨n, f, hn, hlt', hmin', hfull'⟩
    · exact ⟨.eq, rfl, by simp [Ordering.Compares, signed_zero]⟩
    · have hpos : (0 : ℚ) < n * 2 ^ f := mul_pos (by exact_mod_cast hn) (zpow_two_pos f)
      cases s'
      · exact ⟨.gt, rfl, by rw [signed_zero]; exact neg_lt_zero.mpr hpos⟩
      · exact ⟨.lt, rfl, by rw [signed_zero]; exact hpos⟩
  · have hpos : (0 : ℚ) < m * 2 ^ e := mul_pos (by exact_mod_cast hm) (zpow_two_pos e)
    rcases h' with _ | @⟨n, f, hn, hlt', hmin', hfull'⟩
    · cases s
      · exact ⟨.lt, rfl, by rw [signed_zero]; exact neg_lt_zero.mpr hpos⟩
      · exact ⟨.gt, rfl, by rw [signed_zero]; exact hpos⟩
    · have hpos' : (0 : ℚ) < n * 2 ^ f := mul_pos (by exact_mod_cast hn) (zpow_two_pos f)
      have hthen := compares_then hlt hlt' hmin hmin' hfull hfull'
      cases s <;> cases s'
      · exact ⟨_, rfl, compares_swap_neg hthen⟩
      · exact ⟨.lt, rfl, by simp only [Ordering.Compares, signed]; linarith⟩
      · exact ⟨.gt, rfl, by simp only [Ordering.Compares, signed]; linarith⟩
      · exact ⟨_, rfl, hthen⟩

lemma lt_iff_compare : x < y ↔ x.toModel.unpack.compare y.toModel.unpack = some .lt := by
  show (decide (x.toModel < y.toModel)) = true ↔ _
  rw [decide_eq_true_iff]
  show (x.toModel.unpack.compare y.toModel.unpack == some .lt) = true ↔ _
  exact beq_iff_eq

lemma le_iff_compare :
    x ≤ y ↔ ∃ o, x.toModel.unpack.compare y.toModel.unpack = some o ∧ o ≠ .gt := by
  show (decide (x.toModel ≤ y.toModel)) = true ↔ _
  rw [decide_eq_true_iff]
  show ((x.toModel.unpack.compare y.toModel.unpack).any (·.isLE)) = true ↔ _
  rw [Option.any_eq_true]
  simp only [Ordering.isLE_iff_ne_gt]

/-- **Finite floats are compared by value.** -/
theorem lt_iff_value_lt (hx : x.isFinite = true) (hy : y.isFinite = true) :
    x < y ↔ value x < value y := by
  obtain ⟨s, q, h, -⟩ := exists_canonical hx
  obtain ⟨s', q', h', -⟩ := exists_canonical hy
  obtain ⟨o, ho, hcompares⟩ := h.compares h'
  rw [lt_iff_compare, ho, h.value_eq, h'.value_eq, Option.some_inj, hcompares.eq_lt]

theorem le_iff_value_le (hx : x.isFinite = true) (hy : y.isFinite = true) :
    x ≤ y ↔ value x ≤ value y := by
  obtain ⟨s, q, h, -⟩ := exists_canonical hx
  obtain ⟨s', q', h', -⟩ := exists_canonical hy
  obtain ⟨o, ho, hcompares⟩ := h.compares h'
  rw [le_iff_compare, ho, h.value_eq, h'.value_eq, ← not_lt, ← hcompares.eq_gt]
  simp

lemma compare_eq_some_swap (hu : u.isNaN = false) (hv : v.isNaN = false) :
    ∃ o : Ordering, u.compare v = some o ∧ v.compare u = some o.swap := by
  rcases u with s | _ | s | ⟨s, m, e, _⟩
  · rcases v with s' | _ | s' | ⟨s', n, f, _⟩
    · exact ⟨compare s s', by cases s <;> cases s' <;> exact ⟨rfl, rfl⟩⟩
    · cases hv
    all_goals cases s <;> exact ⟨_, rfl, rfl⟩
  · cases hu
  · rcases v with s' | _ | s' | ⟨s', n, f, _⟩
    · cases s' <;> exact ⟨_, rfl, rfl⟩
    · cases hv
    · exact ⟨_, rfl, rfl⟩
    · cases s' <;> exact ⟨_, rfl, rfl⟩
  · rcases v with s' | _ | s' | ⟨s', n, f, _⟩
    · cases s' <;> exact ⟨_, rfl, rfl⟩
    · cases hv
    · cases s <;> exact ⟨_, rfl, rfl⟩
    · have hswap : (compare f e).then (compare n m) = ((compare e f).then (compare m n)).swap := by
        rw [Ordering.swap_then, Int.compare_swap, Nat.compare_swap]
      cases s <;> cases s'
      · exact ⟨_, rfl, congrArg (some ∘ Ordering.swap) hswap⟩
      · exact ⟨_, rfl, rfl⟩
      · exact ⟨_, rfl, rfl⟩
      · exact ⟨_, rfl, congrArg some hswap⟩

/-- **Two floats can be compared** unless one of them is not a number. -/
theorem not_le_iff_lt (hx : x.isNaN = false) (hy : y.isNaN = false) : ¬x ≤ y ↔ y < x := by
  obtain ⟨o, ho, hswap⟩ :=
    compare_eq_some_swap (u := x.toModel.unpack) (v := y.toModel.unpack) hx hy
  rw [le_iff_compare, lt_iff_compare, ho, hswap]
  cases o <;> simp

/-- Nothing is less than what is not a number. -/
lemma isNaN_of_lt (h : x < y) : y.isNaN = false := by
  rw [lt_iff_compare] at h
  show y.toModel.unpack.isNaN = false
  generalize x.toModel.unpack = u at h
  generalize y.toModel.unpack = v at h
  cases v with
  | notANumber => cases u <;> cases h
  | _ => rfl

/-- What is larger is not equal. -/
lemma beq_eq_false_of_lt (hx : x.isNaN = false) (h : x < y) : (y == x) = false := by
  obtain ⟨o, ho, hswap⟩ :=
    compare_eq_some_swap (u := x.toModel.unpack) (v := y.toModel.unpack) hx (isNaN_of_lt h)
  rw [lt_iff_compare, ho, Option.some_inj] at h
  show (y.toModel.unpack.compare x.toModel.unpack == some .eq) = false
  rw [hswap, h]
  rfl

/-- What is positive, and not above a finite number, is finite. -/
lemma isFinite_of_le (hpos : 0 < x) (hle : x ≤ y) (hy : y.isFinite = true) :
    x.isFinite = true := by
  obtain ⟨s, q, h, -⟩ := exists_canonical hy
  obtain ⟨o, ho, hne⟩ := le_iff_compare.mp hle
  rw [lt_iff_compare] at hpos
  show x.toModel.unpack.isFinite = true
  generalize x.toModel.unpack = u at hpos ho
  generalize y.toModel.unpack = v at h ho
  cases u with
  | notANumber => cases hpos
  | infinity sign =>
    cases sign with
    | negative => cases hpos
    | positive => cases h <;> cases ho <;> exact absurd rfl hne
  | zero => rfl
  | finite => rfl

/-! ## Bits -/

/-- **Without a sign, the order of the bits is the order of the values.** -/
theorem toBits_le_iff (h : Canonical .positive q x.toModel.unpack)
    (h' : Canonical .positive q' y.toModel.unpack) : x.toBits ≤ y.toBits ↔ q ≤ q' := by
  obtain ⟨m, e, rfl, hm, he, hfull, hx⟩ := toNat_toBits h
  obtain ⟨n, f, rfl, hn, hf, hfull', hy⟩ := toNat_toBits h'
  have hlt := mul_zpow_lt_mul_zpow_iff hn hm hf he hfull' hfull
  rw [UInt64.le_iff_toNat_le, ← not_lt, ← not_lt, hlt]
  omega

lemma eq_of_toBits_eq (h : x.toBits = y.toBits) : x = y := by
  obtain ⟨⟨b, _⟩⟩ := x
  obtain ⟨⟨c, _⟩⟩ := y
  obtain rfl : b = c := h
  rfl

/-- There is one float without a sign of each value. -/
theorem eq_of_canonical (h : Canonical .positive q x.toModel.unpack)
    (h' : Canonical .positive q y.toModel.unpack) : x = y :=
  eq_of_toBits_eq (UInt64.le_antisymm ((toBits_le_iff h h').mpr le_rfl)
    ((toBits_le_iff h' h).mpr le_rfl))

lemma canonical_of_value_pos (hx : x.isFinite = true) (hpos : 0 < value x) :
    Canonical .positive (value x) x.toModel.unpack := by
  obtain ⟨s, q, h, -⟩ := exists_canonical hx
  have hq := h.nonneg
  rw [h.value_eq] at hpos ⊢
  cases s with
  | positive => exact h
  | negative =>
    rw [signed] at hpos
    linarith

/-- A positive float is known by its value. -/
theorem eq_of_value_eq (hx : x.isFinite = true) (hy : y.isFinite = true) (hpos : 0 < value x)
    (h : value x = value y) : x = y := by
  have hcanonical := canonical_of_value_pos hy (h ▸ hpos)
  rw [← h] at hcanonical
  exact eq_of_canonical (canonical_of_value_pos hx hpos) hcanonical

end Value

end FramePacing.Binary
