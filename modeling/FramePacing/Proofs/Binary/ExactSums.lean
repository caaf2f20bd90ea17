import FramePacing.Proofs.Binary.Arithmetic
import Mathlib.Algebra.Order.BigOperators.Group.List

/-!
# Sums without rounding

Floats that are all whole numbers of one unit `2 ^ -k` are added exactly, as long as the sum is at
most `2 ^ 53` of it: no partial sum is larger, and so none needs more than 53 digits.

* `AddsExactly` — lists of such floats.
* `AddsExactly.value_foldl` — adding them up from left to right gives the sum of the values.
-/

namespace FramePacing.Binary

/-- Floats that are added without rounding: whole numbers of one unit, and not too many of it. -/
structure AddsExactly (k : ℕ) (xs : List Float) : Prop where
  unit_le : k ≤ 1000
  isFinite : ∀ x ∈ xs, x.isFinite = true
  multiple : ∀ x ∈ xs, ∃ m : ℕ, value x = m * 2 ^ (-k : ℤ)
  sum_le : (xs.map value).sum ≤ 2 ^ 53 * 2 ^ (-k : ℤ)

variable {k : ℕ} {x y : Float} {xs ys : List Float}

lemma AddsExactly.map_value_nonneg (h : AddsExactly k xs) : ∀ q ∈ xs.map value, 0 ≤ q := by
  rw [List.forall_mem_map]
  intro x hx
  obtain ⟨m, hm⟩ := h.multiple x hx
  rw [hm]
  exact mul_nonneg (Nat.cast_nonneg m) (zpow_two_pos _).le

lemma AddsExactly.sublist (h : AddsExactly k xs) (hsub : ys.Sublist xs) : AddsExactly k ys where
  unit_le := h.unit_le
  isFinite y hy := h.isFinite y (hsub.subset hy)
  multiple y hy := h.multiple y (hsub.subset hy)
  sum_le := ((hsub.map value).sum_le_sum h.map_value_nonneg).trans h.sum_le

lemma AddsExactly.perm (h : AddsExactly k xs) (hperm : ys.Perm xs) : AddsExactly k ys where
  unit_le := h.unit_le
  isFinite y hy := h.isFinite y (hperm.subset hy)
  multiple y hy := h.multiple y (hperm.subset hy)
  sum_le := (hperm.map value).sum_eq.trans_le h.sum_le

/-- The sum of the first two is a whole number of the unit too, … -/
lemma AddsExactly.add_eq (h : AddsExactly k (x :: y :: xs)) :
    ∃ m : ℕ, value x + value y = m * 2 ^ (-k : ℤ) := by
  obtain ⟨m, hm⟩ := h.multiple x (by simp)
  obtain ⟨n, hn⟩ := h.multiple y (by simp)
  refine ⟨m + n, ?_⟩
  rw [hm, hn]
  push_cast
  ring

/-- … and needs no rounding, … -/
lemma AddsExactly.value_add (h : AddsExactly k (x :: y :: xs)) :
    (x + y).isFinite = true ∧ value (x + y) = value x + value y := by
  obtain ⟨m, hm⟩ := h.add_eq
  have hunit := h.unit_le
  have hbound : (m : ℚ) ≤ 2 ^ 53 := by
    have hsum := (h.sublist (((List.nil_sublist xs).cons_cons y).cons_cons x)).sum_le
    simp only [List.map_cons, List.map_nil, List.sum_cons, List.sum_nil, add_zero] at hsum
    rw [hm] at hsum
    exact le_of_mul_le_mul_right hsum (zpow_two_pos _)
  have hround := roundsTo_add (h.isFinite x (by simp)) (h.isFinite y (by simp))
  rw [hm] at hround ⊢
  refine hround.of_dyadic ?_ (by omega) (by omega)
  rw [Int.abs_natCast]
  exact_mod_cast hbound

/-- … after which the rest can still be added. -/
lemma AddsExactly.cons_add (h : AddsExactly k (x :: y :: xs)) : AddsExactly k ((x + y) :: xs) := by
  obtain ⟨hfinite, hvalue⟩ := h.value_add
  refine ⟨h.unit_le, ?_, ?_, ?_⟩
  · rw [List.forall_mem_cons]
    exact ⟨hfinite, fun z hz => h.isFinite z (by simp [hz])⟩
  · rw [List.forall_mem_cons, hvalue]
    exact ⟨h.add_eq, fun z hz => h.multiple z (by simp [hz])⟩
  · have hsum := h.sum_le
    simp only [List.map_cons, List.sum_cons] at hsum ⊢
    rw [hvalue]
    linarith

/-- **Such a sum is exact.** -/
theorem AddsExactly.value_foldl (h : AddsExactly k (x :: xs)) :
    (xs.foldl (· + ·) x).isFinite = true
      ∧ value (xs.foldl (· + ·) x) = value x + (xs.map value).sum := by
  induction xs generalizing x with
  | nil => exact ⟨h.isFinite x (by simp), by simp⟩
  | cons y ys ih =>
    obtain ⟨hfinite, hsum⟩ := ih h.cons_add
    refine ⟨hfinite, ?_⟩
    rw [List.foldl_cons, hsum, h.value_add.2, List.map_cons, List.sum_cons, add_assoc]

end FramePacing.Binary
