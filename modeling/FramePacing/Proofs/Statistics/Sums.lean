import FramePacing.Proofs.Binary.Least
import FramePacing.Proofs.Duration.Total
import FramePacing.Statistics

/-!
# Sums of frames that take time

A sum of positive numbers of milliseconds may be rounded, and it may become infinite.  As long as it
is finite it never falls, and it stops growing only when it is so large that a frame is lost on it.
With the slowest frames first all others are lost as well from there on.

* `isFinite_sum_of_append`, `value_sum_le_append` — a beginning of a finite sum is finite, and not
  larger.
* `min_le_value_sum` — up to `2 ^ 53` frames, every one counts.
* `grows_or_stalls` — beyond that, either every frame has counted, or none will.
-/

namespace FramePacing.Statistics

open Binary
open Duration (IsAmount)

/-- Milliseconds of frames, of which every one took some time. -/
def TakeTime (xs : List Float) : Prop := ∀ x ∈ xs, (Duration.mk x).IsProper ∧ 0 < value x

variable {xs ys : List Float} {x : Float}

lemma value_sum_nil : value (sum []) = 0 := rfl

lemma sum_concat (xs : List Float) (x : Float) : sum (xs ++ [x]) = sum xs + x := by
  rw [sum, List.foldl_append]
  rfl

lemma TakeTime.left (h : TakeTime (xs ++ ys)) : TakeTime xs :=
  fun x hx => h x (List.mem_append_left ys hx)

lemma isAmount_sum (h : TakeTime xs) : IsAmount (sum xs) := by
  induction xs using List.reverseRecOn with
  | nil => exact Or.inl ⟨by decide, le_rfl⟩
  | append_singleton xs x ih =>
    rw [sum_concat]
    exact (ih h.left).add (h x (by simp)).1

/-! ## Partial sums -/

lemma isFinite_sum_of_append (h : TakeTime (xs ++ ys))
    (hfinite : (sum (xs ++ ys)).isFinite = true) : (sum xs).isFinite = true := by
  induction ys using List.reverseRecOn with
  | nil => rwa [List.append_nil] at hfinite
  | append_singleton ys y ih =>
    rw [← List.append_assoc] at h hfinite
    rw [sum_concat] at hfinite
    exact ih h.left ((isAmount_sum h.left).isFinite_of_add (h y (by simp)).1 hfinite)

/-- The next partial sum is rounded. -/
lemma value_sum_concat (h : TakeTime (xs ++ [x])) (hfinite : (sum (xs ++ [x])).isFinite = true) :
    value (sum (xs ++ [x])) = nearest (value (sum xs) + value x) := by
  have hsum := isFinite_sum_of_append h hfinite
  rw [sum_concat] at hfinite ⊢
  exact (roundsTo_add hsum (h x (by simp)).1.isFinite).value_eq hfinite

lemma value_sum_le_append (h : TakeTime (xs ++ ys))
    (hfinite : (sum (xs ++ ys)).isFinite = true) : value (sum xs) ≤ value (sum (xs ++ ys)) := by
  induction ys using List.reverseRecOn with
  | nil => rw [List.append_nil]
  | append_singleton ys y ih =>
    rw [← List.append_assoc] at h hfinite ⊢
    have hfinite' := isFinite_sum_of_append h hfinite
    have hy := (h y (by simp)).2
    calc value (sum xs) ≤ value (sum (xs ++ ys)) := ih h.left hfinite'
      _ = nearest (value (sum (xs ++ ys))) := (nearest_value hfinite').symm
      _ ≤ nearest (value (sum (xs ++ ys)) + value y) := nearest_mono (by linarith)
      _ = value (sum (xs ++ ys ++ [y])) := (value_sum_concat h hfinite).symm

/-! ## Growing and stalling -/

/-- **Every frame counts**, as long as there are no more than `2 ^ 53` of them. -/
theorem min_le_value_sum (h : TakeTime xs) (hfinite : (sum xs).isFinite = true) :
    (min xs.length (2 ^ 53) : ℕ) * least ≤ value (sum xs) := by
  induction xs using List.reverseRecOn with
  | nil => simp [value_sum_nil]
  | append_singleton xs x ih =>
    have hx := h x (by simp)
    have hunit : least ≤ value x := least_le_value hx.1.isFinite hx.2
    have hsum := ih h.left (isFinite_sum_of_append h hfinite)
    have hcount : ((min (xs ++ [x]).length (2 ^ 53) : ℕ) : ℚ) * least
        ≤ (min xs.length (2 ^ 53) : ℕ) * least + least := by
      rw [← add_one_mul]
      refine mul_le_mul_of_nonneg_right ?_ least_pos.le
      rw [List.length_append, List.length_singleton]
      norm_cast
      omega
    rw [value_sum_concat h hfinite, ← nearest_mul_least (min_le_right _ _)]
    exact nearest_mono (by linarith)

/-- Once a sum has lost a number, it loses all that are not larger. -/
lemma value_sum_of_stalled {q : ℚ} (h : TakeTime (xs ++ ys))
    (hfinite : (sum (xs ++ ys)).isFinite = true)
    (hstalled : nearest (value (sum xs) + q) = value (sum xs)) (hys : ∀ y ∈ ys, value y ≤ q) :
    value (sum (xs ++ ys)) = value (sum xs) := by
  induction ys using List.reverseRecOn with
  | nil => rw [List.append_nil]
  | append_singleton ys y ih =>
    have hle : value (sum xs) ≤ value (sum (xs ++ (ys ++ [y]))) := value_sum_le_append h hfinite
    rw [← List.append_assoc] at h hfinite hle ⊢
    have hsum := ih h.left (isFinite_sum_of_append h hfinite) fun y hy => hys y (by simp [hy])
    refine le_antisymm ?_ hle
    rw [value_sum_concat h hfinite, hsum]
    have hy := hys y (by simp)
    exact (nearest_mono (by linarith)).trans_eq hstalled

/-- **A sum grows or stalls**, with the slowest frames first: at any point each frame so far has
added a unit at least, or no further one adds anything. -/
theorem grows_or_stalls (h : TakeTime (xs ++ ys))
    (hdesc : ((xs ++ ys).map value).Pairwise (fun a b => b ≤ a))
    (hfinite : (sum (xs ++ ys)).isFinite = true) :
    xs.length * least ≤ value (sum xs) ∨ value (sum (xs ++ ys)) = value (sum xs) := by
  induction xs using List.reverseRecOn generalizing ys with
  | nil => exact Or.inl (by simp [value_sum_nil])
  | append_singleton xs x ih =>
    have hsplit : xs ++ [x] ++ ys = xs ++ x :: ys := by simp
    have hnext : (sum (xs ++ [x])).isFinite = true := isFinite_sum_of_append h hfinite
    have hstep : value (sum xs) ≤ value (sum (xs ++ [x])) := value_sum_le_append h.left hnext
    rcases ih (hsplit ▸ h) (hsplit ▸ hdesc) (hsplit ▸ hfinite) with hgrown | hstalled
    · rcases hstep.lt_or_eq with hlt | heq
      · have hunit := value_add_least_le (isFinite_sum_of_append h.left hnext) hnext hlt
        refine Or.inl ?_
        rw [List.length_append, List.length_singleton, Nat.cast_add, Nat.cast_one, add_one_mul]
        linarith
      · have hlost : nearest (value (sum (xs ++ [x])) + value x) = value (sum (xs ++ [x])) := by
          conv_rhs => rw [value_sum_concat h.left hnext]
          rw [heq]
        refine Or.inr (value_sum_of_stalled h hfinite hlost fun y hy => ?_)
        rw [List.map_append, List.pairwise_append] at hdesc
        exact hdesc.2.2 _ (List.mem_map_of_mem (by simp)) _ (List.mem_map_of_mem hy)
    · rw [← hsplit] at hstalled
      have hrest := value_sum_le_append h hfinite
      exact Or.inr (le_antisymm (by linarith) hrest)

end FramePacing.Statistics
