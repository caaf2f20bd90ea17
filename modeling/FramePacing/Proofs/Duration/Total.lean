import FramePacing.Proofs.Binary.Arithmetic
import FramePacing.Proofs.Duration.Proper

/-!
# Adding up durations

Durations are added from left to right.  The sum may be rounded, and with large enough durations it
becomes infinite, but it is always a number (`isAmount_total`), so it can be compared with whatever
else is one.
-/

namespace FramePacing.Duration

open Binary
open Float.Model

/-- The sum from left to right, starting at zero. -/
def total (ds : List Duration) : Float := ds.foldl (fun x d => x + d.millis) 0

lemma total_concat (ds : List Duration) (d : Duration) :
    total (ds ++ [d]) = total ds + d.millis := by
  rw [total, List.foldl_append]
  rfl

/-- An amount of time: a finite number that is not negative, or positive infinity. -/
def IsAmount (x : Float) : Prop :=
  x.isFinite = true ∧ 0 ≤ value x ∨ x.toModel.unpack = .infinity .positive

variable {x : Float} {d : Duration}

lemma isNaN_of_isFinite (h : x.isFinite = true) : x.isNaN = false := by
  obtain ⟨s, q, hq, -⟩ := Binary.exists_canonical h
  show x.toModel.unpack.isNaN = false
  generalize x.toModel.unpack = u at hq
  cases hq <;> rfl

lemma IsAmount.isNaN (h : IsAmount x) : x.isNaN = false := by
  rcases h with ⟨hfinite, -⟩ | hinfinite
  · exact isNaN_of_isFinite hfinite
  · show x.toModel.unpack.isNaN = false
    rw [hinfinite]
    rfl

lemma isAmount_zero : IsAmount 0 := Or.inl ⟨isFinite_zero, value_zero.ge⟩

/-- What is infinite stays infinite. -/
lemma unpack_add_of_infinite (hx : x.toModel.unpack = .infinity .positive) (hd : d.IsProper) :
    (x + d.millis).toModel.unpack = .infinity .positive := by
  obtain ⟨q, hq, -⟩ := hd.exists_canonical
  change (Float.Model.pack (UnpackedFloat.add Format.binary64 x.toModel.unpack
    d.millis.toModel.unpack)).unpack = _
  rw [hx]
  generalize d.millis.toModel.unpack = u at hq
  cases hq <;> exact unpack_pack_infinity .positive

/-- A duration added to an amount makes an amount, even if the sum is too large to be finite. -/
lemma IsAmount.add (h : IsAmount x) (hd : d.IsProper) : IsAmount (x + d.millis) := by
  rcases h with ⟨hfinite, hnonneg⟩ | hinfinite
  · have hsum : 0 ≤ value x + value d.millis := add_nonneg hnonneg hd.value_nonneg
    have hround := roundsTo_add hfinite hd.isFinite
    by_cases hfinite' : (x + d.millis).isFinite = true
    · refine Or.inl ⟨hfinite', ?_⟩
      rw [hround.value_eq hfinite']
      exact nearest_nonneg hsum
    · exact Or.inr (hround.unpack_eq hsum hfinite')
  · exact Or.inr (unpack_add_of_infinite hinfinite hd)

theorem isAmount_total {ds : List Duration} (h : ∀ d ∈ ds, d.IsProper) : IsAmount (total ds) := by
  induction ds using List.reverseRecOn with
  | nil => exact isAmount_zero
  | append_singleton ds d ih =>
    rw [total_concat]
    exact (ih fun d' hd' => h d' (by simp [hd'])).add (h d (by simp))

/-! ## Amounts that are not finite -/

lemma IsAmount.infinite (h : IsAmount x) (hx : ¬x.isFinite = true) :
    x.toModel.unpack = .infinity .positive :=
  h.resolve_left fun hfinite => hx hfinite.1

/-- So an amount was finite if it is finite after something was added. -/
lemma IsAmount.isFinite_of_add (h : IsAmount x) (hd : d.IsProper)
    (hsum : (x + d.millis).isFinite = true) : x.isFinite = true := by
  by_contra hx
  rw [isFinite_of_infinite (unpack_add_of_infinite (h.infinite hx) hd)] at hsum
  cases hsum

/-- A share of what is infinite is infinite. -/
lemma isFinite_div_of_infinite {y : Float} (hx : x.toModel.unpack = .infinity .positive)
    (hy : y.isFinite = true) : (x / y).isFinite = false := by
  obtain ⟨s, q, hq, -⟩ := Binary.exists_canonical hy
  have hinfinite : (x / y).toModel.unpack = .infinity (.positive / s) := by
    change (Float.Model.pack (UnpackedFloat.div Format.binary64 x.toModel.unpack
      y.toModel.unpack)).unpack = _
    rw [hx]
    generalize y.toModel.unpack = u at hq
    cases hq <;> exact unpack_pack_infinity _
  exact isFinite_of_infinite hinfinite

end FramePacing.Duration
