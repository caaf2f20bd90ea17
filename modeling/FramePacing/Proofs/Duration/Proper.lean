import FramePacing.Duration
import FramePacing.Proofs.Binary.Order

/-!
# Durations as numbers

Every duration of the program was made by `Duration.ofMillis`.  `Duration.IsProper` says this of a
duration: making it again changes nothing.  A proper duration is a finite number without a sign, so
negative zero is none, and there is one of each value.

* `isProper_ofMillis` — what is made is proper.
* `IsProper.exists_canonical` — the number that a proper duration holds.
* `value_ofMillis` — making a duration of a number that is not negative keeps its value.
-/

namespace FramePacing.Duration

open Binary

/-- A duration that `ofMillis` leaves as it is. -/
def IsProper (d : Duration) : Prop := ofMillis d.millis = d

instance (d : Duration) : Decidable d.IsProper := inferInstanceAs (Decidable (_ = _))

variable {d d' : Duration} {x : Float}

lemma isFinite_zero : (0 : Float).isFinite = true := by decide

lemma value_zero : value 0 = 0 := rfl

lemma pos_iff_value_pos (hx : x.isFinite = true) : 0 < x ↔ 0 < value x :=
  lt_iff_value_lt isFinite_zero hx

/-! ## Making a duration -/

lemma ofMillis_of_pos (hx : x.isFinite = true) (hpos : 0 < x) : ofMillis x = ⟨x⟩ :=
  if_pos (by simp [hx, hpos])

lemma ofMillis_cases (x : Float) :
    x.isFinite = true ∧ 0 < x ∧ ofMillis x = ⟨x⟩ ∨ ofMillis x = zero := by
  by_cases h : x.isFinite = true ∧ 0 < x
  · exact Or.inl ⟨h.1, h.2, ofMillis_of_pos h.1 h.2⟩
  · exact Or.inr (if_neg (by simpa using h))

theorem isProper_ofMillis (x : Float) : (ofMillis x).IsProper := by
  rcases ofMillis_cases x with ⟨hx, hpos, h⟩ | h
  · rw [h]
    exact ofMillis_of_pos hx hpos
  · rw [h]
    decide

lemma isProper_since (later earlier : Timestamp) : (later.since earlier).IsProper :=
  isProper_ofMillis _

lemma value_ofMillis (hx : x.isFinite = true) (h : 0 ≤ value x) :
    value (ofMillis x).millis = value x := by
  rcases h.lt_or_eq with hpos | hzero
  · rw [ofMillis_of_pos hx ((pos_iff_value_pos hx).mpr hpos)]
  · rcases ofMillis_cases x with ⟨_, _, h⟩ | h
    · rw [h]
    · rw [h, ← hzero]
      exact value_zero

/-! ## The number that a duration holds -/

/-- **A proper duration has no sign**, not even the one of negative zero. -/
theorem IsProper.exists_canonical (h : d.IsProper) :
    ∃ q, Canonical .positive q d.millis.toModel.unpack ∧ q < 2 ^ 1024 := by
  rcases ofMillis_cases d.millis with ⟨hx, hpos, -⟩ | hzero
  · obtain ⟨s, q, hq, hlt⟩ := Binary.exists_canonical hx
    cases s
    · have hvalue := (pos_iff_value_pos hx).mp hpos
      rw [hq.value_eq, signed] at hvalue
      exact absurd hq.nonneg (by linarith)
    · exact ⟨q, hq, hlt⟩
  · rw [← show ofMillis d.millis = d from h, hzero]
    exact ⟨0, .zero, by norm_num⟩

lemma IsProper.isFinite (h : d.IsProper) : d.millis.isFinite = true := by
  obtain ⟨q, hq, -⟩ := h.exists_canonical
  exact hq.isFinite

lemma IsProper.value_nonneg (h : d.IsProper) : 0 ≤ value d.millis := by
  obtain ⟨q, hq, -⟩ := h.exists_canonical
  rw [hq.value_eq]
  exact hq.nonneg

lemma IsProper.le_iff (h : d.IsProper) (h' : d'.IsProper) :
    d.millis ≤ d'.millis ↔ value d.millis ≤ value d'.millis :=
  le_iff_value_le h.isFinite h'.isFinite

lemma IsProper.pos_iff (h : d.IsProper) : 0 < d.millis ↔ 0 < value d.millis :=
  pos_iff_value_pos h.isFinite

/-- A proper duration that is not zero has a rate, also after it is made again. -/
lemma IsProper.rate?_eq (h : d.IsProper) (hpos : 0 < d.millis) :
    (ofMillis d.millis).rate? = some (1000 / d.millis) := by
  have hzero : d.isZero = false := beq_eq_false_of_lt (by decide) hpos
  rw [show ofMillis d.millis = d from h, rate?, hzero]
  rfl

/-- There is one proper duration of each value. -/
lemma IsProper.eq_of_value_eq (h : d.IsProper) (h' : d'.IsProper)
    (heq : value d.millis = value d'.millis) : d = d' := by
  obtain ⟨q, hq, -⟩ := h.exists_canonical
  obtain ⟨q', hq', -⟩ := h'.exists_canonical
  rw [hq.value_eq, hq'.value_eq, signed, signed] at heq
  exact congrArg Duration.mk (eq_of_canonical hq (heq ▸ hq'))

end FramePacing.Duration
