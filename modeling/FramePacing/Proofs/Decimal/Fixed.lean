import FramePacing.Proofs.Decimal.Shortest
import FramePacing.Proofs.Json.Digits

/-!
# The number that is shown with fixed places

A number with fixed places is written as a numeral without a power, so it can be read back.
`Denotes text places q` says that it is read as `q`: a text denotes one number at most, and what
`Magnitude.fixed` writes denotes the exact value of the magnitude, rounded once to the last of the
places.  Only as many places as the magnitude has are computed.  Where more are asked for, nothing
is rounded, and the zeros that are added do not change the number.

* `cast_roundDiv_toEven` — the rounding that is used is that of the float operations.
* `denotes_fixed` — what is written for a magnitude, and `denotes_fixed_float`, for a float.
* `Denotes.unique`, `Denotes.exists_digit` — a text denotes one number, and starts with a digit.
-/

namespace FramePacing.Json.Numeral

/-- The number that a numeral stands for. -/
def value (n : Numeral) : ℚ :=
  (if n.negative then -1 else 1) * n.significand * 10 ^ n.exponent

/-- A numeral with neither a sign nor a power and with `count` digits behind the point. -/
structure IsFixed (n : Numeral) (count : ℕ) : Prop where
  negative : n.negative = false
  power : n.power = none
  length : (places n.fraction).length = count

variable {n n' : Numeral} {count : ℕ}

/-- There is a point only if there are digits behind it. -/
lemma IsFixed.fraction_eq_none_iff (h : n.IsFixed count) : n.fraction = none ↔ count = 0 := by
  rw [← h.length]
  cases n.fraction with
  | none => simp [places]
  | some f => simp [places, f.nonempty]

lemma IsFixed.text_eq (h : n.IsFixed count) :
    n.text = n.whole.chars ++ fractionText n.fraction := by
  simp [text, unsigned, h.negative, h.power, powerText]

lemma IsFixed.value_eq (h : n.IsFixed count) : n.value = n.significand / 10 ^ count := by
  rw [value, exponent, h.negative, h.power, h.length, power10, zero_sub, zpow_neg, zpow_natCast,
    div_eq_mul_inv]
  simp

lemma places_eq_of_fractionText_eq {f f' : Option Digits} (h : fractionText f = fractionText f') :
    places f = places f' := by
  cases f <;> cases f' <;> simp_all [fractionText, places]

/-- The digits of a numeral can be told from its text. -/
lemma IsFixed.significand_eq (h : n.IsFixed count) (h' : n'.IsFixed count)
    (htext : n.text = n'.text) : n.significand = n'.significand := by
  have htail (m : Numeral) : ∀ c ∈ (fractionText m.fraction).head?, c.isDigit = false := by
    simpa [powerText] using noDigit_tail m.fraction none Stops.nil
  rw [h.text_eq, h'.text_eq] at htext
  have hwhole : n.whole.chars = n'.whole.chars := by
    rw [← takeWhile_digits n.whole (htail n), htext, takeWhile_digits n'.whole (htail n')]
  have hfraction : fractionText n.fraction = fractionText n'.fraction := by
    rw [← dropWhile_digits n.whole (htail n), htext, dropWhile_digits n'.whole (htail n')]
  rw [significand, significand, hwhole, places_eq_of_fractionText_eq hfraction]

end FramePacing.Json.Numeral

namespace FramePacing.Decimal

open Binary
open Json (Numeral)

/-! ## Texts and numbers -/

/-- That a text is a numeral with `places` digits behind the point, which stands for `q`. -/
def Denotes (text : String) (places : ℕ) (q : ℚ) : Prop :=
  ∃ n : Numeral, n.text = text.toList ∧ n.IsFixed places ∧ n.value = q

/-- **A text denotes one number.** -/
theorem Denotes.unique {text : String} {places : ℕ} {q q' : ℚ} (h : Denotes text places q)
    (h' : Denotes text places q') : q = q' := by
  obtain ⟨n, htext, hfixed, rfl⟩ := h
  obtain ⟨n', htext', hfixed', rfl⟩ := h'
  rw [hfixed.value_eq, hfixed'.value_eq,
    hfixed.significand_eq hfixed' (htext.trans htext'.symm)]

/-- It starts with a digit. -/
lemma Denotes.exists_digit {text : String} {places : ℕ} {q : ℚ} (h : Denotes text places q) :
    ∃ c rest, text.toList = c :: rest ∧ c.isDigit = true := by
  obtain ⟨n, htext, hfixed, -⟩ := h
  obtain ⟨c, rest, hwhole, hdigit⟩ := Json.exists_cons_digits n.whole
  refine ⟨c, rest ++ Numeral.fractionText n.fraction, ?_, hdigit⟩
  rw [← htext, hfixed.text_eq, hwhole, List.cons_append]

/-! ## Rounding -/

/-- **A quotient is rounded as a float operation rounds it.** -/
theorem cast_roundDiv_toEven (num : ℕ) {den : ℕ} (hden : 0 < den) :
    (roundDiv .toEven num den : ℤ) = roundEven (num / den) := by
  have hdenQ : (0 : ℚ) < den := by exact_mod_cast hden
  have hfloor : ⌊(num / den : ℚ)⌋ = (num / den : ℕ) := Rat.floor_natCast_div_natCast num den
  have hexcess : (num : ℚ) / den - (num / den : ℕ) = (num % den : ℕ) / den := by
    have hsplit : (num : ℚ) = den * (num / den : ℕ) + (num % den : ℕ) := by
      exact_mod_cast (Nat.div_add_mod num den).symm
    rw [div_sub' hdenQ.ne', sub_eq_of_eq_add' hsplit]
  have hbelow : ((num % den : ℕ) / den : ℚ) < 1 / 2 ↔ 2 * (num % den) < den := by
    rw [div_lt_div_iff₀ hdenQ two_pos, one_mul, mul_comm]
    exact_mod_cast Iff.rfl
  have habove : 1 / 2 < ((num % den : ℕ) / den : ℚ) ↔ den < 2 * (num % den) := by
    rw [div_lt_div_iff₀ two_pos hdenQ, one_mul, mul_comm]
    exact_mod_cast Iff.rfl
  rw [roundEven, hfloor, Int.cast_natCast, hexcess, roundDiv]
  simp only [hbelow, habove]
  split_ifs <;> simp

namespace Magnitude

variable {x : Magnitude} {places : ℕ}

/-- A number is a whole number of any decimal places that are no fewer than its binary ones, -/
lemma exists_value_mul_pow (h : x.binaryPlaces ≤ places) :
    ∃ n : ℕ, x.value * 10 ^ places = n := by
  refine ⟨x.numerator * 5 ^ x.binaryPlaces * 10 ^ (places - x.binaryPlaces), ?_⟩
  have hpow : (10 : ℚ) ^ places
      = 2 ^ x.binaryPlaces * 5 ^ x.binaryPlaces * 10 ^ (places - x.binaryPlaces) := by
    rw [← mul_pow, ← pow_mul_pow_sub 10 h]
    norm_num
  rw [← x.numerator_div_denominator, denominator, Nat.pow_eq, hpow]
  push_cast
  field_simp

/-- and is not rounded to them. -/
lemma roundEven_value_mul_pow (h : x.binaryPlaces ≤ places) :
    (roundEven (x.value * 10 ^ places) : ℚ) = x.value * 10 ^ places := by
  obtain ⟨n, hn⟩ := exists_value_mul_pow h
  rw [hn, ← Int.cast_natCast, roundEven_intCast]

/-- So no more places are needed than those. -/
lemma roundEven_min (x : Magnitude) (places : ℕ) :
    (roundEven (x.value * 10 ^ min places x.binaryPlaces) : ℚ) / 10 ^ min places x.binaryPlaces
      = roundEven (x.value * 10 ^ places) / 10 ^ places := by
  rcases le_total places x.binaryPlaces with h | h
  · rw [min_eq_left h]
  · -- both are the number itself
    have hpow (k : ℕ) : (10 : ℚ) ^ k ≠ 0 := pow_ne_zero k (by norm_num)
    rw [min_eq_right h, roundEven_value_mul_pow le_rfl, roundEven_value_mul_pow h,
      mul_div_cancel_right₀ _ (hpow _), mul_div_cancel_right₀ _ (hpow _)]

end Magnitude

/-! ## Digits -/

lemma isDigit_lowDigits {width n : ℕ} {tail : List Char} (h : ∀ c ∈ tail, c.isDigit = true) :
    ∀ c ∈ lowDigits width n tail, c.isDigit = true := by
  induction width generalizing n tail with
  | zero => exact h
  | succ width ih =>
    refine ih fun c hc => ?_
    rcases List.mem_cons.mp hc with rfl | hc
    · rw [Nat.isDigit_digitChar, decide_eq_true_iff]
      exact Nat.mod_lt n (by norm_num)
    · exact h c hc

/-- Digits that are read go on with the number that stands before them. -/
lemma ofDigitChars_lowDigits (width n : ℕ) (tail : List Char) (before : ℕ) :
    Nat.ofDigitChars 10 (lowDigits width n tail) before
      = Nat.ofDigitChars 10 tail (before * 10 ^ width + n % 10 ^ width) := by
  induction width generalizing n tail with
  | zero => simp [lowDigits, Nat.mod_one]
  | succ width ih =>
    have hmod : n % 10 ^ (width + 1) = n % 10 + 10 * (n / 10 % 10 ^ width) := by
      rw [pow_succ', Nat.mod_mul]
    rw [lowDigits, ih, Nat.ofDigitChars_cons_digitChar_of_lt_ten (Nat.mod_lt n (by norm_num)), hmod]
    congr 1
    ring

/-- **What digits denote** with a point put into them, or none if there is nothing behind it. -/
lemma denotes_digits (whole : ℕ) {tail : List Char} (h : ∀ c ∈ tail, c.isDigit = true) :
    Denotes (toString whole ++ if tail.isEmpty then "" else "." ++ String.ofList tail) tail.length
      (Nat.ofDigitChars 10 tail whole / 10 ^ tail.length) := by
  obtain ⟨f, hplaces, hfraction⟩ := Json.exists_fraction h
  have hfixed : Numeral.IsFixed { Numeral.ofNat whole with fraction := f } tail.length :=
    ⟨rfl, rfl, congrArg List.length hplaces⟩
  refine ⟨_, ?_, hfixed, ?_⟩
  · rw [hfixed.text_eq, String.toList_append, ← hfraction, Nat.toString_eq_ofList_toDigits,
      String.toList_ofList]
    rfl
  · rw [hfixed.value_eq, Numeral.significand, hplaces, Nat.ofDigitChars_append]
    congr 3
    exact Json.ofDigitChars_ofNat whole

/-- A number of units, of which `kept` places are written and the others are zeros. -/
lemma denotes_units {kept places : ℕ} (h : kept ≤ places) (units : ℕ) :
    Denotes (if places = 0 then toString (units / 10 ^ kept)
        else toString (units / 10 ^ kept) ++ "." ++
          String.ofList (lowDigits kept units (List.replicate (places - kept) '0')))
      places (units / 10 ^ kept) := by
  obtain ⟨tail, htail⟩ :
    ∃ t, t = lowDigits kept units (List.replicate (places - kept) '0') := ⟨_, rfl⟩
  have hlength : tail.length = places := by
    rw [htail, length_lowDigits, List.length_replicate, Nat.add_sub_of_le h]
  have hvalue : (Nat.ofDigitChars 10 tail (units / 10 ^ kept) : ℚ) / 10 ^ places
      = units / 10 ^ kept := by
    rw [htail, ofDigitChars_lowDigits, Nat.div_add_mod', Nat.ofDigitChars_replicate_zero,
      Nat.cast_mul, Nat.cast_pow, Nat.cast_ofNat, ← pow_sub_mul_pow (10 : ℚ) h,
      mul_div_mul_left _ _ (pow_ne_zero _ (by norm_num))]
  have hdenotes := denotes_digits (units / 10 ^ kept)
    (htail ▸ isDigit_lowDigits (Json.isDigit_replicate (places - kept)))
  rw [hlength, hvalue] at hdenotes
  rw [← htail]
  simp only [List.isEmpty_iff_length_eq_zero, hlength] at hdenotes
  split_ifs at hdenotes ⊢
  · rwa [String.append_empty] at hdenotes
  · rwa [← String.append_assoc] at hdenotes

/-! ## The text -/

/-- **What is written denotes the number**, rounded once. -/
theorem denotes_fixed (places : ℕ) (x : Magnitude) :
    Denotes (x.fixed places) places (roundEven (x.value * 10 ^ places) / 10 ^ places) := by
  have hround (kept : ℕ) :
      ((roundDiv .toEven (x.numerator * 10 ^ kept) x.denominator : ℕ) : ℚ)
        = roundEven (x.value * 10 ^ kept) := by
    have hcast := cast_roundDiv_toEven (x.numerator * 10 ^ kept) x.denominator_pos
    rw [Nat.cast_mul, Nat.cast_pow, Nat.cast_ofNat, mul_div_right_comm,
      x.numerator_div_denominator] at hcast
    rw [← hcast, Int.cast_natCast]
  rw [← x.roundEven_min, ← hround]
  exact denotes_units (min_le_left places x.binaryPlaces) _

/-- So does what is written for a positive float. -/
theorem denotes_fixed_float (places : ℕ) {x : Float} (hx : x.isFinite = true) (hpos : 0 < value x) :
    Denotes (fixed places x) places (roundEven (value x * 10 ^ places) / 10 ^ places) := by
  obtain ⟨m, hm, -⟩ := Magnitude.exists_stored hx hpos
  rw [(Magnitude.value_of_ofFloat hm).2, fixed, hm]
  simpa [signText] using denotes_fixed places m

end FramePacing.Decimal
