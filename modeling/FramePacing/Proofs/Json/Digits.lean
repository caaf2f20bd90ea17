import FramePacing.Decimal.Layout
import FramePacing.Proofs.Json.Values
import Mathlib.Tactic.IntervalCases
import Mathlib.Tactic.Ring

/-!
# Written numbers

What is written for a natural number or a decimal is a numeral, and here is told what the reader
makes of it.  A decimal is written in one of four ways.  In three of them the digits, the point left
out, are those of its coefficient again; a whole number that is written without an exponent ends in
`.0`, and so it is read with one digit more than it has.

* `number?_eq` — the value of a numeral whose digits all fit.
* `number?_ofNat`, `exists_shows` — what is written is a numeral, and what it is read as.
-/

namespace FramePacing.Json

open Decimal (Layout Scaled)

/-! ## The value of a numeral -/

lemma le_ofDigitChars (digits : List Char) (n : ℕ) : n ≤ Nat.ofDigitChars 10 digits n := by
  rw [Nat.ofDigitChars_eq_ofDigitChars_zero]
  exact Nat.le_add_right_of_le (Nat.le_mul_of_pos_left n (Nat.pow_pos (by norm_num)))

/-- Digits that do not go beyond the limit are all taken. -/
lemma takeDigits_eq {limit n : ℕ} {digits : List Char}
    (h : Nat.ofDigitChars 10 digits n ≤ limit) :
    takeDigits limit n digits = (Nat.ofDigitChars 10 digits n, []) := by
  induction digits generalizing n with
  | nil => rfl
  | cons c digits ih =>
    rw [Nat.ofDigitChars_cons] at h ⊢
    have hnext : 10 * n + digitValue c ≤ limit := (le_ofDigitChars digits _).trans h
    rw [takeDigits, if_pos hnext]
    exact ih h

namespace Numeral

/-- The digits behind the point. -/
def places : (fraction : Option Digits) → List Char
  | none => []
  | some f => f.chars

/-- All digits, read as one number. -/
def significand (n : Numeral) : ℕ := Nat.ofDigitChars 10 (n.whole.chars ++ places n.fraction) 0

/-- The power of ten that is written. -/
def power10 : (power : Option Power) → ℤ
  | none => 0
  | some p =>
    if p.small then -(Nat.ofDigitChars 10 p.digits.chars 0 : ℤ)
    else Nat.ofDigitChars 10 p.digits.chars 0

/-- The power of ten that the significand is to be multiplied by. -/
def exponent (n : Numeral) : ℤ := power10 n.power - (places n.fraction).length

variable {n : Numeral}

lemma scaled?_eq (hpower : (power10 n.power).natAbs ≤ exponentLimit) (significand : ℕ)
    (exponent : ℤ) :
    scaled? n.negative significand exponent n.power
      = (scale? significand (exponent + power10 n.power)).map fun x =>
          .float (signed n.negative x) := by
  cases hp : n.power with
  | none => rw [power10, scaled?, add_zero]
  | some p =>
    rw [hp, power10] at hpower
    rw [power10]
    have hfits : Nat.ofDigitChars 10 p.digits.chars 0 ≤ exponentLimit := by
      split at hpower <;> omega
    rw [scaled?, takeDigits_eq hfits]
    dsimp only
    cases p.small with
    | true => rw [if_pos rfl, if_pos rfl, sub_eq_add_neg]
    | false => rw [if_neg Bool.false_ne_true, if_neg Bool.false_ne_true]

/-- **If all digits fit**, a numeral with a fraction or a power is its significand, scaled. -/
theorem number?_eq (hfloat : n.fraction.isSome ∨ n.power.isSome)
    (hfits : n.significand ≤ significandLimit) (hpower : (power10 n.power).natAbs ≤ exponentLimit) :
    n.number?
      = (scale? n.significand n.exponent).map fun x => .float (signed n.negative x) := by
  rw [significand, Nat.ofDigitChars_append] at hfits
  have htake := takeDigits_eq hfits
  rw [number?, takeDigits_eq ((le_ofDigitChars _ _).trans hfits), exponent, significand,
    Nat.ofDigitChars_append]
  dsimp only
  cases hfraction : n.fraction with
  | none =>
    have hsome : n.power.isNone = false := by
      rw [hfraction] at hfloat
      rw [← Option.not_isSome, hfloat.resolve_left Bool.false_ne_true, Bool.not_true]
    rw [hsome]
    simpa [places] using scaled?_eq hpower _ 0
  | some f =>
    rw [hfraction, places] at htake
    dsimp only
    rw [htake, scaled?_eq hpower, places]
    dsimp only [List.length_nil]
    rw [Nat.sub_zero, Nat.cast_zero, zero_sub, neg_add_eq_sub]

end Numeral

/-! ## Natural numbers -/

/-- The digits of a natural number. -/
def Digits.ofNat (n : ℕ) : Digits where
  chars := Nat.toDigits 10 n
  nonempty := Nat.toDigits_ne_nil
  isDigit _ := Nat.isDigit_of_mem_toDigits (by decide) (by decide)

lemma ofDigitChars_ofNat (n : ℕ) : Nat.ofDigitChars 10 (Digits.ofNat n).chars 0 = n :=
  Nat.ofDigitChars_ten_toDigits

/-- No number above zero starts with a zero. -/
lemma head?_toDigits {n : ℕ} (hn : 0 < n) : (Nat.toDigits 10 n).head? ≠ some '0' := by
  induction n using Nat.strong_induction_on with
  | _ n ih =>
    rw [Nat.toDigits_eq_if (by decide)]
    split
    next hlt => 
      interval_cases n <;> decide
    next hge =>
      have hhead := ih (n / 10) (by omega) (by omega)
      obtain ⟨c, t, hdigits⟩ := List.exists_cons_of_ne_nil (Nat.toDigits_ne_nil (n := n / 10))
      rw [hdigits] at hhead ⊢
      exact hhead

/-- A natural number as a numeral. -/
def Numeral.ofNat (n : ℕ) : Numeral where
  negative := false
  whole := .ofNat n
  fraction := none
  power := none
  noLeadingZero h := by
    rcases n.eq_zero_or_pos with rfl | hn
    · rfl
    · exact absurd h (head?_toDigits hn)

/-- **A natural number that fits is read as what it is.** -/
theorem number?_ofNat {n : ℕ} (h : n ≤ significandLimit) :
    (Numeral.ofNat n).number? = some (.integer n) := by
  rw [← ofDigitChars_ofNat n] at h
  have htake := takeDigits_eq h
  rw [ofDigitChars_ofNat] at htake
  rw [Numeral.number?, Numeral.ofNat]
  dsimp only
  rw [htake]
  rfl

lemma text_ofNat (n : ℕ) : (Numeral.ofNat n).text = (toString n).toList := by
  rw [Nat.toString_eq_ofList_toDigits, String.toList_ofList, Numeral.text, Numeral.unsigned]
  simp [Numeral.ofNat, Digits.ofNat, Numeral.fractionText, Numeral.powerText]

/-! ## Decimals -/

/-- A numeral that is written `s` and is read as `c * 10 ^ e`. -/
structure Numeral.Shows (n : Numeral) (s : List Char) (c : ℕ) (e : ℤ) : Prop where
  text : n.text = s
  negative : n.negative = false
  isFloat : n.fraction.isSome ∨ n.power.isSome
  power10 : (Numeral.power10 n.power).natAbs ≤ exponentLimit
  significand : n.significand = c
  exponent : n.exponent = e

lemma Numeral.Shows.number?_eq {n : Numeral} {s : List Char} {c : ℕ} {e : ℤ} (h : n.Shows s c e)
    (hc : c ≤ significandLimit) : n.number? = (scale? c e).map .float := by
  rw [Numeral.number?_eq h.isFloat (h.significand ▸ hc) h.power10, h.significand, h.exponent,
    h.negative]
  rfl

section Decimal

variable {d : Scaled}

lemma isDigit_digits (d : Scaled) : ∀ c ∈ d.digits, c.isDigit = true :=
  (Digits.ofNat d.coefficient).isDigit

lemma ofDigitChars_digits (d : Scaled) : Nat.ofDigitChars 10 d.digits 0 = d.coefficient :=
  ofDigitChars_ofNat d.coefficient

lemma isDigit_replicate (k : ℕ) : ∀ c ∈ List.replicate k '0', c.isDigit = true := by
  intro c hc
  rw [List.eq_of_mem_replicate hc]
  rfl

lemma exists_cons_digits_decimal (hpos : 0 < d.coefficient) :
    ∃ c t, d.digits = c :: t ∧ c ≠ '0' := by
  have hhead := head?_toDigits hpos
  obtain ⟨c, t, hdigits⟩ := List.exists_cons_of_ne_nil
    (Nat.toDigits_ne_nil (n := d.coefficient) (b := 10))
  rw [hdigits] at hhead
  exact ⟨c, t, hdigits, fun hc => hhead (congrArg some hc)⟩

/-- A whole number gets `.0`, and so one digit more. -/
lemma exists_shows_whole (hpos : 0 < d.coefficient) (he : 0 ≤ d.exponent) :
    ∃ n : Numeral, n.Shows (d.positional ".0").toList
      (d.coefficient * 10 ^ (d.exponent.toNat + 1)) (-1) := by
  obtain ⟨c, t, hdigits, hc⟩ := exists_cons_digits_decimal hpos
  refine ⟨⟨false, ⟨d.digits ++ List.replicate d.exponent.toNat '0', by simp [hdigits], ?_⟩,
    some ⟨['0'], by simp, by simp⟩, none, by simp [hdigits, hc]⟩,
    ?_, rfl, .inl rfl, Nat.zero_le _, ?_, rfl⟩
  · intro c hc
    exact (List.mem_append.mp hc).elim (isDigit_digits d c) (isDigit_replicate _ c)
  · simp [Numeral.text, Numeral.unsigned, Numeral.fractionText, Numeral.powerText,
      Scaled.positional, he]
  · rw [Numeral.significand, Numeral.places]
    rw [Nat.ofDigitChars_append, Nat.ofDigitChars_append, ofDigitChars_digits,
      Nat.ofDigitChars_replicate_zero]
    simp [Nat.ofDigitChars_cons]
    ring

/-- The point inside the digits, -/
lemma exists_shows_inside (hpos : 0 < d.coefficient) (he : d.exponent < 0)
    (hpoint : 0 < d.digits.length + d.exponent) (ending : String) :
    ∃ n : Numeral, n.Shows (d.positional ending).toList d.coefficient d.exponent := by
  obtain ⟨c, t, hdigits, hc⟩ := exists_cons_digits_decimal hpos
  obtain ⟨p, hp⟩ : ∃ p : ℕ, (d.digits.length + d.exponent).toNat = p + 1 :=
    ⟨(d.digits.length + d.exponent).toNat - 1, by omega⟩
  have hwhole (c : Char) (h : c ∈ d.digits.take (p + 1)) : c.isDigit = true :=
    isDigit_digits d c (List.mem_of_mem_take h)
  have hplaces (c : Char) (h : c ∈ d.digits.drop (p + 1)) : c.isDigit = true :=
    isDigit_digits d c (List.mem_of_mem_drop h)
  refine ⟨⟨false, ⟨d.digits.take (p + 1), by simp [hdigits], hwhole⟩,
    some ⟨d.digits.drop (p + 1), by simp; omega, hplaces⟩, none, by simp [hdigits, hc]⟩,
    ?_, rfl, .inl rfl, Nat.zero_le _, ?_, ?_⟩
  · simp [Numeral.text, Numeral.unsigned, Numeral.fractionText, Numeral.powerText,
      Scaled.positional, he.not_ge, hpoint, hp]
  · rw [Numeral.significand, Numeral.places]
    rw [List.take_append_drop, ofDigitChars_digits]
  · rw [Numeral.exponent, Numeral.power10, Numeral.places]
    dsimp only
    rw [List.length_drop]
    omega

/-- or zeros between the point and the digits. -/
lemma exists_shows_small (he : d.exponent < 0) (hpoint : d.digits.length + d.exponent ≤ 0)
    (ending : String) :
    ∃ n : Numeral, n.Shows (d.positional ending).toList d.coefficient d.exponent := by
  obtain ⟨k, hk⟩ : ∃ k : ℕ, (-(d.digits.length + d.exponent)).toNat = k := ⟨_, rfl⟩
  refine ⟨⟨false, ⟨['0'], by simp, by simp⟩,
    some ⟨List.replicate k '0' ++ d.digits, by simp [Scaled.digits, Nat.toDigits_ne_nil], ?_⟩,
    none, fun _ => rfl⟩, ?_, rfl, .inl rfl, Nat.zero_le _, ?_, ?_⟩
  · intro c hc
    exact (List.mem_append.mp hc).elim (isDigit_replicate _ c) (isDigit_digits d c)
  · rw [Scaled.positional, if_neg he.not_ge, if_neg hpoint.not_gt, hk]
    simp [Numeral.text, Numeral.unsigned, Numeral.fractionText, Numeral.powerText]
  · rw [Numeral.significand, Numeral.places]
    rw [Nat.ofDigitChars_append, Nat.ofDigitChars_append, Nat.ofDigitChars_replicate_zero]
    exact ofDigitChars_digits d
  · rw [Numeral.exponent, Numeral.power10, Numeral.places]
    dsimp only
    rw [List.length_append, List.length_replicate]
    omega

/-- A point is written only if there are digits behind it. -/
lemma exists_fraction {t : List Char} (ht : ∀ c ∈ t, c.isDigit = true) :
    ∃ f : Option Digits, Numeral.places f = t
      ∧ Numeral.fractionText f = (if t.isEmpty then "" else "." ++ String.ofList t).toList := by
  cases t with
  | nil => exact ⟨none, rfl, rfl⟩
  | cons c t => exact ⟨some ⟨c :: t, by simp, ht⟩, rfl, by simp [Numeral.fractionText]⟩

/-- An exponent as it is written, with a sign always. -/
def Power.ofInt (k : ℤ) : Power where
  letter := 'e'
  sign := some (decide (k < 0))
  digits := .ofNat k.natAbs
  letter_eq := .inl rfl

lemma power10_ofInt (k : ℤ) : Numeral.power10 (some (.ofInt k)) = k := by
  rw [Numeral.power10, Power.small, Power.ofInt, ofDigitChars_ofNat]
  dsimp only
  split
  next h => simp at h; omega
  next h => simp at h; omega

lemma text_ofInt (k : ℤ) :
    (Power.ofInt k).text = ("e" ++ (if k < 0 then "-" else "+") ++ toString k.natAbs).toList := by
  rw [Nat.toString_eq_ofList_toDigits, Power.text, Power.ofInt, Digits.ofNat]
  by_cases hk : k < 0 <;> simp [hk, Power.signText]

/-- With an exponent, there is one digit before the point. -/
lemma exists_shows_scientific (hpos : 0 < d.coefficient)
    (hleading : d.leading.natAbs ≤ exponentLimit) :
    ∃ n : Numeral, n.Shows d.scientific.toList d.coefficient d.exponent := by
  obtain ⟨c, t, hdigits, hc⟩ := exists_cons_digits_decimal hpos
  have hdigit := isDigit_digits d
  have hcoefficient := ofDigitChars_digits d
  rw [hdigits] at hcoefficient
  rw [hdigits, List.forall_mem_cons] at hdigit
  obtain ⟨f, hplaces, hfraction⟩ := exists_fraction hdigit.2
  refine ⟨⟨false, ⟨[c], by simp, by simpa using hdigit.1⟩, f, some (.ofInt d.leading),
    by simp [hc]⟩, ?_, rfl, .inr rfl, ?_, ?_, ?_⟩
  · rw [Scaled.scientific, hdigits, String.append_assoc, String.append_assoc, String.toList_append,
      String.toList_append, List.drop_one, List.tail_cons, ← hfraction, ← String.append_assoc,
      ← text_ofInt]
    simp [Numeral.text, Numeral.unsigned, Numeral.powerText]
  · rwa [power10_ofInt]
  · rw [Numeral.significand, hplaces]
    exact hcoefficient
  · rw [Numeral.exponent, power10_ofInt, hplaces, Scaled.leading, hdigits, List.length_cons]
    push_cast
    ring

/-! ### The text in JSON -/

/-- A decimal with the digits with which it is written. -/
def asWritten (d : Scaled) : Scaled :=
  if Layout.json.positional d.leading ∧ 0 ≤ d.exponent then
    ⟨d.coefficient * 10 ^ (d.exponent.toNat + 1), -1⟩
  else d

lemma lt_pow_length_digits (d : Scaled) : d.coefficient < 10 ^ d.digits.length :=
  (Nat.length_toDigits_le_iff (by decide) Nat.length_toDigits_pos).mp le_rfl

lemma pow_le_coefficient (hpos : 0 < d.coefficient) :
    10 ^ (d.digits.length - 1) ≤ d.coefficient := by
  rcases Nat.eq_zero_or_pos (d.digits.length - 1) with hlength | hlength
  · rw [hlength]
    exact hpos
  · by_contra hlt
    have hle := (Nat.length_toDigits_le_iff (by decide) hlength).mpr (not_le.mp hlt)
    rw [← Scaled.digits] at hle
    omega

lemma asWritten_coefficient_le (hlt : d.coefficient ≤ significandLimit) :
    (asWritten d).coefficient ≤ significandLimit := by
  rw [asWritten]
  split
  next h =>
    obtain ⟨hpositional, he⟩ := h
    have hlimit : d.digits.length + d.exponent.toNat + 1 ≤ 17 := by
      simp [Layout.json, Scaled.leading] at hpositional
      omega
    calc d.coefficient * 10 ^ (d.exponent.toNat + 1)
        ≤ 10 ^ d.digits.length * 10 ^ (d.exponent.toNat + 1) :=
          Nat.mul_le_mul_right _ (lt_pow_length_digits d).le
      _ = 10 ^ (d.digits.length + d.exponent.toNat + 1) := by rw [← pow_add, add_assoc]
      _ ≤ 10 ^ 17 := Nat.pow_le_pow_right (by norm_num) hlimit
      _ ≤ significandLimit := by decide
  next => exact hlt

/-- **A decimal is written as a numeral**, in one of the four ways. -/
theorem exists_shows (hpos : 0 < d.coefficient) (hleading : d.leading.natAbs ≤ exponentLimit) :
    ∃ n : Numeral,
      n.Shows (d.text .json).toList (asWritten d).coefficient (asWritten d).exponent := by
  rw [Scaled.text, asWritten]
  cases hpositional : Layout.json.positional d.leading with
  | false =>
    rw [if_neg Bool.false_ne_true, if_neg (by simp)]
    exact exists_shows_scientific hpos hleading
  | true =>
    rw [if_pos rfl]
    by_cases he : 0 ≤ d.exponent
    · rw [if_pos ⟨rfl, he⟩]
      exact exists_shows_whole hpos he
    · rw [if_neg (by simp [he])]
      rcases lt_or_ge 0 (d.digits.length + d.exponent) with hpoint | hpoint
      · exact exists_shows_inside hpos (not_le.mp he) hpoint _
      · exact exists_shows_small (not_le.mp he) hpoint _

end Decimal

end FramePacing.Json
