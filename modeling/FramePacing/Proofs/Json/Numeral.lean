import FramePacing.Json.Number
import Mathlib.Tactic.Lemma

/-!
# Numerals

A `Numeral` is a number as JSON writes it: a sign, digits before the point without a leading zero,
and perhaps a fraction and a power of ten.  Nothing marks its end, so what a reader takes for the
number depends on what comes next.  A text that `Stops` a numeral starts with no character that
could go on with it; before such a text, the readers of numbers take the numeral as a whole.

* `toOption_readNumber` — reading takes exactly the numeral, or fails because the value of the
  numeral, `Numeral.number?`, is out of range.  Nothing of that depends on what follows.
* `skipUnsigned_numeral` — passing over a numeral never fails.
-/

namespace FramePacing.Json

/-! ## Syntax -/

/-- One digit or more. -/
structure Digits where
  chars : List Char
  nonempty : chars ≠ []
  isDigit : ∀ c ∈ chars, c.isDigit
deriving DecidableEq

/-- A power of ten as it is written. -/
structure Power where
  letter : Char
  /-- The sign, if there is one, and whether it is a minus. -/
  sign : Option Bool
  digits : Digits
  letter_eq : letter = 'e' ∨ letter = 'E'
deriving DecidableEq

namespace Power

def signText : Option Bool → List Char
  | none => []
  | some false => ['+']
  | some true => ['-']

def text (p : Power) : List Char := p.letter :: (signText p.sign ++ p.digits.chars)

/-- Whether a number is to be divided by the power. -/
def small (p : Power) : Bool := p.sign = some true

end Power

/-- A number as it is written. -/
structure Numeral where
  negative : Bool
  whole : Digits
  fraction : Option Digits
  power : Option Power
  /-- Only a lone zero starts with a zero. -/
  noLeadingZero : whole.chars.head? = some '0' → whole.chars = ['0']
deriving DecidableEq

namespace Numeral

def fractionText : Option Digits → List Char
  | none => []
  | some f => '.' :: f.chars

def powerText : Option Power → List Char
  | none => []
  | some p => p.text

/-- The text behind the sign. -/
def unsigned (n : Numeral) : List Char :=
  n.whole.chars ++ (fractionText n.fraction ++ powerText n.power)

def text (n : Numeral) : List Char := if n.negative then '-' :: n.unsigned else n.unsigned

/-! ## Values -/

/-- The number with a given significand and exponent, the power still to be applied. -/
def scaled? (negative : Bool) (significand : Nat) (exponent : Int) (power : Option Power) :
    Option Number :=
  match power with
  | none => (scale? significand exponent).map fun x => .float (signed negative x)
  | some p =>
    match takeDigits exponentLimit 0 p.digits.chars with
    | (n, []) =>
      (scale? significand (if p.small then exponent - n else exponent + n)).map fun x =>
        .float (signed negative x)
    | (_, _ :: _) =>
      if significand = 0 ∨ p.small then some (.float (signed negative 0)) else none

/-- The number that a numeral is read as, unless that is out of range. -/
def number? (n : Numeral) : Option Number :=
  let (significand, dropped) := takeDigits significandLimit 0 n.whole.chars
  match n.fraction with
  | none =>
    if dropped.isEmpty && n.power.isNone then some (wholeNumber n.negative significand)
    else scaled? n.negative significand dropped.length n.power
  | some f =>
    let (significand, left) := takeDigits significandLimit significand f.chars
    scaled? n.negative significand (dropped.length - (f.chars.length - left.length : Nat)) n.power

end Numeral

/-! ## What may follow -/

/-- Whether a character could go on with a number. -/
def goesOn (c : Char) : Bool := c.isDigit || c == '.' || c == 'e' || c == 'E'

/-- Whether a number ends before a text. -/
def Stops (s : List Char) : Prop := ∀ c ∈ s.head?, goesOn c = false

lemma Stops.nil : Stops [] := by
  intro c hc
  cases hc

lemma stops_cons {c : Char} {s : List Char} : Stops (c :: s) ↔ goesOn c = false := by
  simp [Stops]

variable {s rest : List Char}

/-- Digits are followed by no further digit if nothing goes on with the number, -/
lemma Stops.noDigit (h : Stops s) : ∀ c ∈ s.head?, c.isDigit = false := by
  intro c hc
  have := h c hc
  simp only [goesOn, Bool.or_eq_false_iff] at this
  exact this.1.1.1

lemma noDigit_power {power : Option Power} (h : Stops rest) :
    ∀ c ∈ (Numeral.powerText power ++ rest).head?, c.isDigit = false := by
  cases power with
  | none => exact h.noDigit
  | some p =>
    intro c hc
    obtain rfl : p.letter = c := by simpa [Numeral.powerText, Power.text] using hc
    rcases p.letter_eq with hletter | hletter <;> rw [hletter] <;> decide

/-- nor if a fraction or a power comes next. -/
lemma noDigit_tail (fraction : Option Digits) (power : Option Power) (h : Stops rest) :
    ∀ c ∈ (Numeral.fractionText fraction ++ Numeral.powerText power ++ rest).head?,
      c.isDigit = false := by
  cases fraction with
  | none => exact noDigit_power h
  | some f =>
    intro c hc
    obtain rfl : '.' = c := by simpa [Numeral.fractionText] using hc
    decide

/-! ## Digits -/

lemma takeWhile_digits (d : Digits) (h : ∀ c ∈ s.head?, c.isDigit = false) :
    (d.chars ++ s).takeWhile Char.isDigit = d.chars := by
  rw [List.takeWhile_append_of_pos d.isDigit]
  cases s with
  | nil => simp
  | cons c s => rw [List.takeWhile_cons_of_neg (by simp [h c rfl]), List.append_nil]

lemma dropWhile_digits (d : Digits) (h : ∀ c ∈ s.head?, c.isDigit = false) :
    (d.chars ++ s).dropWhile Char.isDigit = s := by
  rw [List.dropWhile_append_of_pos d.isDigit]
  cases s with
  | nil => rfl
  | cons c s => exact List.dropWhile_cons_of_neg (by simp [h c rfl])

lemma exists_cons_digits (d : Digits) : ∃ c t, d.chars = c :: t ∧ c.isDigit = true := by
  cases hchars : d.chars with
  | nil => exact absurd hchars d.nonempty
  | cons c t => exact ⟨c, t, rfl, d.isDigit c (by simp [hchars])⟩

lemma startsWithDigit_digits (d : Digits) : startsWithDigit (d.chars ++ s) = true := by
  obtain ⟨c, t, hchars, hdigit⟩ := exists_cons_digits d
  simp [hchars, startsWithDigit, hdigit]

lemma startsWithDigit_eq_false (h : ∀ c ∈ s.head?, c.isDigit = false) :
    startsWithDigit s = false := by
  cases s with
  | nil => rfl
  | cons c s => simpa [startsWithDigit] using h c rfl

lemma integerDigits_digits (n : Numeral) (h : ∀ c ∈ s.head?, c.isDigit = false) :
    integerDigits (n.whole.chars ++ s) = .ok (n.whole.chars, s) := by
  have htake := takeWhile_digits n.whole h
  have hdrop := dropWhile_digits n.whole h
  obtain ⟨c, t, hchars, hdigit⟩ := exists_cons_digits n.whole
  have hzero := n.noLeadingZero
  rw [hchars] at htake hdrop hzero ⊢
  rw [List.cons_append] at htake hdrop ⊢
  rw [integerDigits, if_pos hdigit]
  by_cases hc : c = '0'
  · obtain rfl : t = [] := (List.cons.inj (hzero (congrArg some hc))).2
    rw [if_pos hc, List.nil_append, startsWithDigit_eq_false h]
    rfl
  · rw [if_neg hc, htake, hdrop]

lemma exponentSign_digits (sign : Option Bool) (d : Digits) :
    exponentSign (Power.signText sign ++ (d.chars ++ s))
      = (decide (sign = some true), d.chars ++ s) := by
  obtain ⟨c, t, hchars, hdigit⟩ := exists_cons_digits d
  match sign with
  | some false => rfl
  | some true => rfl
  | none =>
    rw [Power.signText, List.nil_append, hchars, List.cons_append]
    unfold exponentSign
    split
    · simp_all
    · simp_all
    · rfl

/-! ## Reading -/

lemma toOption_scaledNumber (negative : Bool) (significand : Nat) (exponent : Int) :
    (scaledNumber negative significand exponent rest).toOption
      = ((scale? significand exponent).map fun x => (.float (signed negative x), rest)) := by
  unfold scaledNumber
  cases scale? significand exponent <;> rfl

lemma toOption_readExponent (negative : Bool) (significand : Nat) (exponent : Int) (p : Power)
    (h : Stops rest) :
    (readExponent negative significand exponent
        (Power.signText p.sign ++ (p.digits.chars ++ rest))).toOption
      = (Numeral.scaled? negative significand exponent (some p)).map (·, rest) := by
  have htake := takeWhile_digits p.digits h.noDigit
  have hdrop := dropWhile_digits p.digits h.noDigit
  obtain ⟨c, t, hchars, hdigit⟩ := exists_cons_digits p.digits
  rw [readExponent, exponentSign_digits, Numeral.scaled?]
  rw [hchars, List.cons_append] at htake hdrop ⊢
  dsimp only
  rw [if_pos hdigit, htake, hdrop]
  generalize takeDigits exponentLimit 0 (c :: t) = taken
  obtain ⟨n, _ | ⟨_, _⟩⟩ := taken
  · rw [Power.small, Option.map_map]
    exact toOption_scaledNumber _ _ _
  · rw [Power.small]
    dsimp only
    split <;> rfl

lemma toOption_readScale (negative : Bool) (significand : Nat) (exponent : Int)
    (power : Option Power) (h : Stops rest) :
    (readScale negative significand exponent (Numeral.powerText power ++ rest)).toOption
      = (Numeral.scaled? negative significand exponent power).map (·, rest) := by
  cases power with
  | none =>
    rw [Numeral.powerText, List.nil_append, Numeral.scaled?, Option.map_map]
    unfold readScale
    split
    · simp [stops_cons, goesOn] at h
    · simp [stops_cons, goesOn] at h
    · exact toOption_scaledNumber ..
  | some p =>
    rw [← toOption_readExponent negative significand exponent p h, Numeral.powerText, Power.text,
      List.cons_append, List.append_assoc]
    rcases p.letter_eq with hletter | hletter <;> rw [hletter] <;> rfl

lemma toOption_readFraction (negative : Bool) (significand : Nat) (exponent : Int) (f : Digits)
    (power : Option Power) (h : Stops rest) :
    (readFraction negative significand exponent
        (f.chars ++ (Numeral.powerText power ++ rest))).toOption
      = (Numeral.scaled? negative (takeDigits significandLimit significand f.chars).1
          (exponent - (f.chars.length
            - (takeDigits significandLimit significand f.chars).2.length : Nat)) power).map
          (·, rest) := by
  rw [readFraction, takeWhile_digits f (noDigit_power h), dropWhile_digits f (noDigit_power h)]
  dsimp only
  rw [if_neg (by simp [f.nonempty])]
  exact toOption_readScale negative _ _ power h

lemma startsWithExponent_power {power : Option Power} (h : Stops rest) :
    startsWithExponent (Numeral.powerText power ++ rest) = power.isSome := by
  cases power with
  | none =>
    cases rest with
    | nil => rfl
    | cons c rest =>
      have hc := stops_cons.mp h
      simp only [goesOn, Bool.or_eq_false_iff] at hc
      simp [Numeral.powerText, startsWithExponent, hc.1.2, hc.2]
  | some p =>
    rcases p.letter_eq with hletter | hletter <;>
      simp [Numeral.powerText, Power.text, startsWithExponent, hletter]

/-- A power does not look like a fraction. -/
lemma power_ne_point {power : Option Power} (h : Stops rest) (t : List Char) :
    Numeral.powerText power ++ rest ≠ '.' :: t := by
  cases power with
  | none =>
    rintro rfl
    simp [stops_cons, goesOn] at h
  | some p =>
    rcases p.letter_eq with hletter | hletter <;> simp [Numeral.powerText, Power.text, hletter]

lemma toOption_readUnsigned (n : Numeral) (h : Stops rest) :
    (readUnsigned n.negative (n.unsigned ++ rest)).toOption = n.number?.map (·, rest) := by
  rw [Numeral.unsigned, List.append_assoc, readUnsigned,
    integerDigits_digits n (noDigit_tail n.fraction n.power h), Numeral.number?]
  dsimp only
  cases n.fraction with
  | some f =>
    rw [Numeral.fractionText, List.append_assoc, List.cons_append]
    exact toOption_readFraction n.negative _ _ f n.power h
  | none =>
    rw [Numeral.fractionText, List.nil_append]
    split
    next t heq => exact absurd heq (power_ne_point h t)
    · rw [startsWithExponent_power h, ← Option.not_isSome]
      split
      next hwhole =>
        obtain ⟨-, hpower⟩ := Bool.and_eq_true_iff.mp hwhole
        obtain hnone : n.power = none := by simpa using hpower
        rw [hnone]
        rfl
      · exact toOption_readScale n.negative _ _ n.power h

lemma unsigned_ne_minus (n : Numeral) (t : List Char) : n.unsigned ++ s ≠ '-' :: t := by
  obtain ⟨c, u, hchars, hdigit⟩ := exists_cons_digits n.whole
  intro h
  rw [Numeral.unsigned, hchars] at h
  obtain rfl := (List.cons.inj h).1
  cases hdigit

/-- **A numeral is read as a whole**, and its value does not depend on what follows. -/
theorem toOption_readNumber (n : Numeral) (h : Stops rest) :
    (readNumber (n.text ++ rest)).toOption = n.number?.map (·, rest) := by
  rw [← toOption_readUnsigned n h, Numeral.text]
  cases hnegative : n.negative with
  | true => rfl
  | false =>
    rw [if_neg Bool.false_ne_true]
    unfold readNumber
    split
    next t heq => exact absurd heq (unsigned_ne_minus n t)
    · rfl

/-! ## Passing over -/

lemma skipExponent_digits (sign : Option Bool) (d : Digits) (h : Stops rest) :
    skipExponent (Power.signText sign ++ (d.chars ++ rest)) = .ok rest := by
  rw [skipExponent, exponentSign_digits]
  dsimp only
  rw [if_pos (startsWithDigit_digits d), dropWhile_digits d h.noDigit]

lemma skipScale_power (power : Option Power) (h : Stops rest) :
    skipScale (Numeral.powerText power ++ rest) = .ok rest := by
  cases power with
  | none =>
    rw [Numeral.powerText, List.nil_append]
    unfold skipScale
    split
    · simp [stops_cons, goesOn] at h
    · simp [stops_cons, goesOn] at h
    · rfl
  | some p =>
    rw [Numeral.powerText, Power.text, List.cons_append, List.append_assoc]
    rcases p.letter_eq with hletter | hletter <;> rw [hletter] <;>
      exact skipExponent_digits p.sign p.digits h

/-- Whatever the size of a numeral, it is passed over. -/
theorem skipUnsigned_numeral (n : Numeral) (h : Stops rest) :
    skipUnsigned (n.unsigned ++ rest) = .ok rest := by
  have hdigits := integerDigits_digits n (noDigit_tail n.fraction n.power h)
  rw [Numeral.unsigned, List.append_assoc]
  unfold skipUnsigned
  split
  next heq => rw [heq] at hdigits; cases hdigits
  · rw [hdigits]
    cases n.fraction with
    | some f =>
      rw [Numeral.fractionText, List.append_assoc, List.cons_append]
      change (if startsWithDigit (f.chars ++ _) then _ else _) = _
      rw [if_pos (startsWithDigit_digits f), dropWhile_digits f (noDigit_power h),
        skipScale_power n.power h]
    | none =>
      rw [Numeral.fractionText, List.nil_append]
      split
      next heq => cases heq
      next heq =>
        simp only [Except.ok.injEq, Prod.mk.injEq] at heq
        exact absurd heq.2 (power_ne_point h _)
      next heq =>
        simp only [Except.ok.injEq, Prod.mk.injEq] at heq
        rw [← heq.2, skipScale_power n.power h]

end FramePacing.Json
