import FramePacing.Json.Scan

/-!
# Numbers

A number without fraction and exponent that fits is an integer, from `-2 ^ 63` up to below
`2 ^ 64`; all others are floats.  A float is read in three steps, each of which may lose something:

* its digits are taken into a significand below `2 ^ 64` until the next one would not fit; digits
  left out before the point are counted and those after it are dropped (`takeDigits`);
* the significand becomes the nearest float;
* that float is multiplied or divided by the nearest float to a power of ten (`scale?`).

So a number is not always read as the float that is nearest to it.

`skipUnsigned` passes over a number of any size and only checks its form.

* `length_readNumber_lt`, `length_skipUnsigned_lt` — a number takes at least one character.
-/

namespace FramePacing.Json

open Decimal (nearestFloat powerOfTen)

/-- A number that was read. -/
inductive Number where
  | integer (n : Int)
  | float (x : Float)
deriving DecidableEq

/-- A number among the values that were found in the wrong place. -/
def Number.found : Number → Found
  | .integer n => .integer n
  | .float x => .float x

/-! ## Digits -/

def digitValue (c : Char) : Nat := c.toNat - '0'.toNat

/-- Appends digits to a number while it stays within `limit`; also returns the digits left over. -/
def takeDigits (limit : Nat) : (n : Nat) → (digits : List Char) → Nat × List Char
  | n, [] => (n, [])
  | n, c :: digits =>
    let next := 10 * n + digitValue c
    if next ≤ limit then takeDigits limit next digits else (n, c :: digits)

def significandLimit : Nat := 0xffffffffffffffff

/-- The largest exponent that is told apart from greater ones. -/
def exponentLimit : Nat := 0x7fffffff

def startsWithDigit (s : List Char) : Bool := s.head?.any Char.isDigit

/-- Splits the digits before the point off a number; only a lone zero may start with a zero. -/
def integerDigits (s : List Char) : Except Complaint (List Char × List Char) :=
  match s with
  | [] => before [] .endInValue
  | c :: rest =>
    if c.isDigit then
      if c = '0' then
        if startsWithDigit rest then including rest .invalidNumber else .ok ([c], rest)
      else .ok (s.takeWhile Char.isDigit, s.dropWhile Char.isDigit)
    else including s .invalidNumber

/-! ## Scaling -/

/-- Divides by `10 ^ n`, in steps of at most `10 ^ 308`. -/
def shrink (x : Float) (n : Nat) : Float :=
  if n ≤ 308 then x / powerOfTen n
  else if x == 0 then x
  else shrink (x / powerOfTen 308) (n - 308)
termination_by n

/-- The float for `significand * 10 ^ exponent`, unless that is too large for one. -/
def scale? (significand : Nat) (exponent : Int) : Option Float :=
  let x := nearestFloat significand
  if exponent < 0 then some (shrink x exponent.natAbs)
  else if x == 0 then some x
  else if exponent ≤ 308 then
    let scaled := x * powerOfTen exponent.toNat
    if scaled.isInf then none else some scaled
  else none

def signed (negative : Bool) (x : Float) : Float := if negative then -x else x

/-- The float nearest to a number. -/
def Number.toFloat : Number → Float
  | .integer n => signed (n < 0) (nearestFloat n.natAbs)
  | .float x => x

/-- The number with a given significand and exponent, `rest` following it. -/
def scaledNumber (negative : Bool) (significand : Nat) (exponent : Int) (rest : List Char) :
    Except Complaint (Number × List Char) :=
  match scale? significand exponent with
  | some x => .ok (.float (signed negative x), rest)
  | none => before rest .numberOutOfRange

/-! ## Reading -/

/-- Splits the sign off an exponent. -/
def exponentSign : List Char → Bool × List Char
  | '+' :: rest => (false, rest)
  | '-' :: rest => (true, rest)
  | rest => (false, rest)

/--
Reads the exponent of a number, from behind the letter.  One that is too large to be counted makes
the number zero if it is negative or the significand is zero, and puts it out of range otherwise.
-/
def readExponent (negative : Bool) (significand : Nat) (exponent : Int) (s : List Char) :
    Except Complaint (Number × List Char) :=
  let (small, s) := exponentSign s
  match s with
  | [] => before [] .endInValue
  | c :: _ =>
    if c.isDigit then
      let rest := s.dropWhile Char.isDigit
      match takeDigits exponentLimit 0 (s.takeWhile Char.isDigit) with
      | (n, []) =>
        let exponent := if small then exponent - n else exponent + n
        scaledNumber negative significand exponent rest
      | (_, _ :: beyond) =>
        if significand = 0 ∨ small then .ok (.float (signed negative 0), rest)
        else before (beyond ++ rest) .numberOutOfRange
    else including s .invalidNumber

/-- Reads what follows the digits of a number that is a float. -/
def readScale (negative : Bool) (significand : Nat) (exponent : Int) (s : List Char) :
    Except Complaint (Number × List Char) :=
  match s with
  | 'e' :: rest => readExponent negative significand exponent rest
  | 'E' :: rest => readExponent negative significand exponent rest
  | rest => scaledNumber negative significand exponent rest

/-- Reads the fraction of a number, from behind its point. -/
def readFraction (negative : Bool) (significand : Nat) (exponent : Int) (s : List Char) :
    Except Complaint (Number × List Char) :=
  let digits := s.takeWhile Char.isDigit
  let rest := s.dropWhile Char.isDigit
  if digits.isEmpty then
    if rest.isEmpty then before [] .endInValue else including rest .invalidNumber
  else
    let (significand, dropped) := takeDigits significandLimit significand digits
    readScale negative significand (exponent - (digits.length - dropped.length : Nat)) rest

/-- The number written with digits only; zero with a sign and what does not fit are floats. -/
def wholeNumber (negative : Bool) (n : Nat) : Number :=
  if !negative then .integer n
  else if 0 < n ∧ n ≤ 0x8000000000000000 then .integer (-n)
  else .float (-nearestFloat n)

def startsWithExponent (s : List Char) : Bool := s.head?.any fun c => c == 'e' || c == 'E'

/-- Reads a number, from behind its sign. -/
def readUnsigned (negative : Bool) (s : List Char) : Except Complaint (Number × List Char) :=
  match integerDigits s with
  | .error e => .error e
  | .ok (digits, rest) =>
    let (significand, dropped) := takeDigits significandLimit 0 digits
    match rest with
    | '.' :: rest => readFraction negative significand dropped.length rest
    | rest =>
      if dropped.isEmpty && !startsWithExponent rest then
        .ok (wholeNumber negative significand, rest)
      else readScale negative significand dropped.length rest

def readNumber (s : List Char) : Except Complaint (Number × List Char) :=
  match s with
  | '-' :: rest => readUnsigned true rest
  | s => readUnsigned false s

theorem length_dropDigits_le (s : List Char) : (s.dropWhile Char.isDigit).length ≤ s.length :=
  (List.dropWhile_suffix Char.isDigit).length_le

theorem length_integerDigits_lt {s digits rest : List Char}
    (h : integerDigits s = .ok (digits, rest)) : rest.length < s.length := by
  unfold integerDigits at h
  split at h
  · cases h
  next c tail =>
    split at h
    next hdigit =>
      split at h
      · split at h
        · cases h
        · cases h; exact Nat.lt_succ_self _
      · cases h
        rw [List.dropWhile_cons_of_pos hdigit]
        exact Nat.lt_succ_of_le (length_dropDigits_le tail)
    · cases h

theorem scaledNumber_rest {negative : Bool} {significand : Nat} {exponent : Int}
    {s rest : List Char} {n : Number}
    (h : scaledNumber negative significand exponent s = .ok (n, rest)) : rest = s := by
  unfold scaledNumber at h
  split at h <;> cases h
  rfl

theorem length_exponentSign_le (s : List Char) : (exponentSign s).2.length ≤ s.length := by
  unfold exponentSign
  split <;> simp

theorem length_readExponent_le {negative : Bool} {significand : Nat} {exponent : Int}
    {s rest : List Char} {n : Number}
    (h : readExponent negative significand exponent s = .ok (n, rest)) :
    rest.length ≤ s.length := by
  have hsign := length_exponentSign_le s
  unfold readExponent at h
  dsimp only at h
  generalize (exponentSign s).2 = t at h hsign
  have hdrop := length_dropDigits_le t
  split at h
  · cases h
  · split at h
    · split at h
      · rw [scaledNumber_rest h]; omega
      · split at h
        · cases h; omega
        · cases h
    · cases h

theorem length_readScale_le {negative : Bool} {significand : Nat} {exponent : Int}
    {s rest : List Char} {n : Number}
    (h : readScale negative significand exponent s = .ok (n, rest)) :
    rest.length ≤ s.length := by
  unfold readScale at h
  split at h
  · exact Nat.le_succ_of_le (length_readExponent_le h)
  · exact Nat.le_succ_of_le (length_readExponent_le h)
  · exact Nat.le_of_eq (congrArg List.length (scaledNumber_rest h))

theorem length_readFraction_le {negative : Bool} {significand : Nat} {exponent : Int}
    {s rest : List Char} {n : Number}
    (h : readFraction negative significand exponent s = .ok (n, rest)) :
    rest.length ≤ s.length := by
  unfold readFraction at h
  dsimp only at h
  split at h
  · split at h <;> cases h
  · exact Nat.le_trans (length_readScale_le h) (length_dropDigits_le s)

theorem length_readUnsigned_lt {negative : Bool} {s rest : List Char} {n : Number}
    (h : readUnsigned negative s = .ok (n, rest)) : rest.length < s.length := by
  unfold readUnsigned at h
  split at h
  · cases h
  next digits tail hdigits =>
    have hlt := length_integerDigits_lt hdigits
    dsimp only at h
    split at h
    next fraction =>
      have := length_readFraction_le h
      simp only [List.length_cons] at hlt
      omega
    · split at h
      · cases h; exact hlt
      · exact Nat.lt_of_le_of_lt (length_readScale_le h) hlt

theorem length_readNumber_lt {s rest : List Char} {n : Number}
    (h : readNumber s = .ok (n, rest)) : rest.length < s.length := by
  unfold readNumber at h
  split at h
  · exact Nat.lt_succ_of_lt (length_readUnsigned_lt h)
  · exact length_readUnsigned_lt h

/-! ## Passing over -/

def skipExponent (s : List Char) : Except Complaint (List Char) :=
  let (_, s) := exponentSign s
  if startsWithDigit s then .ok (s.dropWhile Char.isDigit) else including s .invalidNumber

/-- Passes over what follows the digits of a number. -/
def skipScale (s : List Char) : Except Complaint (List Char) :=
  match s with
  | 'e' :: rest => skipExponent rest
  | 'E' :: rest => skipExponent rest
  | rest => .ok rest

def skipUnsigned (s : List Char) : Except Complaint (List Char) :=
  match s with
  | [] => including [] .invalidNumber
  | s =>
    match integerDigits s with
    | .error e => .error e
    | .ok (_, '.' :: rest) =>
      if startsWithDigit rest then skipScale (rest.dropWhile Char.isDigit)
      else including rest .invalidNumber
    | .ok (_, rest) => skipScale rest

theorem length_skipExponent_le {s rest : List Char} (h : skipExponent s = .ok rest) :
    rest.length ≤ s.length := by
  have hsign := length_exponentSign_le s
  unfold skipExponent at h
  dsimp only at h
  split at h
  · cases h; exact Nat.le_trans (length_dropDigits_le _) hsign
  · cases h

theorem length_skipScale_le {s rest : List Char} (h : skipScale s = .ok rest) :
    rest.length ≤ s.length := by
  unfold skipScale at h
  split at h
  · exact Nat.le_succ_of_le (length_skipExponent_le h)
  · exact Nat.le_succ_of_le (length_skipExponent_le h)
  · cases h; exact Nat.le_refl _

theorem length_skipUnsigned_lt {s rest : List Char} (h : skipUnsigned s = .ok rest) :
    rest.length < s.length := by
  unfold skipUnsigned at h
  split at h
  · cases h
  · split at h
    · cases h
    next digits fraction hdigits =>
      have hlt := length_integerDigits_lt hdigits
      simp only [List.length_cons] at hlt
      split at h
      · have := length_skipScale_le h
        have := length_dropDigits_le fraction
        omega
      · cases h
    next hdigits =>
      exact Nat.lt_of_le_of_lt (length_skipScale_le h) (length_integerDigits_lt hdigits)

end FramePacing.Json
