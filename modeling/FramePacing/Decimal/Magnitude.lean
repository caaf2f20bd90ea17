import FramePacing.Decimal.Rounding

/-!
# The exact value of a float

A finite float is a sign and a `Magnitude` `significand * 2 ^ exponent`.  `Reading.ofFloat` takes a
float apart in the way in which core's own model of `Float` does, so that a statement about shown
digits and a statement about float arithmetic speak of one and the same pair of numbers.
-/

namespace FramePacing.Decimal

/-- The magnitude `significand * 2 ^ exponent` of a finite float. -/
structure Magnitude where
  significand : Nat
  exponent : Int
deriving DecidableEq, Repr

/-- What a float denotes. -/
inductive Reading where
  | nan
  | infinite (negative : Bool)
  | finite (negative : Bool) (magnitude : Magnitude)
deriving DecidableEq, Repr

namespace Magnitude

/-- The number of binary places after the point. -/
def binaryPlaces (x : Magnitude) : Nat := (-x.exponent).toNat

/-- Over `x.denominator`, the exact value of `x`. -/
def numerator (x : Magnitude) : Nat := x.significand * Nat.pow 2 x.exponent.toNat

/-- A power of two, `1` unless `x` has places after the binary point. -/
def denominator (x : Magnitude) : Nat := Nat.pow 2 x.binaryPlaces

theorem denominator_pos (x : Magnitude) : 0 < x.denominator := Nat.two_pow_pos _

end Magnitude

open Float.Model (UnpackedFloat) in
/-- Takes a float apart; both zeros have magnitude `0`. -/
def Reading.ofFloat (x : Float) : Reading :=
  match x.toModel.unpack with
  | .notANumber => .nan
  | .infinity sign => .infinite (sign == .negative)
  | .zero sign => .finite (sign == .negative) ⟨0, 0⟩
  | .finite sign significand exponent _ => .finite (sign == .negative) ⟨significand, exponent⟩

/-- The float nearest to a natural number, the even one of two. -/
def nearestFloat (n : Nat) : Float := .ofModel (.ofNat n)

/-- The float nearest to `10 ^ n`, infinite beyond the largest one. -/
def powerOfTen (n : Nat) : Float := .ofModel (.ofScientific 1 n)

/--
The natural number nearest to a float, halves upwards.  It is `0` for what is negative or not a
number, and for an infinity, which no caller asks for.
-/
def roundToNat (x : Float) : Nat :=
  match Reading.ofFloat x with
  | .finite false m => roundDiv .away m.numerator m.denominator
  | _ => 0

end FramePacing.Decimal
