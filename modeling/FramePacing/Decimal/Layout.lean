import FramePacing.Decimal.Fixed
import FramePacing.Decimal.Shortest

/-!
# Writing a float in full

A `Layout` holds the decisions that are left once the shortest digits of a float are known: which
way a tie goes, how a whole number ends, and which numbers are written with an exponent.  The
library has two: `Layout.plain` in running text and `Layout.json` in JSON.
-/

namespace FramePacing.Decimal

/-- How the shortest digits of a number are laid out. -/
structure Layout where
  /-- Which of two equally near digit sequences is taken. -/
  tie : Tie
  /-- What follows the digits of a whole number. -/
  wholeEnding : String
  /-- Whether a number whose leading digit stands for `10 ^ n` is written without an exponent. -/
  positional : (n : Int) → Bool

namespace Layout

/-- Running text: never an exponent, no point in a whole number, a tie goes up. -/
def plain : Layout := ⟨.away, "", fun _ => true⟩

/--
JSON: no exponent from `0.00001` up to below `1e16`, a whole number ends in `.0`, a tie goes to the
even digit.
-/
def json : Layout := ⟨.toEven, ".0", fun n => -5 ≤ n && n < 16⟩

end Layout

namespace Scaled

def digits (x : Scaled) : List Char := Nat.toDigits 10 x.coefficient

/-- The power of ten that the leading digit stands for. -/
def leading (x : Scaled) : Int := x.digits.length + x.exponent - 1

/-- All digits in their places, `ending` after a whole number. -/
def positional (ending : String) (x : Scaled) : String :=
  let point := x.digits.length + x.exponent
  if 0 ≤ x.exponent then
    String.ofList (x.digits ++ List.replicate x.exponent.toNat '0') ++ ending
  else if 0 < point then
    String.ofList (x.digits.take point.toNat) ++ "." ++ String.ofList (x.digits.drop point.toNat)
  else
    "0." ++ String.ofList (List.replicate (-point).toNat '0' ++ x.digits)

/-- One digit before the point, then the exponent with its sign. -/
def scientific (x : Scaled) : String :=
  let fraction := x.digits.drop 1
  String.ofList (x.digits.take 1)
    ++ (if fraction.isEmpty then "" else "." ++ String.ofList fraction)
    ++ "e" ++ (if x.leading < 0 then "-" else "+") ++ toString x.leading.natAbs

/-- The text of a decimal under a layout. -/
def text (layout : Layout) (x : Scaled) : String :=
  if layout.positional x.leading then x.positional layout.wholeEnding else x.scientific

end Scaled

/-- The shortest text under a layout that reads back as the float. -/
def shortestText (layout : Layout) (x : Float) : String :=
  match Reading.ofFloat x with
  | .nan => "NaN"
  | .infinite negative => signText negative ++ "inf"
  | .finite negative m =>
    signText negative ++
      (if m.significand = 0 then "0" ++ layout.wholeEnding
       else (m.shortest layout.tie).text layout)

/-- A float in running text, such as `1000` or `0.0000001`. -/
def plainText (x : Float) : String := shortestText .plain x

/-- A float as a JSON value, such as `16.0` or `1e-7`; JSON has finite numbers only. -/
def jsonText (x : Float) : String := if x.isFinite then shortestText .json x else "null"

end FramePacing.Decimal
