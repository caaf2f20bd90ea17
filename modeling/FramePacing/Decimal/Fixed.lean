import FramePacing.Decimal.Magnitude

/-!
# Numbers with a fixed count of decimal places

`fixed n x` is the text of a float with exactly `n` decimal places.  It rounds the exact binary
value once, a tie going to the even digit, and keeps the sign even where all digits shown are zero.

A float with `k` binary places has at most `k` decimal places, so no more than `k` of them are
computed and the others are zeros.

* `length_lowDigits` — the digits after the point are exactly as many as were asked for.
-/

namespace FramePacing.Decimal

/-! ## Digits -/

/-- The `width` lowest decimal digits of `n`, leading zeros included, put before `tail`. -/
def lowDigits : (width n : Nat) → (tail : List Char) → List Char
  | 0, _, tail => tail
  | width + 1, n, tail => lowDigits width (n / 10) (Nat.digitChar (n % 10) :: tail)

theorem length_lowDigits (width n : Nat) (tail : List Char) :
    (lowDigits width n tail).length = width + tail.length := by
  induction width generalizing n tail with
  | zero => simp [lowDigits]
  | succ width ih => simp [lowDigits, ih]; omega

/-- The decimal digits of `n`, with zeros in front if they are fewer than `width`. -/
def padded (width n : Nat) : String :=
  String.ofList ((Nat.toDigits 10 n).leftpad width '0')

/-! ## The text -/

/-- The text of a magnitude with exactly `places` decimal places. -/
def Magnitude.fixed (places : Nat) (x : Magnitude) : String :=
  let kept := min places x.binaryPlaces
  let scaled := roundDiv .toEven (x.numerator * Nat.pow 10 kept) x.denominator
  let whole := toString (scaled / Nat.pow 10 kept)
  if places = 0 then whole
  else
    whole ++ "." ++
      String.ofList (lowDigits kept scaled (List.replicate (places - kept) '0'))

def signText (negative : Bool) : String := if negative then "-" else ""

/-- The text of a float with exactly `places` decimal places. -/
def fixed (places : Nat) (x : Float) : String :=
  match Reading.ofFloat x with
  | .nan => "NaN"
  | .infinite negative => signText negative ++ "inf"
  | .finite negative m => signText negative ++ m.fixed places

end FramePacing.Decimal
