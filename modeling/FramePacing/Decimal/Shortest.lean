import FramePacing.Decimal.Magnitude

/-!
# The fewest digits that read back

The reals that round to a float form an interval around it.  Its ends are half a unit in the last
place away, only a quarter unit below a power of two, and belong to it when the significand is
even.  The shortest decimal form of the float is the point of that interval on the coarsest grid of
multiples of a power of ten that has one; of two neighbours on that grid the nearer is taken.

All comparisons are between natural numbers: for the grid of `10 ^ k`, one step of the grid and a
quarter unit of the float are both multiples of a common small number.

* `Magnitude.readsBack` — membership in the interval.
* `Magnitude.shortest` — the point that is chosen.
-/

namespace FramePacing.Decimal

/-- The number `coefficient * 10 ^ exponent`. -/
structure Scaled where
  coefficient : Nat
  exponent : Int
deriving DecidableEq, Repr

namespace Magnitude

/-! ## The interval of a float -/

/-- A step of the grid of `10 ^ k`, in the unit that `quarter x k` is counted in. -/
def step (x : Magnitude) (k : Int) : Nat :=
  Nat.pow 10 k.toNat * Nat.pow 2 (2 - x.exponent).toNat

/-- A quarter unit in the last place of `x`, in the unit that `step x k` is counted in. -/
def quarter (x : Magnitude) (k : Int) : Nat :=
  Nat.pow 2 (x.exponent - 2).toNat * Nat.pow 10 (-k).toNat

/-- How many quarter units the interval of `x` reaches down. -/
def reachBelow (x : Magnitude) : Nat :=
  if x.significand = 0x10000000000000 ∧ -1074 < x.exponent then 1 else 2

/-- Whether `c * 10 ^ k` lies in the interval of `x`. -/
def readsBack (x : Magnitude) (k : Int) (c : Nat) : Bool :=
  let point := c * x.step k
  let low := (4 * x.significand - x.reachBelow) * x.quarter k
  let high := (4 * x.significand + 2) * x.quarter k
  if x.significand % 2 = 0 then low ≤ point && point ≤ high
  else low < point && point < high

/-! ## The choice -/

/-- The point of the interval of `x` on the grid of `10 ^ k` that is nearest to `x`. -/
def onGrid? (tie : Tie) (x : Magnitude) (k : Int) : Option Scaled :=
  let value := 4 * x.significand * x.quarter k
  let below := value / x.step k
  let candidates := [roundDiv tie value (x.step k), below, below + 1]
  (candidates.find? (x.readsBack k)).map fun c => ⟨c, k⟩

/-- The powers of ten that a float can be a multiple of, the largest first. -/
def grids : List Int := (List.range 633).map fun (i : Nat) => 308 - (i : Int)

/-- The decimal with the fewest digits that reads back as `x`, the nearest one of these. -/
def shortest (tie : Tie) (x : Magnitude) : Scaled :=
  (grids.findSome? (x.onGrid? tie)).getD ⟨0, 0⟩

end Magnitude

end FramePacing.Decimal
