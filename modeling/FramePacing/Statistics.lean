import FramePacing.Log.Logged
import FramePacing.Summary

/-!
# Statistics of a window

The slowest frames decide how smooth a page feels.  A `Tail` is the share of slowest frames that a
low statistic averages over; `Tail.size` says how many frames that are, never none.  `summarize`
sorts the durations from the slowest to the fastest and averages all of them and the two tails.

Sums are taken from left to right, slowest first, so that a summary does not depend on the order in
which the frames came.
-/

namespace FramePacing

open Decimal (nearestFloat roundToNat)
open Log (Logged)

/-! ## Tails -/

/-- A share of the slowest frames. -/
inductive Tail where
  | onePercent
  | tenthPercent
deriving DecidableEq, Repr

namespace Tail

def label : Tail → String
  | .onePercent => "1%"
  | .tenthPercent => "0.1%"

/-- The share of all frames that a tail takes. -/
def fraction : Tail → Float
  | .onePercent => 0.01
  | .tenthPercent => 0.001

/-- How many of `count` frames are in the tail: the nearest whole number, but at least one. -/
def size (tail : Tail) (count : Nat) : Nat :=
  max 1 (min (roundToNat (tail.fraction * nearestFloat count)) (max count 1))

end Tail

/-! ## Means -/

namespace Statistics

/-- The sum from left to right, starting at negative zero. -/
def sum (xs : List Float) : Float := xs.foldl (· + ·) (-0.0)

/-- The mean of a list, zero if it is empty. -/
def mean (xs : List Float) : Float :=
  if xs.isEmpty then 0 else sum xs / nearestFloat xs.length

/-- The mean over a tail of a list that is sorted from the slowest frame to the fastest. -/
def lowAverage (sorted : List Float) (tail : Tail) : Float :=
  if sorted.isEmpty then 0 else mean (sorted.take (tail.size sorted.length))

/-! ## Sorting -/

/--
The place of a float in the total order of all floats.  The sign bit puts the negative floats
first; among them a larger bit pattern is a smaller number.
-/
def orderKey (x : Float) : UInt64 :=
  let bits := x.toBits
  if bits < 0x8000000000000000 then bits + 0x8000000000000000 else ~~~bits

/-- The slowest frame first. -/
def sortDescending (xs : List Float) : List Float :=
  xs.mergeSort fun a b => orderKey b ≤ orderKey a

/-! ## The summary -/

/-- The log line that tells how large the tails were. -/
def report (count : Nat) : Logged Unit :=
  .say .debug ⟨.domain, "FrameStatistics"⟩ <|
    "samples: " ++ toString count
      ++ ", " ++ Tail.onePercent.label ++ " take: " ++ toString (Tail.onePercent.size count)
      ++ ", " ++ Tail.tenthPercent.label ++ " take: " ++ toString (Tail.tenthPercent.size count)

/-- The summary of a list of durations in any order. -/
def summarize (durations : List Duration) : Logged Summary :=
  if durations.isEmpty then pure .zero
  else do
    let sorted := sortDescending (durations.map (·.millis))
    report sorted.length
    return .ofDurations
      (.ofMillis (mean sorted))
      (.ofMillis (lowAverage sorted .onePercent))
      (.ofMillis (lowAverage sorted .tenthPercent))

end Statistics

end FramePacing
