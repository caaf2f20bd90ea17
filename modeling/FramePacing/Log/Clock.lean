import FramePacing.Decimal.Fixed

/-!
# Log timestamps

A log entry is stamped with a number of milliseconds.  There are two clocks, and each has its own
way of writing a stamp: the page's performance clock shows hours, minutes, seconds and
milliseconds, the sequence counter its count.  Both cut a stamp down to a whole number below
`2 ^ 64` first; what is negative or not a number becomes `0`.
-/

namespace FramePacing.Log

/-- Where the stamps of log entries come from. -/
inductive Clock where
  /-- The time since the page was opened. -/
  | performance
  /-- A counter that goes up by one with each reading. -/
  | sequence
deriving DecidableEq, Repr

/-- A stamp in whole milliseconds, at least `0` and below `2 ^ 64`. -/
def wholeMillis (timestamp : Float) : Nat := timestamp.toUInt64.toNat

open Decimal (padded) in
/-- Milliseconds as `HH:MM:SS.mmm`; the hours have as many digits as they need. -/
def timeOfDay (millis : Nat) : String :=
  let seconds := millis / 1000
  padded 2 (seconds / 3600) ++ ":" ++ padded 2 (seconds / 60 % 60) ++ ":"
    ++ padded 2 (seconds % 60) ++ "." ++ padded 3 (millis % 1000)

def Clock.format : Clock → (timestamp : Float) → String
  | .performance, timestamp => timeOfDay (wholeMillis timestamp)
  | .sequence, timestamp => Decimal.padded 6 (wholeMillis timestamp)

end FramePacing.Log
