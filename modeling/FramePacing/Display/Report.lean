import FramePacing.Error
import FramePacing.Summary

/-!
# Rates as they are shown

A frame time is shown as a rate, `62.500fps` for sixteen milliseconds.  A frame time of which there
is no rate is shown as `--fps`.  A `Report` holds the rates of a summary.

A number cannot be formatted with more than `65535` decimal places; to ask for more is a fault, but
only where there is a rate to be formatted.
-/

namespace FramePacing.Display

def unit : String := "fps"

def noData : String := "--"

def maxDecimals : Nat := 65535

/-- A frame time as a rate. -/
def rateText (millis : Float) (decimals : Nat) : Except Fault String :=
  match (Duration.ofMillis millis).rate? with
  | some rate =>
    if decimals ≤ maxDecimals then .ok (Decimal.fixed decimals rate ++ unit)
    else .error .precision
  | none => .ok (noData ++ unit)

/-- The rates of a summary as they are shown. -/
structure Report where
  average : String
  onePercentLow : String
  tenthPercentLow : String
deriving DecidableEq, Repr

namespace Report

def ofSummary (s : Summary) (decimals : Nat) : Except Fault Report := do
  return {
    average := ← rateText s.average decimals
    onePercentLow := ← rateText s.onePercentLow decimals
    tenthPercentLow := ← rateText s.tenthPercentLow decimals }

def json (r : Report) : String :=
  Json.object [
    ("avg", Json.quote r.average),
    ("one_percent_low", Json.quote r.onePercentLow),
    ("tenth_percent_low", Json.quote r.tenthPercentLow)]

end Report

end FramePacing.Display
