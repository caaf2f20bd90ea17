import FramePacing.Decimal.Layout
import FramePacing.Duration
import FramePacing.Json.Writer

/-!
# Summaries of a window

A `Summary` holds the three frame times that are shown for a window: the average, and the averages
over its slowest hundredth and thousandth.  A summary of zeros means that there is no data yet, not
that frames take no time.
-/

namespace FramePacing

/-- The frame times that a window is summed up in, in milliseconds. -/
structure Summary where
  average : Float
  onePercentLow : Float
  tenthPercentLow : Float
deriving DecidableEq

namespace Summary

/-- The summary of nothing. -/
def zero : Summary := ⟨0, 0, 0⟩

/-- The summary of three durations. -/
def ofDurations (average onePercentLow tenthPercentLow : Duration) : Summary :=
  ⟨average.millis, onePercentLow.millis, tenthPercentLow.millis⟩

/-- Whether there is no data. -/
def isEmpty (s : Summary) : Bool :=
  s.average == 0 && s.onePercentLow == 0 && s.tenthPercentLow == 0

def averageRate? (s : Summary) : Option Float := (Duration.ofMillis s.average).rate?

def onePercentRate? (s : Summary) : Option Float := (Duration.ofMillis s.onePercentLow).rate?

def tenthPercentRate? (s : Summary) : Option Float := (Duration.ofMillis s.tenthPercentLow).rate?

open Decimal (fixed) in
def text (s : Summary) : String :=
  "avg " ++ fixed 3 s.average ++ "ms | 1% low " ++ fixed 3 s.onePercentLow
    ++ "ms | 0.1% low " ++ fixed 3 s.tenthPercentLow ++ "ms"

open Decimal (jsonText) in
def json (s : Summary) : String :=
  Json.object [
    ("avg_frame_time", jsonText s.average),
    ("one_percent_frame_time", jsonText s.onePercentLow),
    ("tenth_percent_frame_time", jsonText s.tenthPercentLow)]

end Summary

end FramePacing
