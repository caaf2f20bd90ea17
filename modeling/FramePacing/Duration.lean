/-!
# Timestamps and frame durations

A `Timestamp` is a clock reading and may be any float.  A `Duration` is what a frame took: it is
made by `Duration.ofMillis`, which turns everything but a finite positive number into zero, so that
a clock that runs backwards or jumps away measures nothing.
-/

namespace FramePacing

/-- The time that a frame took, in milliseconds. -/
structure Duration where
  millis : Float
deriving DecidableEq

/-- A reading of a clock, in milliseconds. -/
structure Timestamp where
  millis : Float
deriving DecidableEq

namespace Duration

/-- No time, or none that could be measured. -/
def zero : Duration := ⟨0⟩

/-- A number of milliseconds as a duration; zero unless it is finite and positive. -/
def ofMillis (x : Float) : Duration := if x.isFinite && 0 < x then ⟨x⟩ else zero

/-- Whether a duration says that there is no data. -/
def isZero (d : Duration) : Bool := d.millis == 0

/-- Frames per second at this duration, unless there is no data. -/
def rate? (d : Duration) : Option Float := if d.isZero then none else some (1000 / d.millis)

end Duration

namespace Timestamp

/-- Whether a reading is a point in time. -/
def isValid (t : Timestamp) : Bool := t.millis.isFinite

/-- The time from `earlier` to `t`, zero if the clock went back. -/
def since (t earlier : Timestamp) : Duration := .ofMillis (t.millis - earlier.millis)

end Timestamp

end FramePacing
