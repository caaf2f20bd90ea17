import FramePacing.Settings.Basic
import FramePacing.Statistics
import FramePacing.Window

/-!
# The profiler

A `Profiler` is given the time of each frame.  The first time starts the measurement, each later one
records the duration since the one before.  A time that is not finite is ignored, with a warning.
-/

namespace FramePacing

open Log (Logged Component)

/-- The window of recent frames, and the time of the last frame once there is one. -/
structure Profiler where
  window : Window
  previous : Option Timestamp
deriving DecidableEq

namespace Profiler

def component : Component := ⟨.domain, "PercentileProfiler"⟩

/-- A profiler that has seen nothing. -/
def ofCapacity (capacity : Nat) : Profiler := ⟨.ofCapacity capacity, none⟩

/-- The profiler for valid settings. -/
def ofSettings (s : Settings) : Except SettingsError Profiler :=
  s.validate.map fun s => ofCapacity s.sampleCapacity.toNat

/-- The duration that a frame at `now` would be given; none if it is the first one. -/
def gap? (p : Profiler) (now : Timestamp) : Option Duration := p.previous.map now.since

/-- Takes note of a frame at a point in time. -/
def record (p : Profiler) (now : Timestamp) : Profiler :=
  { window := match p.gap? now with
      | some d => p.window.push d
      | none => p.window
    previous := some now }

/-- Takes note of a frame, unless its time is not finite. -/
def update (p : Profiler) (now : Timestamp) : Logged Profiler :=
  if now.isValid then return p.record now
  else do
    .say .warn component ("ignoring non-finite timestamp " ++ Decimal.plainText now.millis)
    return p

def summary (p : Profiler) : Logged Summary := Statistics.summarize p.window.toList

def reset (p : Profiler) : Logged Profiler := do
  .say .info component ("reset after " ++ toString p.window.size ++ " samples")
  return ⟨p.window.clear, none⟩

end Profiler

end FramePacing
