import FramePacing.Error
import FramePacing.Json.Problem
import FramePacing.Json.Writer

/-!
# Settings

The `Settings` of a bench say how many frames the window holds, how much frame time passes between
two refreshes of the display, and how many decimal places are shown.  `validate` accepts settings
with room for a frame and an interval of finite positive length; it asks nothing of the decimals.
-/

namespace FramePacing

/-- What a bench is set up with. -/
structure Settings where
  /-- The number of frames in the window. -/
  sampleCapacity : UInt64 := 2000
  /-- The frame time between two refreshes, in milliseconds. -/
  refreshInterval : Float := 1000
  /-- The number of decimal places of a shown rate. -/
  decimals : UInt64 := 3
deriving DecidableEq

/-- Why settings are refused. -/
inductive SettingsError where
  /-- The window would hold no frame. -/
  | noSamples
  /-- The interval is not a finite positive number. -/
  | interval (x : Float)
  /-- The text is not that of any settings. -/
  | unreadable (problem : Json.Problem)
deriving DecidableEq

namespace SettingsError

def text : SettingsError → String
  | .noSamples => "sample_capacity must be at least 1"
  | .interval x => "refresh_interval_ms must be positive, got " ++ Decimal.plainText x
  | .unreadable problem => "invalid profiler config: " ++ problem.text

/-- A refusal as an error of the library. -/
def toError (e : SettingsError) : Error := ⟨.validation, e.text⟩

end SettingsError

namespace Settings

/-- The first thing that is wrong with settings. -/
def complaint? (s : Settings) : Option SettingsError :=
  if s.sampleCapacity = 0 then some .noSamples
  else if !s.refreshInterval.isFinite || s.refreshInterval ≤ 0 then
    some (.interval s.refreshInterval)
  else none

/-- The settings themselves if nothing is wrong with them. -/
def validate (s : Settings) : Except SettingsError Settings :=
  match s.complaint? with
  | some e => .error e
  | none => .ok s

def json (s : Settings) : String :=
  Json.object [
    ("sample_capacity", toString s.sampleCapacity.toNat),
    ("refresh_interval_ms", Decimal.jsonText s.refreshInterval),
    ("fps_decimals", toString s.decimals.toNat)]

end Settings

end FramePacing
