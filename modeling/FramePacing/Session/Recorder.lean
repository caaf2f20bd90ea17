import FramePacing.Session

/-!
# A recording receiver

A `Recorder` keeps the summaries that it accepts.  It may refuse all after a number of them, and it
may reset the shared profiler whenever it accepts one.
-/

namespace FramePacing

open Log (Logged)

/-- What a recorder does with a summary. -/
structure Recorder.Policy where
  /-- How many more summaries are accepted; all if there is no number. -/
  left : Option Nat := none
  /-- The error with which summaries are refused. -/
  refusal : Error := ⟨.display, ""⟩
  /-- Whether the profiler is reset with each summary that is accepted. -/
  resets : Bool := false
deriving DecidableEq

/-- A receiver that keeps what it accepts, oldest first. -/
structure Recorder where
  policy : Recorder.Policy := {}
  accepted : List Summary := []
deriving DecidableEq

namespace Recorder

def accept (r : Recorder) (s : Summary) : Recorder :=
  { policy := { r.policy with left := r.policy.left.map (· - 1) }
    accepted := r.accepted ++ [s] }

instance : Receiver Recorder where
  receive summary profiler r :=
    if r.policy.left = some 0 then return ⟨.error (.error r.policy.refusal), profiler, r⟩
    else do
      let profiler ← if r.policy.resets then profiler.reset else pure profiler
      return ⟨.ok (), profiler, r.accept summary⟩

end Recorder

end FramePacing
