import FramePacing.Duration

/-!
# When to refresh

Sorting a whole window is too much work for every frame.  A `Cadence` says when the shown summary
is due to be refreshed: after an interval of frame time, or after a number of frames.  It starts
over whenever it is due, and when it is restarted.
-/

namespace FramePacing

/-- What makes a refresh due. -/
inductive Cadence.Rule where
  /-- At least this much frame time, in milliseconds. -/
  | elapsed (interval : Float)
  /-- At least this many frames. -/
  | frames (every : UInt32)
deriving DecidableEq

/-- A rule with the frame time and the frames counted since the last restart. -/
structure Cadence where
  rule : Cadence.Rule
  elapsed : Float
  frames : UInt32
deriving DecidableEq

namespace Cadence

def ofRule (rule : Rule) : Cadence := ⟨rule, 0, 0⟩

/-- Due after an interval; one that is negative or not a number counts as zero. -/
def ofInterval (interval : Float) : Cadence :=
  ofRule (.elapsed (if 0 < interval then interval else 0))

/-- Due after a number of frames, one at least. -/
def everyFrames (every : UInt32) : Cadence := ofRule (.frames (if every = 0 then 1 else every))

/-- Starts counting from nothing. -/
def restart (c : Cadence) : Cadence := { c with elapsed := 0, frames := 0 }

/-- Counts a frame; the frame counter stays at its largest value once it is there. -/
def count (c : Cadence) (d : Duration) : Cadence :=
  { c with
    elapsed := c.elapsed + d.millis
    frames := if c.frames = 0xffffffff then c.frames else c.frames + 1 }

/-- Whether enough has been counted. -/
def isDue (c : Cadence) : Bool :=
  match c.rule with
  | .elapsed interval => interval ≤ c.elapsed
  | .frames every => every ≤ c.frames

/-- Counts a frame, tells whether a refresh is due now, and starts over if it is. -/
def tick (c : Cadence) (d : Duration) : Bool × Cadence :=
  let counted := c.count d
  if counted.isDue then (true, counted.restart) else (false, counted)

theorem fst_tick (c : Cadence) (d : Duration) : (c.tick d).1 = (c.count d).isDue := by
  unfold tick
  cases h : (c.count d).isDue <;> simp [h]

theorem rule_tick (c : Cadence) (d : Duration) : (c.tick d).2.rule = c.rule := by
  unfold tick
  dsimp only
  split <;> rfl

end Cadence

end FramePacing
