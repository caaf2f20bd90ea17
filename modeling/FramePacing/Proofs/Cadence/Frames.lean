import FramePacing.Cadence
import Mathlib.Data.List.DropRight
import Mathlib.Data.Nat.Notation
import Mathlib.Tactic.Lemma

/-!
# A cadence that counts frames

A cadence that is due after a number of frames is ticked and restarted in any order.  Which of its
ticks fire can be told from the ticks alone: `waiting` counts those at the end of a run that did not
fire, the ones since the cadence was made, was restarted or last fired.

The counter of a cadence stays at its largest value once it is there.  It gets that far only if the
cadence is to fire at that very value, and then the tick that takes it there fires.

* `Counts` — the counter says how many ticks are waiting, and they are fewer than it takes to fire.
* `counts_run` — so it is after every run, …
* `fires_on_last_frame` — … and a tick fires when it makes up the number.
-/

namespace FramePacing.Cadence

/-! ## Runs -/

/-- What is done with a cadence. -/
inductive Call where
  | tick (d : Duration)
  | restart
deriving DecidableEq

/-- The same call, with no time passing in it. -/
def Call.untimed : Call → Call
  | .tick _ => .tick .zero
  | .restart => .restart

/-- What is answered to a call, and the cadence afterwards; a restart is not answered. -/
def call (c : Cadence) : Call → Option Bool × Cadence
  | .tick d => (some (c.tick d).1, (c.tick d).2)
  | .restart => (none, c.restart)

/-- A cadence after some calls, one after the other. -/
def run (c : Cadence) (calls : List Call) : Cadence := calls.foldl (fun c x => (c.call x).2) c

/-- What is answered to them. -/
def answers (c : Cadence) : List Call → List (Option Bool)
  | [] => []
  | x :: calls => (c.call x).1 :: answers (c.call x).2 calls

/-- The ticks that did not fire since the last one that did or the last restart. -/
def waiting (answers : List (Option Bool)) : ℕ := (answers.rtakeWhile (· = some false)).length

lemma run_concat (c : Cadence) (calls : List Call) (x : Call) :
    c.run (calls ++ [x]) = ((c.run calls).call x).2 :=
  List.foldl_concat ..

lemma answers_concat (c : Cadence) (calls : List Call) (x : Call) :
    c.answers (calls ++ [x]) = c.answers calls ++ [((c.run calls).call x).1] := by
  induction calls generalizing c with
  | nil => rfl
  | cons y calls ih => exact congrArg (_ :: ·) (ih (c.call y).2)

/-- One tick more is waiting unless it fires. -/
lemma waiting_concat_tick (answers : List (Option Bool)) (fires : Bool) :
    waiting (answers ++ [some fires]) = if fires then 0 else waiting answers + 1 := by
  cases fires with
  | false => simp [waiting]
  | true => simp [waiting]

lemma waiting_concat_restart (answers : List (Option Bool)) : waiting (answers ++ [none]) = 0 := by
  simp [waiting]

/-! ## Counting -/

/-- Where a cadence stands that fires on every `period`-th tick, with `n` ticks waiting. -/
structure Counts (period : UInt32) (n : ℕ) (c : Cadence) : Prop where
  rule : c.rule = .frames period
  frames : c.frames.toNat = n
  below : n < period.toNat

section Step

variable {period : UInt32} {n : ℕ} {c : Cadence}

/-- With fewer ticks waiting than it takes to fire, there is room for one more in the counter. -/
lemma Counts.frames_count (h : Counts period n c) (d : Duration) :
    (c.count d).frames.toNat = n + 1 := by
  have hbelow := h.below
  have hperiod := period.toNat_lt
  have hroom : c.frames ≠ 0xffffffff := by
    intro hfull
    have hframes := h.frames
    rw [hfull] at hframes
    simp only [UInt32.reduceToNat] at hframes
    omega
  rw [count, if_neg hroom, UInt32.toNat_add, h.frames, UInt32.toNat_one]
  exact Nat.mod_eq_of_lt (by omega)

/-- So it is the number of ticks that decides, and not the time. -/
lemma Counts.fst_tick (h : Counts period n c) (d : Duration) :
    (c.tick d).1 = decide (n + 1 = period.toNat) := by
  have hbelow := h.below
  have hrule : (c.count d).rule = .frames period := h.rule
  rw [Cadence.fst_tick, isDue, hrule]
  dsimp only
  rw [decide_eq_decide, UInt32.le_iff_toNat_le, h.frames_count d]
  omega

/-- **A tick keeps count.** -/
theorem Counts.tick (h : Counts period n c) (d : Duration) :
    Counts period (if (c.tick d).1 then 0 else n + 1) (c.tick d).2 := by
  have hbelow := h.below
  have hfires := h.fst_tick d
  have hdue : (c.count d).isDue = decide (n + 1 = period.toNat) :=
    (c.fst_tick d).symm.trans hfires
  rw [hfires, Cadence.tick, hdue]
  by_cases hlast : n + 1 = period.toNat
  · rw [decide_eq_true hlast]
    exact ⟨h.rule, rfl, Nat.zero_lt_of_lt hbelow⟩
  · rw [decide_eq_false hlast]
    exact ⟨h.rule, h.frames_count d, by simp; omega⟩

lemma Counts.restart (h : Counts period n c) : Counts period 0 c.restart :=
  ⟨h.rule, rfl, Nat.zero_lt_of_lt h.below⟩

end Step

/-! ## The cadence as it is made -/

section Made

variable (every : UInt32)

/-- The number of ticks that it takes to fire. -/
def period : UInt32 := if every = 0 then 1 else every

lemma toNat_period : (period every).toNat = max 1 every.toNat := by
  rw [period]
  split_ifs with h
  · rw [h]
    rfl
  · have hpos : every.toNat ≠ 0 := fun hzero => h (UInt32.toNat_inj.mp hzero)
    omega

/-- **After every run a cadence counts the ticks that are waiting.** -/
theorem counts_run (calls : List Call) :
    Counts (period every) (waiting ((everyFrames every).answers calls))
      ((everyFrames every).run calls) := by
  induction calls using List.reverseRecOn with
  | nil =>
    refine ⟨rfl, rfl, ?_⟩
    rw [toNat_period]
    exact Nat.lt_of_lt_of_le Nat.one_pos (Nat.le_max_left ..)
  | append_singleton calls x ih =>
    rw [answers_concat, run_concat]
    cases x with
    | tick d =>
      rw [call, waiting_concat_tick]
      exact ih.tick d
    | restart =>
      rw [call, waiting_concat_restart]
      exact ih.restart

/-- The answers are those of a run in which no time passes. -/
lemma answers_untimed (calls : List Call) :
    (everyFrames every).answers (calls.map Call.untimed) = (everyFrames every).answers calls := by
  induction calls using List.reverseRecOn with
  | nil => rfl
  | append_singleton calls x ih =>
    have hcounts := counts_run every calls
    have huntimed := counts_run every (calls.map Call.untimed)
    rw [ih] at huntimed
    rw [List.map_append, List.map_singleton, answers_concat, answers_concat, ih]
    cases x with
    | tick d =>
      simp only [call, Call.untimed]
      rw [huntimed.fst_tick, hcounts.fst_tick]
    | restart => rfl

/-- **A tick fires when it makes up the number of frames.**  After any run, a tick fires if and only
if it is the last of `max 1 every` since the cadence was made, was restarted or last fired.  No tick
is late, since never so many are waiting; the counter always has room for the tick; and the answers
of the run would have been the same with any durations. -/
theorem fires_on_last_frame (calls : List Call) (d : Duration) :
    let c := (everyFrames every).run calls
    let n := waiting ((everyFrames every).answers calls)
    ((c.tick d).1 = true ↔ n + 1 = max 1 every.toNat)
      ∧ n < max 1 every.toNat
      ∧ (c.count d).frames.toNat = n + 1
      ∧ (everyFrames every).answers calls
          = (everyFrames every).answers (calls.map Call.untimed) := by
  intro c n
  have hcounts : Counts (period every) n c := counts_run every calls
  rw [← toNat_period]
  refine ⟨?_, hcounts.below, hcounts.frames_count d, (answers_untimed every calls).symm⟩
  rw [hcounts.fst_tick, decide_eq_true_iff]

end Made

/-- Two frames that take too long to be added up, a restart, and three more frames. -/
example :
    (everyFrames 3).answers [.tick ⟨1e308⟩, .tick ⟨1e308⟩, .restart, .tick .zero, .tick ⟨1e308⟩,
      .tick ⟨1e308⟩, .tick .zero]
      = [some false, some false, none, some false, some false, some true, some false] := by
  decide +kernel

end FramePacing.Cadence
