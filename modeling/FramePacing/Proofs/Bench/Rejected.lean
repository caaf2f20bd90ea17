import FramePacing.Proofs.Bench.Operations

/-!
# Rejected frames leave no trace

A frame is rejected if its time is not finite, or if there is no clock on the page to read it from.
It is answered and the bench stays as it is.  So such frames may be put into a run at any places and
in any number: everything else is answered as it was, logs what it did and leaves the same bench.

Here it is the page that says what a tick reads.  Logging may read the same clock, but that is done
by the host, with what a run has logged, and does not come between the operations of a bench.

* `perform_of_rejects` — what a rejected frame does.
* `reached_take_eq` — what was put into a run can be left out of any beginning of it.
* `rejected_frames_leave_no_trace` — both, at every place of a run.
-/

namespace FramePacing.Bench

open Log Logged

/-! ## Rejected frames -/

/-- A frame that is rejected: its time is not finite, or the page lacks what it takes to read it. -/
def rejects (b : Bench) : Operation → Bool
  | .update now => !now.isValid
  | .tick => !(b.page.hasWindow && b.page.hasPerformance)
  | _ => false

/-- How it is answered: a frame with a time is not published, a tick tells what is missing. -/
def rejection (b : Bench) : Operation → Outcome
  | .tick =>
    let missing : Page.Missing := if b.page.hasWindow then .performance else .window
    .frame (.error (.error missing.toError))
  | _ => .frame (.ok false)

section Rejected

variable {b : Bench} {op : Operation} {now : Timestamp}

lemma value_update_of_not_isValid (h : now.isValid = false) :
    (b.update now).value = (.ok false, b) := by
  have hrecorded : b.session.recorded? now = none := by simp [Session.recorded?, h]
  have hprofiler : (b.session.profiler.update now).value = b.session.profiler := by
    simp [Profiler.value_update, h]
  have hframe : (b.session.onFrame now).value = (.ok false, b.session) := by
    rw [Session.value_onFrame, hrecorded]
    simp only [Session.record, hprofiler]
  simp only [update, value_bind, hframe]
  rfl

lemma value_tick_of_missing (h : (b.page.hasWindow && b.page.hasPerformance) = false) :
    (b.perform .tick).value = (b.rejection .tick, b) := by
  simp only [perform, tick, Page.readClock, rejection]
  cases hwindow : b.page.hasWindow with
  | false => rfl
  | true =>
    rw [hwindow, Bool.true_and] at h
    simp only [h]
    rfl

/-- **A rejected frame** is answered, and the bench stays as it is. -/
theorem perform_of_rejects (h : b.rejects op = true) :
    (b.perform op).value = (b.rejection op, b) := by
  cases op with
  | update now =>
    have hframe := value_update_of_not_isValid (b := b) (Bool.not_eq_true' _ ▸ h)
    simp only [perform, value_bind, hframe]
    rfl
  | tick => exact value_tick_of_missing (Bool.not_eq_true' _ ▸ h)
  | _ => cases h

end Rejected

/-! ## Runs with frames put in -/

/-- An operation of a run, with a mark if it was put in. -/
structure Marked where
  op : Operation
  inserted : Bool := false

/-- All operations of a run. -/
def whole (run : List Marked) : List Operation := run.map (·.op)

/-- The run without what was put in. -/
def plain (run : List Marked) : List Operation := (run.filter (!·.inserted)).map (·.op)

lemma whole_concat (run : List Marked) (x : Marked) : whole (run ++ [x]) = whole run ++ [x.op] := by
  simp [whole]

lemma plain_concat (run : List Marked) (x : Marked) :
    plain (run ++ [x]) = plain run ++ if x.inserted then [] else [x.op] := by
  cases h : x.inserted <;> simp [plain, h]

/-- The bench that a run leads to. -/
def reached (b : Bench) (ops : List Operation) : Bench := (b.performAll ops).value.2

section Runs

variable {b : Bench}

lemma reached_concat (b : Bench) (ops : List Operation) (op : Operation) :
    b.reached (ops ++ [op]) = ((b.reached ops).perform op).value.2 :=
  snd_inTurn_concat perform b ops op

variable {run : List Marked}
  (hrejected : ∀ i : Fin run.length, (run.get i).inserted = true →
    (b.reached (whole (run.take i))).rejects (run.get i).op = true)
include hrejected

/-- What was put in can be left out of any beginning of the run. -/
lemma reached_take_eq {n : ℕ} (hn : n ≤ run.length) :
    b.reached (whole (run.take n)) = b.reached (plain (run.take n)) := by
  induction n with
  | zero => rfl
  | succ n ih =>
    have hlt : n < run.length := hn
    have hbefore := ih hlt.le
    rw [List.take_succ_eq_append_getElem hlt, whole_concat, plain_concat, reached_concat]
    cases hinserted : run[n].inserted with
    | true =>
      have hrejects : (b.reached (whole (run.take n))).rejects run[n].op = true :=
        hrejected ⟨n, hlt⟩ hinserted
      rw [perform_of_rejects hrejects, if_pos rfl, List.append_nil]
      exact hbefore
    | false =>
      rw [if_neg Bool.false_ne_true, reached_concat, hbefore]

/-- **Rejected frames leave no trace.**  Take a run of a bench on any page, and put frames in that
are rejected where they come.  Each of these is answered by its rejection, and leaves the bench as
it is.  Every operation of the run itself is answered as it is without them, logs the same, and
leaves the same window, the same last reading, cadence and summary, and the same page. -/
theorem rejected_frames_leave_no_trace :
    (∀ i : Fin run.length,
      let before := b.reached (whole (run.take i))
      let x := run.get i
      (x.inserted = true → (before.perform x.op).value = (before.rejection x.op, before))
      ∧ (x.inserted = false →
        before.perform x.op = (b.reached (plain (run.take i))).perform x.op))
    ∧ b.reached (whole run) = b.reached (plain run) := by
  refine ⟨fun i => ⟨fun hinserted => ?_, fun _ => ?_⟩, ?_⟩
  · exact perform_of_rejects (hrejected i hinserted)
  · rw [reached_take_eq hrejected i.isLt.le]
  · have hall := reached_take_eq hrejected le_rfl
    rwa [List.take_length] at hall

end Runs

/-- Two frames on a page without a performance clock, with two more in between that are rejected. -/
theorem no_trace_between_two_frames :
    let b := (ofSettings { hasWindow := true } {}).value
    let run : List Marked := [
      { op := .update ⟨0⟩ },
      { op := .update ⟨0 / 0⟩, inserted := true },
      { op := .tick, inserted := true },
      { op := .update ⟨1000⟩ }]
    ((b.reached [.update ⟨0⟩, .update ⟨0 / 0⟩]).perform .tick).value.1
        = .frame (.error (.error Page.Missing.performance.toError))
      ∧ b.reached (whole run) = b.reached [.update ⟨0⟩, .update ⟨1000⟩]
      ∧ (b.reached (whole run)).latest.isSome = true := by
  intro b run
  obtain ⟨hplace, hsame⟩ := @rejected_frames_leave_no_trace b run (by decide +kernel)
  exact ⟨congrArg Prod.fst ((hplace 2).1 rfl), hsame, by decide +kernel⟩

end FramePacing.Bench
