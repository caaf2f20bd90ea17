import FramePacing.Proofs.Session.Schedule

/-!
# The summary that a session keeps

A session keeps one summary.  Which one that is can be told from outside: `publishes` lists, for a
run, the summaries that were handed over since the last reset, each with the events up to it and
with the receiver's answer.

* `quiet_or_published_act` — an event hands over the summary of the window as it leaves it, or
  nothing.
* `latest_run` — the kept summary is the one that was accepted last, …
* `summary_of_mem_publishes` — … and each is that of the window at its moment.
* `latest_is_last_accepted` — both, with what a refusal and a forced refresh do.
-/

namespace FramePacing.Session

/-! ## Publishes -/

/-- What is seen of a publish: the events so far, the one that it came with included; the summary;
and whether the receiver accepted it. -/
structure Publish where
  moment : List Event
  summary : Summary
  accepted : Bool

/-- The publishes that come with an event after others. -/
def publishesAfter (s : Session Judge) (past : List Event) (e : Event) : List Publish :=
  (s.stepAfter past e).handed.map fun summary =>
    { moment := past ++ [e], summary
      accepted := ((s.run past).value.receiver.answer summary).isOk }

/-- The publishes of a run since its last reset, oldest first. -/
def publishes (s : Session Judge) (events : List Event) : List Publish :=
  ((events.mapIdx fun i e => (e, s.publishesAfter (events.take i) e)).rtakeWhile
    (·.1 ≠ .reset)).flatMap (·.2)

lemma publishes_concat (s : Session Judge) (events : List Event) (e : Event) :
    s.publishes (events ++ [e])
      = if e = .reset then [] else s.publishes events ++ s.publishesAfter events e := by
  rw [publishes, mapIdx_take_concat fun past e => (e, s.publishesAfter past e)]
  split_ifs with h
  · rw [List.rtakeWhile_concat_neg _ _ _ (by simp [h]), List.flatMap_nil]
  · rw [List.rtakeWhile_concat_pos _ _ _ (by simp [h]), List.flatMap_append, List.flatMap_singleton]
    rfl

/-! ## One event -/

/-- What has changed when nothing was handed over. -/
structure Quiet (s s' : Session Judge) : Prop where
  receiver : s'.receiver = s.receiver
  latest : s'.latest = s.latest

/-- What has changed when the summary of the window was handed over: it is kept if it was accepted,
and what was kept before if it was not. -/
structure Published (s s' : Session Judge) : Prop where
  receiver : s'.receiver = s.receiver.hear s'.current
  latest : s'.latest
    = if (s.receiver.answer s'.current).isOk then some s'.current else s.latest

section Act

variable (s : Session Judge)

lemma published_publish : Published s s.publish.value.2 := by
  have hcurrent : s.publish.value.2.current = s.current := by
    rw [current, profiler_publish]
    rfl
  constructor
  · rw [hcurrent, receiver_publish]
  · rw [hcurrent, value_publish]
    cases s.receiver.answer s.current <;> rfl

/-- **An event publishes the window as it leaves it, or nothing.** -/
lemma quiet_or_published_act {e : Event} (he : e ≠ .reset) :
    Quiet s (s.act e).value ∨ Published s (s.act e).value := by
  cases e with
  | frame now =>
    show Quiet s (s.onFrame now).value.2 ∨ Published s (s.onFrame now).value.2
    obtain ⟨counted, hframe | hframe⟩ := s.onFrame_cases now
    · rw [hframe]
      exact Or.inl ⟨rfl, rfl⟩
    · -- what is published is a session that differs from `s` in what it measured only
      have h := published_publish { s.record now with cadence := counted }
      rw [hframe]
      exact Or.inr ⟨h.receiver, h.latest⟩
  | refresh =>
    have h := published_publish { s with cadence := s.cadence.restart }
    exact Or.inr ⟨h.receiver, h.latest⟩
  | reset => exact absurd rfl he

/-- The publish that an event after others comes with, if it hands a summary over. -/
lemma publishesAfter_cases (past : List Event) {e : Event} (he : e ≠ .reset) :
    let before := (s.run past).value
    let after := (s.run (past ++ [e])).value
    (s.publishesAfter past e = [] ∧ after.latest = before.latest)
      ∨ ∃ x, s.publishesAfter past e = [x] ∧ x.moment = past ++ [e] ∧ x.summary = after.current
        ∧ after.latest = if x.accepted then some x.summary else before.latest := by
  intro before after
  have hafter : (before.act e).value = after := (value_run_concat s past e).symm
  have hpublishes : s.publishesAfter past e
      = (after.receiver.handed.drop before.receiver.handed.length).map fun summary =>
          ⟨past ++ [e], summary, (before.receiver.answer summary).isOk⟩ := by
    rw [← hafter]
    rfl
  have hact := before.quiet_or_published_act he
  rw [hafter] at hact
  rcases hact with h | h
  · left
    rw [hpublishes, h.receiver]
    exact ⟨by simp, h.latest⟩
  · right
    refine ⟨⟨past ++ [e], after.current, (before.receiver.answer after.current).isOk⟩, ?_, rfl, rfl,
      h.latest⟩
    rw [hpublishes, h.receiver]
    simp [Judge.hear]

/-- A reset hands nothing over. -/
lemma publishesAfter_reset (past : List Event) : s.publishesAfter past .reset = [] := by
  have hhanded : (s.stepAfter past .reset).handed = [] :=
    List.drop_length (l := (s.run past).value.receiver.handed)
  rw [publishesAfter, hhanded, List.map_nil]

end Act

/-! ## Runs -/

section Run

variable (profiler : Profiler) (cadence : Cadence) (verdict : List Summary → Except Error Unit)

/-- **A session keeps what was accepted last.** -/
theorem latest_run {s : Session Judge} (hstart : s.latest = none) (events : List Event) :
    (s.run events).value.latest
      = ((s.publishes events).filter (·.accepted)).getLast?.map (·.summary) := by
  induction events using List.reverseRecOn with
  | nil => exact hstart
  | append_singleton events e ih =>
    rw [publishes_concat]
    -- a reset empties both sides; after anything else the last publish decides, if there is one
    by_cases he : e = .reset
    · rw [if_pos he, he, value_run_concat]
      rfl
    · rw [if_neg he]
      rcases s.publishesAfter_cases events he with ⟨hnone, hlatest⟩ | ⟨x, hx, -, -, hlatest⟩
      · rw [hnone, hlatest, ih, List.append_nil]
      · rw [hx, hlatest, ih, List.filter_append]
        cases haccepted : x.accepted <;> simp [haccepted]

/-- **What is handed over is the summary of the window** at that moment. -/
theorem summary_of_mem_publishes (s : Session Judge) (events : List Event) {x : Publish}
    (hx : x ∈ s.publishes events) : x.summary = (s.run x.moment).value.current := by
  induction events using List.reverseRecOn with
  | nil => cases hx
  | append_singleton events e ih =>
    rw [publishes_concat] at hx
    split_ifs at hx with he
    · cases hx
    · rcases List.mem_append.mp hx with hpast | hnow
      · exact ih hpast
      · rcases s.publishesAfter_cases events he with ⟨hnone, -⟩ | ⟨y, hy, hmoment, hsummary, -⟩
        · rw [hnone] at hnow
          cases hnow
        · rw [hy, List.mem_singleton] at hnow
          rw [hnow, hsummary, hmoment]

/-- **The kept summary.**  After any events, a session keeps the summary that was accepted last
since the last reset, and none if there is no such.  Every summary that was handed over is that of
the window at its moment, with the frame just recorded.  One that is refused changes neither what is
kept nor what was recorded.  A forced refresh returns what is kept after it, or zeros. -/
theorem latest_is_last_accepted (events : List Event) (e : Event) :
    let s : Session Judge := (start profiler cadence { verdict }).value
    let before := (s.run events).value
    let after := (before.act e).value
    let windowAt (moment : List Event) := (profiler.run (moment.filterMap Event.call?)).value
    before.latest = ((s.publishes events).filter (·.accepted)).getLast?.map (·.summary)
      ∧ (∀ x ∈ s.publishes events, x.summary = (windowAt x.moment).summary.value)
      ∧ (∀ x ∈ s.publishesAfter events e, x.accepted = false →
          after.latest = before.latest ∧ after.profiler = windowAt (events ++ [e]))
      ∧ before.refresh.value.1 = .ok (before.refresh.value.2.latest.getD .zero) := by
  intro s before after windowAt
  refine ⟨latest_run rfl events, fun x hx => ?_, fun x hx hrefused => ?_, ?_⟩
  · rw [summary_of_mem_publishes s events hx, current, profiler_run]
    rfl
  · have hafter : after = (s.run (events ++ [e])).value := (value_run_concat s events e).symm
    refine ⟨?_, by rw [hafter, profiler_run]; rfl⟩
    rw [hafter]
    by_cases he : e = .reset
    · rw [he, publishesAfter_reset] at hx
      cases hx
    · rcases s.publishesAfter_cases events he with ⟨-, hlatest⟩ | ⟨y, hy, -, -, hlatest⟩
      · exact hlatest
      · rw [hy, List.mem_singleton] at hx
        rw [hlatest, ← hx, hrefused]
        rfl
  · rw [fst_refresh, fst_publish]
    rfl

end Run

end FramePacing.Session
