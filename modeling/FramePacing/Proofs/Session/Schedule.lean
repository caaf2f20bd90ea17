import FramePacing.Proofs.Duration.Total
import FramePacing.Proofs.Session.Events

/-!
# When a session publishes

A session with an interval keeps one number, the frame time since it started counting.  What this
number is can be told from outside: `steps` lists, for a run, the duration that each event recorded
and the summaries that were handed over with it, and `sinceRestart` picks the durations after the
last event with which counting started over.

* `OnSchedule` — the number is the sum of these durations, and below a positive interval.
* `onSchedule_run` — so it is after every run, …
* `onFrame_schedule` — … and a frame is published when the sum, with its own duration, reaches the
  interval.
-/

namespace FramePacing.Session

open Binary
open Duration (total)

/-! ## Steps -/

/-- What is seen of an event: the duration that it recorded, and what was handed over. -/
structure Step where
  event : Event
  gap? : Option Duration
  handed : List Summary

/-- Whether counting starts over with a step.  Of the frames these are the ones that handed a
summary over, accepted or not. -/
def Step.restarts (x : Step) : Bool :=
  match x.event with
  | .frame _ => !x.handed.isEmpty
  | .refresh => true
  | .reset => true

/-- The duration that an event records: the one from the reading before to its own. -/
def gapAfter (past : List Event) : Event → Option Duration
  | .frame now => if now.isValid then (readings past).getLast?.map now.since else none
  | .refresh => none
  | .reset => none

/-- A frame records a duration if its time is finite and there is a reading before it. -/
lemma exists_gapAfter_frame_iff {past : List Event} {now : Timestamp} {p : Duration → Prop} :
    (∃ d, gapAfter past (.frame now) = some d ∧ p d)
      ↔ now.isValid = true
        ∧ ∃ previous, (readings past).getLast? = some previous ∧ p (now.since previous) := by
  rw [gapAfter]
  constructor
  · rintro ⟨d, hd, hp⟩
    split_ifs at hd with hvalid
    obtain ⟨previous, hprevious, rfl⟩ := Option.map_eq_some_iff.mp hd
    exact ⟨hvalid, previous, hprevious, hp⟩
  · rintro ⟨hvalid, previous, hprevious, hp⟩
    exact ⟨_, by rw [if_pos hvalid, hprevious, Option.map_some], hp⟩

/-- The step that an event is after others. -/
def stepAfter (s : Session Judge) (past : List Event) (e : Event) : Step :=
  let before := (s.run past).value
  { event := e
    gap? := gapAfter past e
    handed := (before.act e).value.receiver.handed.drop before.receiver.handed.length }

/-- The steps of a run. -/
def steps (s : Session Judge) (events : List Event) : List Step :=
  events.mapIdx fun i e => s.stepAfter (events.take i) e

/-- The durations recorded since the last restart, oldest first. -/
def sinceRestart (xs : List Step) : List Duration :=
  (xs.rtakeWhile (!·.restarts)).filterMap (·.gap?)

/-- What is made of each event and the ones before it does not change with later events. -/
lemma mapIdx_take_concat {α β : Type} (f : List α → α → β) (events : List α) (e : α) :
    (events ++ [e]).mapIdx (fun i e' => f ((events ++ [e]).take i) e')
      = events.mapIdx (fun i e' => f (events.take i) e') ++ [f events e] := by
  rw [List.mapIdx_concat, List.take_left]
  congr 1
  apply List.mapIdx_eq_mapIdx_iff.mpr
  intro i hi
  rw [List.take_append_of_le_length hi.le]

lemma steps_concat (s : Session Judge) (events : List Event) (e : Event) :
    s.steps (events ++ [e]) = s.steps events ++ [s.stepAfter events e] :=
  mapIdx_take_concat s.stepAfter events e

lemma sinceRestart_concat (xs : List Step) (x : Step) :
    sinceRestart (xs ++ [x]) = if x.restarts then [] else sinceRestart xs ++ x.gap?.toList := by
  simp only [sinceRestart]
  split_ifs with h
  · rw [List.rtakeWhile_concat_neg _ _ _ (by simp [h]), List.filterMap_nil]
  · rw [List.rtakeWhile_concat_pos _ _ _ (by simp [h]), List.filterMap_append]
    congr 1

/-! ## The invariant -/

/-- Where a session stands that recorded the durations `ds` since it last started counting. -/
structure OnSchedule (interval : Float) (ds : List Duration) (s : Session Judge) : Prop where
  rule : s.cadence.rule = .elapsed interval
  elapsed : s.cadence.elapsed = total ds
  below : 0 < interval → s.cadence.elapsed < interval
  proper : ∀ d ∈ ds, d.IsProper

section Step

variable {interval : Float} {ds : List Duration} {s s' : Session Judge} {d : Duration}
  {now : Timestamp}

/-- A session that starts counting is on schedule. -/
lemma onSchedule_nil (hrule : s.cadence.rule = .elapsed interval)
    (helapsed : s.cadence.elapsed = 0) : OnSchedule interval [] s where
  rule := hrule
  elapsed := helapsed
  below h := by rwa [helapsed]
  proper := by simp

lemma OnSchedule.congr (h : OnSchedule interval ds s) (hcadence : s'.cadence = s.cadence) :
    OnSchedule interval ds s' := by
  refine ⟨?_, ?_, ?_, h.proper⟩ <;> rw [hcadence]
  · exact h.rule
  · exact h.elapsed
  · exact h.below

lemma OnSchedule.elapsed_count (h : OnSchedule interval ds s) (d : Duration) :
    (s.cadence.count d).elapsed = total (ds ++ [d]) := by
  rw [Duration.total_concat, ← h.elapsed]
  rfl

lemma OnSchedule.isDue_count (h : OnSchedule interval ds s) (d : Duration) :
    (s.cadence.count d).isDue = true ↔ interval ≤ total (ds ++ [d]) := by
  have hrule : (s.cadence.count d).rule = .elapsed interval := h.rule
  rw [Cadence.isDue, hrule, ← h.elapsed_count d]
  exact decide_eq_true_iff

/-- A due frame is published, and counting starts over. -/
lemma OnSchedule.onFrame_of_due (h : OnSchedule interval ds s) (hgap : s.recorded? now = some d)
    (hdue : interval ≤ total (ds ++ [d])) :
    (s.onFrame now).value
      = ({ s.record now with cadence := (s.cadence.count d).restart }
          : Session Judge).publish.value := by
  rw [value_onFrame, hgap]
  show ((s.record now).countFrame d).value = _
  rw [value_countFrame]
  exact if_pos ((h.isDue_count d).mpr hdue)

/-- Any other frame is counted. -/
lemma OnSchedule.onFrame_of_not_due (h : OnSchedule interval ds s)
    (hgap : s.recorded? now = some d) (hdue : ¬interval ≤ total (ds ++ [d])) :
    (s.onFrame now).value = (.ok false, { s.record now with cadence := s.cadence.count d }) := by
  rw [value_onFrame, hgap]
  show ((s.record now).countFrame d).value = _
  rw [value_countFrame]
  exact if_neg ((h.isDue_count d).not.mpr hdue)

lemma OnSchedule.publishes_of_due (h : OnSchedule interval ds s) (hgap : s.recorded? now = some d)
    (hdue : interval ≤ total (ds ++ [d])) :
    (s.onFrame now).value.2.receiver = s.receiver.hear (s.record now).current
      ∧ (s.onFrame now).value.1 = .ok (s.receiver.answer (s.record now).current).isOk := by
  rw [h.onFrame_of_due hgap hdue]
  exact ⟨receiver_publish _, fst_publish _⟩

lemma OnSchedule.silent_of_not_due (h : OnSchedule interval ds s)
    (hdue : ∀ d, s.recorded? now = some d → ¬interval ≤ total (ds ++ [d])) :
    (s.onFrame now).value.2.receiver = s.receiver ∧ (s.onFrame now).value.1 = .ok false := by
  cases hgap : s.recorded? now with
  | none =>
    rw [onFrame_of_none hgap]
    exact ⟨rfl, rfl⟩
  | some d =>
    rw [h.onFrame_of_not_due hgap (hdue d hgap)]
    exact ⟨rfl, rfl⟩

lemma OnSchedule.concat (hnumber : interval.isNaN = false) (h : OnSchedule interval ds s)
    (hd : d.IsProper) (hdue : ¬interval ≤ total (ds ++ [d]))
    (hcadence : s'.cadence = s.cadence.count d) : OnSchedule interval (ds ++ [d]) s' := by
  have hproper : ∀ d' ∈ ds ++ [d], d'.IsProper := by
    simpa [or_imp, forall_and, hd] using h.proper
  have helapsed : s'.cadence.elapsed = total (ds ++ [d]) := by rw [hcadence, h.elapsed_count]
  refine ⟨?_, helapsed, fun _ => ?_, hproper⟩
  · rw [hcadence]
    exact h.rule
  · rw [helapsed]
    exact (not_le_iff_lt hnumber (Duration.isAmount_total hproper).isNaN).mp hdue

lemma isProper_of_recorded? (h : s.recorded? now = some d) : d.IsProper := by
  obtain ⟨-, previous, -, rfl⟩ := eq_since_of_recorded? h
  exact Duration.isProper_since now previous

/-- **A frame keeps a session on schedule**: counting starts over if and only if a summary was
handed over. -/
theorem OnSchedule.onFrame (hnumber : interval.isNaN = false) (h : OnSchedule interval ds s)
    (now : Timestamp) :
    OnSchedule interval
      (if !((s.onFrame now).value.2.receiver.handed.drop s.receiver.handed.length).isEmpty
        then [] else ds ++ (s.recorded? now).toList)
      (s.onFrame now).value.2 := by
  cases hgap : s.recorded? now with
  | none =>
    rw [onFrame_of_none hgap, if_neg (by simp [record])]
    exact (List.append_nil ds).symm ▸ h.congr rfl
  | some d =>
    by_cases hdue : interval ≤ total (ds ++ [d])
    · rw [h.onFrame_of_due hgap hdue, receiver_publish, if_pos (by simp [Judge.hear, record])]
      refine onSchedule_nil ?_ ?_
      · rw [cadence_publish]
        exact h.rule
      · rw [cadence_publish]
        rfl
    · rw [h.onFrame_of_not_due hgap hdue, if_neg (by simp [record])]
      exact h.concat hnumber (isProper_of_recorded? hgap) hdue rfl

end Step

/-! ## Runs -/

section Run

variable (capacity : ℕ) (x : Float) (verdict : List Summary → Except Error Unit)

/-- A new session with an interval, before a judge. -/
def judged : Session Judge := (start (.ofCapacity capacity) (.ofInterval x) { verdict }).value

/-- The interval that counts: none below zero, and zero for what is not a number. -/
def effectiveInterval (x : Float) : Float := if x.isNaN then 0 else max x 0

lemma effectiveInterval_eq : effectiveInterval x = if 0 < x then x else 0 := by
  simp only [effectiveInterval]
  cases hnumber : x.isNaN with
  | true =>
    rw [if_pos rfl, if_neg]
    intro hpos
    rw [isNaN_of_lt hpos] at hnumber
    cases hnumber
  | false =>
    rw [if_neg Bool.false_ne_true]
    have hlt := not_le_iff_lt hnumber (Duration.isNaN_of_isFinite Duration.isFinite_zero)
    show (if x ≤ 0 then 0 else x) = _
    rw [← ite_not]
    simp only [hlt]

lemma isNaN_effectiveInterval : (effectiveInterval x).isNaN = false := by
  rw [effectiveInterval_eq]
  split_ifs with h
  · exact isNaN_of_lt h
  · exact Duration.isNaN_of_isFinite Duration.isFinite_zero

/-- What a session records is a matter of the readings that it was given. -/
lemma recorded?_run (events : List Event) (now : Timestamp) :
    ((judged capacity x verdict).run events).value.recorded? now
      = gapAfter events (.frame now) := by
  have hprofiler : (judged capacity x verdict).profiler = .ofCapacity capacity := rfl
  rw [recorded?, Profiler.gap?, profiler_run, hprofiler, Profiler.previous_run]
  rfl

/-- **After every run a session is on schedule.** -/
theorem onSchedule_run (events : List Event) :
    OnSchedule (effectiveInterval x) (sinceRestart ((judged capacity x verdict).steps events))
      ((judged capacity x verdict).run events).value := by
  induction events using List.reverseRecOn with
  | nil => exact onSchedule_nil (by rw [effectiveInterval_eq]; rfl) rfl
  | append_singleton events e ih =>
    rw [steps_concat, sinceRestart_concat, value_run_concat]
    cases e with
    | refresh =>
      refine onSchedule_nil ?_ ?_
      · show (publish _).value.2.cadence.rule = _
        rw [cadence_publish]
        exact ih.rule
      · show (publish _).value.2.cadence.elapsed = 0
        rw [cadence_publish]
        rfl
    | reset => exact onSchedule_nil ih.rule rfl
    | frame now =>
      have hframe := ih.onFrame (isNaN_effectiveInterval x) now
      rw [recorded?_run] at hframe
      exact hframe

/-- **When a frame is published.**  After any events, a frame hands a summary over if and only if
its time is finite, there is an earlier reading since the last reset, and the durations recorded
since counting last started over, with the one of this frame, add up to the interval.  The answer is
whether that summary was accepted.  The frame time that is kept is a number, and less than a
positive interval. -/
theorem onFrame_schedule (events : List Event) (now : Timestamp) :
    let s := ((judged capacity x verdict).run events).value
    let ds := sinceRestart ((judged capacity x verdict).steps events)
    let summary := (s.record now).current
    let due := now.isValid = true ∧ ∃ previous, (readings events).getLast? = some previous
      ∧ effectiveInterval x ≤ total (ds ++ [now.since previous])
    (due → (s.onFrame now).value.2.receiver.handed = s.receiver.handed ++ [summary])
      ∧ (¬due → (s.onFrame now).value.2.receiver.handed = s.receiver.handed)
      ∧ (∃ published, (s.onFrame now).value.1 = .ok published
        ∧ (published = true ↔ due ∧ verdict (s.receiver.handed ++ [summary]) = .ok ()))
      ∧ s.cadence.elapsed.isNaN = false
      ∧ (0 < effectiveInterval x → s.cadence.elapsed < effectiveInterval x) := by
  intro s ds summary due
  have hschedule : OnSchedule (effectiveInterval x) ds s := onSchedule_run capacity x verdict events
  have hverdict : s.receiver.verdict = verdict := verdict_run _ events
  have hrecorded : s.recorded? now = gapAfter events (.frame now) :=
    recorded?_run capacity x verdict events now
  have hdue : due ↔ ∃ d, s.recorded? now = some d ∧ effectiveInterval x ≤ total (ds ++ [d]) := by
    rw [hrecorded]
    exact (exists_gapAfter_frame_iff
      (p := fun d => effectiveInterval x ≤ total (ds ++ [d]))).symm
  have hnumber : s.cadence.elapsed.isNaN = false := by
    rw [hschedule.elapsed]
    exact (Duration.isAmount_total hschedule.proper).isNaN
  by_cases h : due
  · obtain ⟨d, hd, hle⟩ := hdue.mp h
    obtain ⟨hreceiver, hanswer⟩ := hschedule.publishes_of_due hd hle
    refine ⟨fun _ => by rw [hreceiver]; rfl, fun hnot => absurd h hnot,
      ⟨(verdict (s.receiver.handed ++ [summary])).isOk, ?_, ?_⟩, hnumber, hschedule.below⟩
    · rw [hanswer, ← hverdict]
      rfl
    · rw [and_iff_right h]
      cases verdict (s.receiver.handed ++ [summary]) <;> simp [Except.isOk, Except.toBool]
  · obtain ⟨hreceiver, hanswer⟩ :=
      hschedule.silent_of_not_due fun d hd hle => h (hdue.mpr ⟨d, hd, hle⟩)
    refine ⟨fun hdue' => absurd hdue' h, fun _ => by rw [hreceiver], ⟨false, hanswer, ?_⟩, hnumber,
      hschedule.below⟩
    simp [h]

end Run

end FramePacing.Session
