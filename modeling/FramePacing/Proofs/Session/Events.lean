import FramePacing.Proofs.Profiler.History
import FramePacing.Session

/-!
# Sessions and what happens to them

A session is told of frames, asked to refresh and reset, in any order.  What it does is seen by its
receiver; `Judge` is the receiver for that: it remembers every summary that it was handed, and
answers by these in any way whatever.

* `value_onFrame`, `onFrame_cases` — a frame counts its duration, if it has one, and may publish.
* `snd_publish`, `answer_publish` — what publishing leaves and tells, before any receiver.
* `receiver_publish`, `fst_publish` — publishing hands the summary of the window over, once, and
  tells whether it was accepted.
* `profiler_run` — the profiler of a session is called as if there were no session.
-/

namespace FramePacing

open Log (Logged)

/-! ## Events -/

/-- What happens to a session. -/
inductive Session.Event where
  | frame (now : Timestamp)
  | refresh
  | reset
deriving DecidableEq

namespace Session

/-- The call of the profiler that comes with an event. -/
def Event.call? : Event → Option Profiler.Call
  | .frame now => some (.update now)
  | .refresh => none
  | .reset => some .reset

/-- The finite times given since the last reset, oldest first. -/
def readings (events : List Event) : List Timestamp :=
  Profiler.readings (events.filterMap Event.call?)

section Act

variable {ρ : Type} [Receiver ρ]

/-- What a session does when something happens. -/
def act (s : Session ρ) : Event → Logged (Session ρ)
  | .frame now => Prod.snd <$> s.onFrame now
  | .refresh => Prod.snd <$> s.refresh
  | .reset => s.reset

/-- Events one after the other. -/
def run (s : Session ρ) (events : List Event) : Logged (Session ρ) := events.foldlM act s

lemma value_run_concat (s : Session ρ) (events : List Event) (e : Event) :
    (s.run (events ++ [e])).value = ((s.run events).value.act e).value := by
  simp only [run, Logged.value_foldlM, List.foldl_append, List.foldl_cons, List.foldl_nil]

lemma value_act_frame (s : Session ρ) (now : Timestamp) :
    (s.act (.frame now)).value = (s.onFrame now).value.2 := rfl

/-- The duration that is recorded with a frame. -/
def recorded? (s : Session ρ) (now : Timestamp) : Option Duration :=
  if now.isValid then s.profiler.gap? now else none

/-- The session after the profiler took note of a frame. -/
def record (s : Session ρ) (now : Timestamp) : Session ρ :=
  { s with profiler := (s.profiler.update now).value }

lemma value_onFrame (s : Session ρ) (now : Timestamp) :
    (s.onFrame now).value = match s.recorded? now with
      | some d => ((s.record now).countFrame d).value
      | none => (.ok false, s.record now) := by
  simp only [recorded?]
  split_ifs <;> cases hgap : s.profiler.gap? now <;> simp [onFrame, record, *]

omit [Receiver ρ] in
/-- A frame that has a duration has a finite time, and there is a reading before it. -/
lemma eq_since_of_recorded? {s : Session ρ} {now : Timestamp} {d : Duration}
    (h : s.recorded? now = some d) :
    now.isValid = true ∧ ∃ t, s.profiler.previous = some t ∧ d = now.since t := by
  rw [recorded?, Profiler.gap?] at h
  split_ifs at h with hvalid
  obtain ⟨t, ht, rfl⟩ := Option.map_eq_some_iff.mp h
  exact ⟨hvalid, t, ht, rfl⟩

/-- A frame without a duration is noted and nothing more. -/
lemma onFrame_of_none {s : Session ρ} {now : Timestamp} (hgap : s.recorded? now = none) :
    (s.onFrame now).value = (.ok false, s.record now) := by
  rw [value_onFrame, hgap]

lemma value_countFrame (s : Session ρ) (d : Duration) :
    (s.countFrame d).value = if (s.cadence.count d).isDue
      then ({ s with cadence := (s.cadence.count d).restart } : Session ρ).publish.value
      else (.ok false, { s with cadence := s.cadence.count d }) := by
  cases hdue : (s.cadence.count d).isDue <;> simp [countFrame, Cadence.tick, hdue]

/-- **What a frame can do.**  It is noted and counted, and then there is a publish or nothing
more. -/
lemma onFrame_cases (s : Session ρ) (now : Timestamp) : ∃ counted : Cadence,
    (s.onFrame now).value = (.ok false, { s.record now with cadence := counted })
      ∨ (s.onFrame now).value
        = ({ s.record now with cadence := counted } : Session ρ).publish.value := by
  rw [value_onFrame]
  cases s.recorded? now with
  | none => exact ⟨s.cadence, Or.inl rfl⟩
  | some d =>
    dsimp only
    rw [value_countFrame]
    split_ifs
    · exact ⟨_, Or.inr rfl⟩
    · exact ⟨_, Or.inl rfl⟩

/-! ### Publishing -/

/-- What the receiver makes of the summary of the window. -/
def reply (s : Session ρ) : Reply ρ :=
  (Receiver.receive s.profiler.summary.value s.profiler s.receiver).value

lemma value_handOver (s : Session ρ) : s.handOver.value =
    (s.reply.verdict.map fun _ => s.profiler.summary.value,
      { s with profiler := s.reply.profiler, receiver := s.reply.receiver }) := rfl

/-- Publishing leaves what the receiver leaves, and keeps the summary if it was accepted. -/
lemma snd_publish (s : Session ρ) : s.publish.value.2 =
    { s with
      profiler := s.reply.profiler
      receiver := s.reply.receiver
      latest := if s.reply.verdict.isOk then some s.profiler.summary.value else s.latest } := by
  rw [publish, Logged.value_bind, value_handOver]
  rcases s.reply.verdict with (e | f) | u <;> rfl

/-- Publishing ends in a fault if the reply is one. -/
lemma answer_publish (s : Session ρ) : s.publish.value.1 = match s.reply.verdict with
    | .ok _ => .ok true
    | .error (.error _) => .ok false
    | .error (.fault f) => .error f := by
  rw [publish, Logged.value_bind, value_handOver]
  rcases s.reply.verdict with (e | f) | u <;> rfl

lemma cadence_publish (s : Session ρ) : s.publish.value.2.cadence = s.cadence := by rw [snd_publish]

/-- A forced refresh returns what is kept after it, unless publishing is a fault. -/
lemma fst_refresh (s : Session ρ) : s.refresh.value.1
    = ({ s with cadence := s.cadence.restart } : Session ρ).publish.value.1.map
        fun _ => s.refresh.value.2.latest.getD .zero := rfl

/-! ### What receiving does not change

What every receiver of a kind keeps while it receives, it keeps while it serves a session.
-/

section Kept

variable {α : Type} {kept : ρ → α}
  (h : ∀ summary p r, kept (Receiver.receive summary p r).value.receiver = kept r)
include h

lemma kept_publish (s : Session ρ) : kept s.publish.value.2.receiver = kept s.receiver := by
  rw [snd_publish]
  exact h _ _ _

lemma kept_onFrame (s : Session ρ) (now : Timestamp) :
    kept (s.onFrame now).value.2.receiver = kept s.receiver := by
  obtain ⟨counted, hframe | hframe⟩ := s.onFrame_cases now
  · rw [hframe]
    rfl
  · rw [hframe]
    exact kept_publish h _

lemma kept_refresh (s : Session ρ) : kept s.refresh.value.2.receiver = kept s.receiver :=
  kept_publish h { s with cadence := s.cadence.restart }

end Kept

/-! ### Receivers that leave the profiler alone -/

section Aloof

variable (h : ∀ summary p (r : ρ), (Receiver.receive summary p r).value.profiler = p)
include h

/-- Publishing changes nothing that is measured, … -/
lemma profiler_publish_of_aloof (s : Session ρ) : s.publish.value.2.profiler = s.profiler := by
  rw [snd_publish]
  exact h _ _ _

/-- … so the profiler takes note of a frame as if there were no session. -/
lemma profiler_onFrame_of_aloof (s : Session ρ) (now : Timestamp) :
    (s.onFrame now).value.2.profiler = (s.profiler.update now).value := by
  obtain ⟨counted, hframe | hframe⟩ := s.onFrame_cases now
  · rw [hframe]
    rfl
  · rw [hframe]
    exact profiler_publish_of_aloof h _

end Aloof

end Act

end Session

/-! ## Judges -/

/-- A receiver whose answer depends on all the summaries that it was handed. -/
structure Judge where
  verdict : List Summary → Except Error Unit
  handed : List Summary := []

namespace Judge

/-- Remembers a summary. -/
def hear (j : Judge) (summary : Summary) : Judge := { j with handed := j.handed ++ [summary] }

/-- What a judge makes of the next summary. -/
def answer (j : Judge) (summary : Summary) : Except Error Unit := j.verdict (j.handed ++ [summary])

instance : Receiver Judge where
  receive summary profiler j :=
    return ⟨(j.answer summary).mapError .error, profiler, j.hear summary⟩

end Judge

namespace Session

section Judged

variable (s : Session Judge)

/-- The summary of the window. -/
def current : Summary := s.profiler.summary.value

lemma value_publish : s.publish.value = match s.receiver.answer s.current with
    | .ok _ => (.ok true,
        { s with receiver := s.receiver.hear s.current, latest := some s.current })
    | .error _ => (.ok false, { s with receiver := s.receiver.hear s.current }) := by
  have hhandOver : s.handOver.value
      = (((s.receiver.answer s.current).mapError .error).map fun _ => s.current,
          { s with receiver := s.receiver.hear s.current }) := rfl
  rw [publish, Logged.value_bind, hhandOver]
  cases s.receiver.answer s.current <;> rfl

/-- **Publishing hands the summary of the window over**, once, whatever the answer is, … -/
lemma receiver_publish : s.publish.value.2.receiver = s.receiver.hear s.current := by
  rw [value_publish]
  cases s.receiver.answer s.current <;> rfl

/-- … tells whether it was accepted, … -/
lemma fst_publish : s.publish.value.1 = .ok (s.receiver.answer s.current).isOk := by
  rw [value_publish]
  cases s.receiver.answer s.current <;> rfl

/-- … and changes nothing that is measured. -/
lemma profiler_publish : s.publish.value.2.profiler = s.profiler :=
  profiler_publish_of_aloof (fun _ _ _ => rfl) s

/-- Whatever is published, the profiler is called as the events say. -/
lemma profiler_act (e : Event) :
    (s.act e).value.profiler = (s.profiler.run e.call?.toList).value := by
  cases e with
  | frame now => exact profiler_onFrame_of_aloof (fun _ _ _ => rfl) s now
  | refresh => exact profiler_publish _
  | reset => rfl

/-- A receiver hears one summary at most. -/
lemma receiver_act (e : Event) :
    (s.act e).value.receiver = s.receiver
      ∨ ∃ summary, (s.act e).value.receiver = s.receiver.hear summary := by
  cases e with
  | frame now =>
    rw [value_act_frame]
    obtain ⟨counted, hframe | hframe⟩ := s.onFrame_cases now
    · rw [hframe]
      exact Or.inl rfl
    · rw [hframe]
      exact Or.inr ⟨_, receiver_publish _⟩
  | refresh => exact Or.inr ⟨_, receiver_publish _⟩
  | reset => exact Or.inl rfl

lemma verdict_run (events : List Event) :
    (s.run events).value.receiver.verdict = s.receiver.verdict := by
  induction events using List.reverseRecOn with
  | nil => rfl
  | append_singleton events e ih =>
    rw [value_run_concat, ← ih]
    rcases (s.run events).value.receiver_act e with h | ⟨summary, h⟩
    · rw [h]
    · rw [h]
      rfl

/-- **The profiler of a session** is in the state that its calls alone lead to. -/
theorem profiler_run (events : List Event) :
    (s.run events).value.profiler = (s.profiler.run (events.filterMap Event.call?)).value := by
  induction events using List.reverseRecOn with
  | nil => rfl
  | append_singleton events e ih =>
    rw [value_run_concat, profiler_act, ih, List.filterMap_append, Profiler.value_run_append]
    cases e <;> rfl

end Judged

end Session

end FramePacing
