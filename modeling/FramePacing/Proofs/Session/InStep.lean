import FramePacing.Proofs.Session.Twins

/-!
# The cadence and the window keep step

A frame reaches two places: its duration is pushed into the window by the profiler, and counted by
the cadence of the session.  Each place measures it for itself, the session before the profiler
takes note of the frame and the profiler while it does.  The two agree in every state that a session
can be in, also when the shared profiler was called past it.

* `snd_onFrame` — what a frame that has a duration leaves of a session.
* `onFrame_in_step` — a frame ticks the cadence if and only if it pushes a duration, the same one.
-/

namespace FramePacing.Session

section Step

variable {ρ : Type} {s : Session ρ} {now : Timestamp} {d : Duration}

/-- A frame at this time completes an interval. -/
def isDue (s : Session ρ) (now : Timestamp) : Bool :=
  (s.recorded? now).any fun d => (s.cadence.tick d).1

lemma isDue_of_none (h : s.recorded? now = none) : s.isDue now = false := by
  rw [isDue, h, Option.any_none]

lemma isDue_of_some (h : s.recorded? now = some d) : s.isDue now = (s.cadence.tick d).1 := by
  rw [isDue, h, Option.any_some]

/-- A frame has a duration if its time is finite and there is a reading before it. -/
lemma isSome_recorded?_iff : (s.recorded? now).isSome = true
    ↔ now.isValid = true ∧ s.profiler.previous.isSome = true := by
  rw [recorded?, Profiler.gap?]
  split_ifs with hvalid <;> simp [hvalid]

/-! ## The window -/

lemma window_record_of_some (h : s.recorded? now = some d) :
    (s.record now).profiler.window = s.profiler.window.push d := by
  rw [recorded?] at h
  split_ifs at h with hvalid
  show (s.profiler.update now).value.window = _
  rw [Profiler.value_update, if_pos hvalid, Profiler.window_record, h]
  rfl

lemma window_record_of_none (h : s.recorded? now = none) :
    (s.record now).profiler.window = s.profiler.window := by
  show (s.profiler.update now).value.window = _
  rw [Profiler.value_update]
  split_ifs with hvalid
  · rw [recorded?, if_pos hvalid] at h
    rw [Profiler.window_record, h]
    rfl
  · rfl

/-! ## The cadence -/

variable [Receiver ρ]

/-- What a frame that has a duration leaves of a session. -/
lemma snd_onFrame (h : s.recorded? now = some d) :
    (s.onFrame now).value.2 = if (s.cadence.tick d).1
      then ({ s.record now with cadence := (s.cadence.tick d).2 } : Session ρ).publish.value.2
      else { s.record now with cadence := (s.cadence.tick d).2 } := by
  have hcadence : (s.record now).cadence = s.cadence := rfl
  rw [value_onFrame, h]
  dsimp only
  rw [value_countFrame, hcadence, Cadence.fst_tick]
  split_ifs with hdue <;> simp [Cadence.tick, hdue]

lemma cadence_onFrame (h : s.recorded? now = some d) :
    (s.onFrame now).value.2.cadence = (s.cadence.tick d).2 := by
  rw [snd_onFrame h]
  split_ifs
  · exact cadence_publish _
  · rfl

lemma profiler_onFrame (h : s.recorded? now = some d) :
    (s.onFrame now).value.2.profiler
      = if (s.cadence.tick d).1 then (s.record now).reply.profiler
        else (s.record now).profiler := by
  rw [snd_onFrame h]
  split_ifs
  · rw [snd_publish]
    rfl
  · rfl

lemma receiver_onFrame (h : s.recorded? now = some d) :
    (s.onFrame now).value.2.receiver
      = if (s.cadence.tick d).1 then (s.record now).reply.receiver else s.receiver := by
  rw [snd_onFrame h]
  split_ifs
  · rw [snd_publish]
    rfl
  · rfl

end Step

/-- **The cadence and the window keep step.**  Take any session before any listener, after anything
that was done with it or with the shared profiler.  A frame whose time is finite, with a reading
before it, pushes one duration into the window; it is the newest one there then, and the cadence
ticks with that same duration.  Any other frame leaves the cadence, the window and the receiver
alone.  After the push, nothing but what the listener does with a summary that is due touches the
profiler; if it leaves the profiler as it is, the newest duration is still the one that was counted
when the frame is over. -/
theorem onFrame_in_step {σ : Type} (capacity : ℕ) (c : Cadence) (l : Listener σ)
    (past : List (Operation (Listener σ))) (now : Timestamp) :
    let s := ((start (.ofCapacity capacity) c l).value.performAll past).value.2
    let noted := s.record now
    let after := (s.onFrame now).value.2
    let measured := now.isValid = true ∧ s.profiler.previous.isSome = true
    (measured → ∃ d,
        noted.profiler.window = s.profiler.window.push d
        ∧ noted.profiler.window.last? = some d
        ∧ after.cadence = (s.cadence.tick d).2
        ∧ after.profiler = (if (s.cadence.tick d).1 then noted.reply.profiler else noted.profiler)
        ∧ (noted.reply.profiler = noted.profiler → after.profiler.window.last? = some d)
        ∧ after.receiver = if (s.cadence.tick d).1 then noted.reply.receiver else s.receiver)
      ∧ (¬measured →
        noted.profiler.window = s.profiler.window
        ∧ after.cadence = s.cadence
        ∧ after.profiler = noted.profiler
        ∧ after.receiver = s.receiver
        ∧ (s.onFrame now).value.1 = .ok false) := by
  intro s noted after measured
  have hself : Twins (max capacity 1) c.rule s s :=
    ((twins_start capacity c l).performAll past).value.state
  constructor
  · intro hmeasured
    obtain ⟨d, hd⟩ := Option.isSome_iff_exists.mp (isSome_recorded?_iff.mpr hmeasured)
    have hwindow := window_record_of_some hd
    have hnewest : noted.profiler.window.last? = some d := by
      rw [hwindow]
      exact hself.profiler.left.last?_push d
    have hprofiler := profiler_onFrame hd
    refine ⟨d, hwindow, hnewest, cadence_onFrame hd, hprofiler, fun haloof => ?_,
      receiver_onFrame hd⟩
    have hafter : after.profiler = noted.profiler := by
      rw [hprofiler, haloof, ite_self]
    rw [hafter]
    exact hnewest
  · intro hmeasured
    have hnone : s.recorded? now = none :=
      Option.not_isSome_iff_eq_none.mp (isSome_recorded?_iff.not.mpr hmeasured)
    have hframe : (s.onFrame now).value = (.ok false, noted) := onFrame_of_none hnone
    have hafter : after = noted := congrArg Prod.snd hframe
    rw [hafter, hframe]
    exact ⟨window_record_of_none hnone, rfl, rfl, rfl, rfl⟩

end FramePacing.Session
