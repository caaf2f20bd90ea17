import FramePacing.Proofs.Session.Overheard
import FramePacing.Proofs.Statistics.Sorting
import FramePacing.Proofs.Duration.Total
import FramePacing.Proofs.Window.Ring

/-!
# Everything that is measured is a proper duration

Any float may be given as a time, and any float as a number of milliseconds.  Every duration is made
by `Duration.ofMillis` nevertheless, and so is every field of a summary, be it a mean that is too
large to be finite.  So whatever is done, the slots of a window hold proper durations, in use or
not; and proper durations are `Measured` numbers, which are sorted as they are compared.

* `Duration.IsProper.measured`, `isMeasured_summarize` — what proper durations and summaries are.
* `AllProper.step`, `allProper_call`, `Proper.perform` — what is kept by what is done with a window,
  a profiler and a session.
* `everything_measured_is_proper` — what holds after every run of each of them.
-/

namespace FramePacing

open Log Logged
open Binary Statistics

/-! ## Measured numbers -/

/-- What an amount of time can be: a finite number that is not negative, and not negative zero. -/
structure Measured (x : Float) : Prop where
  isNumber : x.isNaN = false
  isFinite : x.isFinite = true
  nonneg : 0 ≤ x
  unsigned : x ≠ -0.0

lemma Duration.IsProper.measured {d : Duration} (h : d.IsProper) : Measured d.millis where
  isNumber := isNaN_of_isFinite h.isFinite
  isFinite := h.isFinite
  nonneg := (le_iff_value_le isFinite_zero h.isFinite).mpr (value_zero ▸ h.value_nonneg)
  unsigned hzero := by
    have hproper : Duration.IsProper ⟨-0.0⟩ := hzero ▸ h
    exact absurd hproper (by decide)

/-- All frame times of a summary are measured. -/
structure Summary.IsMeasured (s : Summary) : Prop where
  average : Measured s.average
  onePercentLow : Measured s.onePercentLow
  tenthPercentLow : Measured s.tenthPercentLow

lemma Summary.isMeasured_ofDurations {d d' d'' : Duration} (h : d.IsProper) (h' : d'.IsProper)
    (h'' : d''.IsProper) : (Summary.ofDurations d d' d'').IsMeasured :=
  ⟨h.measured, h'.measured, h''.measured⟩

/-- **A summary is measured**, also if one of its means is not a finite number. -/
lemma isMeasured_summarize (ds : List Duration) : (summarize ds).value.IsMeasured := by
  rcases List.eq_nil_or_concat ds with rfl | ⟨_, _, rfl⟩
  · have hzero : Duration.zero.IsProper := by decide
    exact Summary.isMeasured_ofDurations hzero hzero hzero
  · rw [value_summarize (by simp)]
    exact Summary.isMeasured_ofDurations (Duration.isProper_ofMillis _)
      (Duration.isProper_ofMillis _) (Duration.isProper_ofMillis _)

/-! ## Windows -/

namespace Window

/-- All slots of a window hold proper durations, in use or not. -/
def AllProper (w : Window) : Prop := ∀ d ∈ w.slots, d.IsProper

/-- What is measured in a window: the durations in its slots and those that are read from it, which
are sorted by the bits of their numbers as they are compared. -/
structure IsMeasured (w : Window) : Prop where
  slots : ∀ d ∈ w.slots, Measured d.millis
  durations : ∀ d ∈ w.toList, Measured d.millis
  ordered : ∀ d ∈ w.toList, ∀ d' ∈ w.toList,
    orderKey d.millis ≤ orderKey d'.millis ↔ d.millis ≤ d'.millis

variable {w : Window}

lemma allProper_ofCapacity (capacity : ℕ) : (ofCapacity capacity).AllProper := by
  intro d hd
  obtain ⟨-, rfl⟩ := Array.mem_replicate.mp hd
  decide

lemma AllProper.push (h : w.AllProper) {d : Duration} (hd : d.IsProper) : (w.push d).AllProper := by
  intro d' hd'
  rcases Array.mem_or_eq_of_mem_setIfInBounds hd' with hold | rfl
  · exact h d' hold
  · exact hd

/-- **A step keeps all slots proper** if the duration that it may push is. -/
lemma AllProper.step (h : w.AllProper) {s : Step} (hs : ∀ d, s = .push d → d.IsProper) :
    (w.step s).AllProper := by
  cases s with
  | push d => exact h.push (hs d rfl)
  | pushMillis x => exact h.push (Duration.isProper_ofMillis x)
  | clear => exact h

lemma AllProper.run (h : w.AllProper) {steps : List Step}
    (hsteps : ∀ d, .push d ∈ steps → d.IsProper) : (w.run steps).AllProper := by
  induction steps using List.reverseRecOn with
  | nil => exact h
  | append_singleton steps s ih =>
    rw [run_concat]
    refine (ih fun d hd => hsteps d (List.mem_append_left _ hd)).step fun d hs => hsteps d ?_
    rw [hs]
    simp

/-- What is read from a slot is proper, also if there is no such slot. -/
lemma AllProper.inSlot (h : w.AllProper) (slot : ℕ) : (w.inSlot slot).IsProper := by
  rw [Window.inSlot, Array.getD_eq_getD_getElem?]
  rcases hslot : w.slots[slot]? with _ | d
  · decide
  · exact h d (Array.mem_of_getElem? hslot)

lemma AllProper.toList (h : w.AllProper) : ∀ d ∈ w.toList, d.IsProper := by
  rw [toList_eq, List.forall_mem_map]
  exact fun i _ => h.inSlot _

lemma AllProper.isMeasured (h : w.AllProper) : w.IsMeasured where
  slots d hd := (h d hd).measured
  durations d hd := (h.toList d hd).measured
  ordered d hd d' hd' := orderKey_le_iff_le (h.toList d hd) (h.toList d' hd')

end Window

/-! ## Profilers -/

namespace Profiler

/-- What is measured in a profiler: its window, and the summary of that. -/
structure IsMeasured (p : Profiler) : Prop where
  window : p.window.IsMeasured
  summary : p.summary.value.IsMeasured

variable {p : Profiler}

lemma isMeasured_of_allProper (h : p.window.AllProper) : p.IsMeasured where
  window := h.isMeasured
  summary := isMeasured_summarize _

lemma allProper_record (h : p.window.AllProper) (now : Timestamp) :
    (p.record now).window.AllProper := by
  rw [window_record, gap?]
  cases p.previous with
  | none => exact h
  | some earlier => exact h.push (Duration.isProper_since now earlier)

/-- **A call keeps all slots proper**, whatever time it gives. -/
lemma allProper_call (h : p.window.AllProper) (c : Call) : (p.call c).value.window.AllProper := by
  cases c with
  | update now =>
    rw [call, value_update]
    split_ifs
    · exact allProper_record h now
    · exact h
  | reset => exact h

lemma allProper_run (h : p.window.AllProper) (calls : List Call) :
    (p.run calls).value.window.AllProper := by
  induction calls using List.reverseRecOn with
  | nil => exact h
  | append_singleton calls c ih =>
    rw [value_run_concat]
    exact allProper_call ih c

end Profiler

/-! ## Sessions -/

namespace Session

section Proper

variable {σ : Type}

/-- Only proper durations are in the window, and only measured summaries are kept and were heard. -/
structure Proper (s : Session (Overheard (Listener σ))) : Prop where
  window : s.profiler.window.AllProper
  latest : ∀ summary ∈ s.latest, summary.IsMeasured
  heard : ∀ summary ∈ s.receiver.heard, summary.IsMeasured

variable {s : Session (Overheard (Listener σ))}

lemma proper_start (capacity : ℕ) (c : Cadence) (l : Listener σ) :
    Proper (start (.ofCapacity capacity) c ({ inner := l } : Overheard (Listener σ))).value where
  window := Window.allProper_ofCapacity capacity
  latest := fun _ h => by cases h
  heard := fun _ h => by cases h

/-- A listener can call the profiler, but not make a duration. -/
lemma Proper.reply (h : s.Proper) : s.reply.profiler.window.AllProper := by
  have hplayed := Reaction.profiler_play (s.receiver.inner.react s.profiler.summary.value
    s.profiler.view s.receiver.inner.state) s.profiler
  have hreply : s.reply.profiler = _ := hplayed
  rw [hreply]
  exact Profiler.allProper_run h.window _

lemma Proper.heard_reply (h : s.Proper) :
    ∀ summary ∈ s.reply.receiver.heard, summary.IsMeasured := by
  have hheard : s.reply.receiver.heard = s.receiver.heard ++ [s.profiler.summary.value] := rfl
  rw [hheard, List.forall_mem_append, List.forall_mem_singleton]
  exact ⟨h.heard, isMeasured_summarize _⟩

lemma Proper.handOver (h : s.Proper) : s.handOver.value.2.Proper := by
  rw [value_handOver]
  exact ⟨h.reply, h.latest, h.heard_reply⟩

lemma Proper.publish (h : s.Proper) : s.publish.value.2.Proper := by
  rw [snd_publish]
  refine ⟨h.reply, ?_, h.heard_reply⟩
  dsimp only
  split_ifs
  · rintro _ ⟨⟩
    exact isMeasured_summarize _
  · exact h.latest

lemma Proper.onFrame (h : s.Proper) (now : Timestamp) : (s.onFrame now).value.2.Proper := by
  have hwindow : (s.record now).profiler.window.AllProper :=
    Profiler.allProper_call h.window (.update now)
  obtain ⟨counted, hframe⟩ := s.onFrame_cases now
  have hcounted : Proper { s.record now with cadence := counted } := ⟨hwindow, h.latest, h.heard⟩
  rcases hframe with hframe | hframe
  · rw [hframe]
    exact hcounted
  · rw [hframe]
    exact hcounted.publish

lemma Proper.refresh (h : s.Proper) : s.refresh.value.2.Proper :=
  publish (s := { s with cadence := s.cadence.restart }) ⟨h.window, h.latest, h.heard⟩

lemma Proper.reset (h : s.Proper) : s.reset.value.Proper where
  window := Profiler.allProper_call h.window .reset
  latest := fun _ hlatest => by cases hlatest
  heard := h.heard

/-- **Nothing that is done with a session** brings in anything else. -/
theorem Proper.perform (h : s.Proper) (op : Operation (Listener σ)) :
    (s.perform op.overheard).value.2.Proper := by
  cases op with
  | event e =>
    cases e with
    | frame now => exact h.onFrame now
    | refresh => exact h.refresh
    | reset => exact h.reset
  | call c => exact ⟨Profiler.allProper_call h.window c, h.latest, h.heard⟩
  | handOver => exact h.handOver
  | adjust f => exact ⟨h.window, h.latest, h.heard⟩

theorem Proper.performAll (h : s.Proper) (ops : List (Operation (Listener σ))) :
    (s.performAll (ops.map Operation.overheard)).value.2.Proper := by
  rw [Session.performAll, inTurn_map]
  exact holds_inTurn (P := Proper) (fun _ op h => h.perform op) ops h

end Proper

end Session

/-! ## Everything -/

/-- **Everything that is measured is a proper duration**: a finite number that is not negative, and
not negative zero.  So it is after any steps of a window, with pushes of durations that were made of
any numbers; after any calls of a profiler, with any times; and after anything that is done with a
session before any listener, for its profiler, for the summary that it keeps, and for all that the
listener was handed.  Nothing is changed by listening in to that. -/
theorem everything_measured_is_proper :
    (∀ (capacity : ℕ) (steps : List Window.Step),
        (∀ d, .push d ∈ steps → ∃ x, d = .ofMillis x) →
        ((Window.ofCapacity capacity).run steps).IsMeasured)
    ∧ (∀ (capacity : ℕ) (calls : List Profiler.Call),
        ((Profiler.ofCapacity capacity).run calls).value.IsMeasured)
    ∧ (∀ (σ : Type) (capacity : ℕ) (c : Cadence) (l : Listener σ)
        (ops : List (Session.Operation (Listener σ))),
        let x := (Session.start (.ofCapacity capacity) c l).value.performAll ops
        let s : Session (Overheard (Listener σ)) :=
          (Session.start (.ofCapacity capacity) c { inner := l }).value
        let y := s.performAll (ops.map Session.Operation.overheard)
        x.value.2.profiler.IsMeasured
        ∧ (∀ summary ∈ x.value.2.latest, summary.IsMeasured)
        ∧ (∀ summary ∈ y.value.2.receiver.heard, summary.IsMeasured)
        ∧ x.value = (y.value.1, y.value.2.unheard) ∧ x.messages = y.messages) := by
  refine ⟨fun capacity steps hsteps => ?_, fun capacity calls => ?_, ?_⟩
  · refine ((Window.allProper_ofCapacity capacity).run fun d hd => ?_).isMeasured
    obtain ⟨z, rfl⟩ := hsteps d hd
    exact Duration.isProper_ofMillis z
  · exact Profiler.isMeasured_of_allProper
      (Profiler.allProper_run (Window.allProper_ofCapacity capacity) calls)
  · intro σ capacity c l ops x s y
    have hproper : y.value.2.Proper := (Session.proper_start capacity c l).performAll ops
    have hunheard := s.unheard_performAll ops
    have hsame : x.value = (y.value.1, y.value.2.unheard) :=
      Prod.ext hunheard.value.answer.symm hunheard.value.state.symm
    rw [hsame]
    exact ⟨Profiler.isMeasured_of_allProper hproper.window, hproper.latest, hproper.heard, rfl,
      hunheard.messages.symm⟩

/-- Two slots into which anything but durations was put. -/
theorem everything_measured_in_two_slots :
    let steps : List Window.Step :=
      [.pushMillis (0 / 0), .push (.ofMillis 16), .pushMillis (-0.0), .pushMillis (-1), .clear]
    ((Window.ofCapacity 2).run steps).slots = #[.zero, .zero]
      ∧ ((Window.ofCapacity 2).run steps).IsMeasured := by
  intro steps
  obtain ⟨hwindow, -⟩ := everything_measured_is_proper
  have hsteps : ∀ d, .push d ∈ steps → ∃ x, d = .ofMillis x := by
    intro d hd
    refine ⟨16, ?_⟩
    simpa [steps] using hd
  exact ⟨by decide +kernel, hwindow 2 steps hsteps⟩

end FramePacing
