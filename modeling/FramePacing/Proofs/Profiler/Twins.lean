import FramePacing.Proofs.Log.Related
import FramePacing.Proofs.Profiler.History

/-!
# Profilers that cannot be told apart

A reset leaves the slots of the window as they are, so a profiler that was reset is not equal to a
new one.  What can be seen of a profiler is its `View`: the capacity, the durations in the window
and the last reading.  `Twins` are profilers in order with the same view, whatever is in their other
slots and wherever their cursors stand.

* `Twins.call` — a call keeps twins twins, and is answered alike.
* `Twins.summary_eq` — twins have the same summary.
* `twins_reset` — a profiler that was reset is the twin of a new one.
-/

namespace FramePacing.Profiler

open Log Logged

/-- What can be seen of a profiler. -/
structure View where
  capacity : ℕ
  durations : List Duration
  previous : Option Timestamp

def view (p : Profiler) : View := ⟨p.window.capacity, p.window.toList, p.previous⟩

/-- Two profilers of a capacity that cannot be told apart. -/
structure Twins (capacity : ℕ) (p q : Profiler) : Prop where
  left : p.window.WellFormed
  right : q.window.WellFormed
  capacity_eq : p.window.capacity = capacity
  view_eq : p.view = q.view

namespace Twins

variable {n : ℕ} {p q : Profiler}

lemma capacity_right (h : Twins n p q) : q.window.capacity = n :=
  (congrArg View.capacity h.view_eq).symm.trans h.capacity_eq

lemma toList_eq (h : Twins n p q) : p.window.toList = q.window.toList :=
  congrArg View.durations h.view_eq

lemma previous_eq (h : Twins n p q) : p.previous = q.previous := congrArg View.previous h.view_eq

lemma size_eq (h : Twins n p q) : p.window.size = q.window.size := by
  rw [← Window.length_toList, ← Window.length_toList, h.toList_eq]

lemma gap?_eq (h : Twins n p q) (now : Timestamp) : p.gap? now = q.gap? now := by
  rw [gap?, gap?, h.previous_eq]

/-- Twins have the same summary. -/
lemma summary_eq (h : Twins n p q) : p.summary = q.summary := by
  rw [summary, summary, h.toList_eq]

/-! ## Calls -/

lemma record (h : Twins n p q) (now : Timestamp) : Twins n (p.record now) (q.record now) := by
  obtain ⟨hleft, hcapacity⟩ := wellFormed_record h.left now
  obtain ⟨hright, hcapacity'⟩ := wellFormed_record h.right now
  refine ⟨hleft, hright, hcapacity.trans h.capacity_eq, ?_⟩
  simp only [view]
  rw [hcapacity, hcapacity', toList_window_record h.left, toList_window_record h.right, h.toList_eq,
    h.gap?_eq, h.capacity_eq, h.capacity_right]
  rfl

lemma update (h : Twins n p q) (now : Timestamp) :
    Related (Twins n) (p.update now) (q.update now) := by
  simp only [Profiler.update]
  split_ifs
  · exact related_pure (h.record now)
  · exact (related_pure h).after_say _ _ _

lemma reset (h : Twins n p q) : Related (Twins n) p.reset q.reset := by
  simp only [Profiler.reset]
  -- the message tells how many durations are dropped
  rw [h.size_eq]
  refine Related.after_say _ _ _ (related_pure ⟨h.left.clear, h.right.clear, h.capacity_eq, ?_⟩)
  show View.mk p.window.capacity [] none = ⟨q.window.capacity, [], none⟩
  rw [h.capacity_eq, h.capacity_right]

/-- **A call keeps twins twins.** -/
lemma call (h : Twins n p q) (c : Call) : Related (Twins n) (p.call c) (q.call c) := by
  cases c with
  | update now => exact h.update now
  | reset => exact h.reset

end Twins

/-! ## New profilers -/

lemma twins_ofCapacity (capacity : ℕ) :
    Twins (max capacity 1) (ofCapacity capacity) (ofCapacity capacity) :=
  ⟨Window.wellFormed_ofCapacity capacity, Window.wellFormed_ofCapacity capacity, rfl, rfl⟩

/-- **A profiler that was reset** cannot be told from a new one. -/
theorem twins_reset {capacity : ℕ} {p q : Profiler} (h : Twins (max capacity 1) p q) :
    Twins (max capacity 1) p.reset.value (ofCapacity capacity) := by
  refine ⟨h.left.clear, Window.wellFormed_ofCapacity capacity, h.capacity_eq, ?_⟩
  show View.mk p.window.capacity [] none = ⟨max capacity 1, [], none⟩
  rw [h.capacity_eq]

end FramePacing.Profiler
