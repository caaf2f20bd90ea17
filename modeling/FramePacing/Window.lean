import FramePacing.Duration

/-!
# The window of recent frames

A `Window` keeps the durations of the most recent frames in a ring of slots that is allocated once:
a write goes to the slot under the cursor, and once all slots are taken it replaces the oldest
duration.  `Window.toList` reads the window from the oldest duration to the newest.

* `length_toList`, `toList_ofCapacity`, `toList_clear` — what the operations do to that view.
-/

namespace FramePacing

/-- A ring of slots, `cursor` being the next one to be written. -/
structure Window where
  slots : Array Duration
  capacity : Nat
  cursor : Nat
  size : Nat
deriving DecidableEq

namespace Window

/-- The empty window of a capacity, one slot at least. -/
def ofCapacity (capacity : Nat) : Window :=
  ⟨Array.replicate (max capacity 1) .zero, max capacity 1, 0, 0⟩

/-- Records a duration, in place of the oldest one if the window is full. -/
def push (w : Window) (d : Duration) : Window :=
  { w with
    slots := w.slots.setIfInBounds w.cursor d
    cursor := (w.cursor + 1) % w.capacity
    size := if w.size < w.capacity then w.size + 1 else w.size }

def pushMillis (w : Window) (x : Float) : Window := w.push (.ofMillis x)

/-- The slot of the oldest duration. -/
def start (w : Window) : Nat := (w.cursor + w.capacity - w.size) % w.capacity

/-- The slot of the `i`-th duration, counted from the oldest. -/
def slotOf (w : Window) (i : Nat) : Nat := (w.start + i) % w.capacity

/-- The durations in the window, oldest first. -/
def toList (w : Window) : List Duration :=
  (List.range w.size).map fun i => w.slots.getD (w.slotOf i) .zero

def isEmpty (w : Window) : Bool := w.size == 0

/-- Forgets all durations; the slots stay as they are. -/
def clear (w : Window) : Window := { w with cursor := 0, size := 0 }

def last? (w : Window) : Option Duration := w.toList.getLast?

/-! ## The view of the operations -/

@[simp] theorem length_toList (w : Window) : w.toList.length = w.size := by simp [toList]

@[simp] theorem toList_ofCapacity (capacity : Nat) : (ofCapacity capacity).toList = [] := rfl

@[simp] theorem toList_clear (w : Window) : w.clear.toList = [] := rfl

theorem isEmpty_eq_true_iff (w : Window) : w.isEmpty = true ↔ w.toList = [] := by
  rw [isEmpty, beq_iff_eq, ← length_toList, List.length_eq_zero_iff]

theorem capacity_push (w : Window) (d : Duration) : (w.push d).capacity = w.capacity := rfl

theorem size_push (w : Window) (d : Duration) :
    (w.push d).size = if w.size < w.capacity then w.size + 1 else w.size := rfl

end Window

end FramePacing
