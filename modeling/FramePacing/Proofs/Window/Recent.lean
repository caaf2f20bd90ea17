import FramePacing.Window
import Mathlib.Data.List.DropRight

/-!
# A window holds the most recent durations

The ring of slots is an implementation of one list: the last `capacity` durations that were pushed,
oldest first.  `WellFormed` is what the ring keeps while it is written, and `toList_push` says what
a write does to the list, whether the ring is partly filled, just full or wrapped around.

* `WellFormed.push`, `WellFormed.clear` — the ring stays in order.
* `toList_push` — a write appends a duration and forgets the oldest ones beyond the capacity.
* `last?_push` — the duration that was written is the newest one.
-/

namespace FramePacing.Window

/-! ## Keeping the end of a list -/

/-- Keeping the last `n` twice, with more appended in between, is keeping them once. -/
lemma rtake_rtake_append {α : Type} (l m : List α) (n : ℕ) :
    (l.rtake n ++ m).rtake n = (l ++ m).rtake n := by
  have hdrop : l.drop (l.length - n) ++ m = (l ++ m).drop (l.length - n) :=
    (List.drop_append_of_le_length (Nat.sub_le _ _)).symm
  simp only [List.rtake]
  rw [hdrop, List.drop_drop, List.length_drop, List.length_append]
  congr 1
  omega

/-- A list has no more than all of its members to keep. -/
lemma rtake_min_length {α : Type} (l : List α) (n : ℕ) : l.rtake (min l.length n) = l.rtake n := by
  simp only [List.rtake]
  congr 1
  omega

/-! ## The ring -/

/-- The ring has as many slots as its capacity, and neither the cursor nor the number of recorded
durations is beyond them. -/
structure WellFormed (w : Window) : Prop where
  size_slots : w.slots.size = w.capacity
  cursor_lt : w.cursor < w.capacity
  size_le : w.size ≤ w.capacity

lemma wellFormed_ofCapacity (capacity : ℕ) : (ofCapacity capacity).WellFormed where
  size_slots := by simp [ofCapacity]
  cursor_lt := by simp only [ofCapacity]; omega
  size_le := Nat.zero_le _

lemma WellFormed.push {w : Window} (h : w.WellFormed) (d : Duration) : (w.push d).WellFormed where
  size_slots := by simpa [Window.push] using h.size_slots
  cursor_lt := Nat.mod_lt _ (Nat.zero_lt_of_lt h.cursor_lt)
  size_le := by
    have hsize := h.size_le
    rw [size_push, capacity_push]
    split_ifs <;> omega

lemma WellFormed.clear {w : Window} (h : w.WellFormed) : w.clear.WellFormed where
  size_slots := h.size_slots
  cursor_lt := Nat.zero_lt_of_lt h.cursor_lt
  size_le := Nat.zero_le _

/-! ## Slots

Counted from the slot of the oldest duration, the durations follow one another around the ring and
end just before the cursor.  So a write, which moves the cursor by one, leaves every duration that
it does not replace in its slot.
-/

lemma slotOf_eq (w : Window) (i : ℕ) :
    w.slotOf i = (w.cursor + w.capacity - w.size + i) % w.capacity := Nat.mod_add_mod _ _ _

/-- While there is room, the slot after the newest duration is the one that is written next. -/
lemma WellFormed.slotOf_size {w : Window} (h : w.WellFormed) : w.slotOf w.size = w.cursor := by
  have hsize := h.size_le
  rw [slotOf_eq, show w.cursor + w.capacity - w.size + w.size = w.cursor + w.capacity by omega,
    Nat.add_mod_right, Nat.mod_eq_of_lt h.cursor_lt]

/-- The only duration that a write can replace is the oldest one of a full window. -/
lemma WellFormed.slotOf_ne_cursor {w : Window} (h : w.WellFormed) {i : ℕ} (hi : i < w.size)
    (hroom : w.size < w.capacity ∨ 0 < i) : w.slotOf i ≠ w.cursor := by
  have hcursor := h.cursor_lt
  have hsize := h.size_le
  rw [slotOf_eq]
  rcases Nat.lt_or_ge (w.cursor + w.capacity - w.size + i) w.capacity with hlt | hge
  · rw [Nat.mod_eq_of_lt hlt]
    omega
  · rw [Nat.mod_eq_sub_mod hge, Nat.mod_eq_of_lt (by omega)]
    omega

lemma slotOf_push_of_lt {w : Window} (d : Duration) (hroom : w.size < w.capacity) (i : ℕ) :
    (w.push d).slotOf i = w.slotOf i := by
  rw [slotOf_eq, slotOf_eq, size_push, if_pos hroom, capacity_push]
  show ((w.cursor + 1) % w.capacity + w.capacity - (w.size + 1) + i) % w.capacity = _
  rw [show (w.cursor + 1) % w.capacity + w.capacity - (w.size + 1) + i
      = (w.cursor + 1) % w.capacity + (w.capacity - (w.size + 1) + i) by omega, Nat.mod_add_mod]
  congr 1
  omega

lemma slotOf_push_of_full {w : Window} (d : Duration) (hfull : w.size = w.capacity) (i : ℕ) :
    (w.push d).slotOf i = w.slotOf (i + 1) := by
  rw [slotOf_eq, slotOf_eq, size_push, if_neg (by omega), capacity_push, hfull]
  show ((w.cursor + 1) % w.capacity + w.capacity - w.capacity + i) % w.capacity = _
  rw [Nat.add_sub_cancel, Nat.mod_add_mod, Nat.add_sub_cancel]
  congr 1
  omega

/-! ## The list -/

/-- The duration in a slot. -/
def inSlot (w : Window) (slot : ℕ) : Duration := w.slots.getD slot .zero

lemma toList_eq (w : Window) :
    w.toList = (List.range w.size).map fun i => w.inSlot (w.slotOf i) := rfl

lemma inSlot_push_of_ne (w : Window) (d : Duration) {slot : ℕ} (h : slot ≠ w.cursor) :
    (w.push d).inSlot slot = w.inSlot slot := by
  simp [inSlot, push, Array.getD_eq_getD_getElem?, Array.getElem?_setIfInBounds_ne h.symm]

lemma WellFormed.inSlot_push_cursor {w : Window} (h : w.WellFormed) (d : Duration) :
    (w.push d).inSlot w.cursor = d := by
  have hlt : w.cursor < w.slots.size := by rw [h.size_slots]; exact h.cursor_lt
  show (w.slots.setIfInBounds w.cursor d).getD w.cursor .zero = d
  simp [Array.getD_eq_getD_getElem?, hlt]

lemma WellFormed.toList_push_of_lt {w : Window} (h : w.WellFormed) (d : Duration)
    (hroom : w.size < w.capacity) : (w.push d).toList = w.toList ++ [d] := by
  rw [toList_eq, size_push, if_pos hroom, List.range_succ, List.map_append]
  congr 1
  · apply List.map_congr_left
    intro i hi
    rw [slotOf_push_of_lt d hroom]
    exact inSlot_push_of_ne w d (h.slotOf_ne_cursor (List.mem_range.mp hi) (Or.inl hroom))
  · simp only [List.map_cons, List.map_nil]
    rw [slotOf_push_of_lt d hroom, h.slotOf_size, h.inSlot_push_cursor]

lemma WellFormed.toList_push_of_full {w : Window} (h : w.WellFormed) (d : Duration)
    (hfull : w.size = w.capacity) : (w.push d).toList = w.toList.tail ++ [d] := by
  have hpos : 0 < w.capacity := Nat.zero_lt_of_lt h.cursor_lt
  obtain ⟨n, hn⟩ : ∃ n, w.size = n + 1 := ⟨w.size - 1, by omega⟩
  have hold : w.toList.tail = (List.range n).map fun i => w.inSlot (w.slotOf (i + 1)) := by
    rw [toList_eq, hn, List.range_succ_eq_map, List.map_cons, List.tail_cons, List.map_map]
    rfl
  rw [hold, toList_eq, size_push, if_neg (by omega), hn, List.range_succ, List.map_append]
  congr 1
  · apply List.map_congr_left
    intro i hi
    have hlt := List.mem_range.mp hi
    rw [slotOf_push_of_full d hfull]
    exact inSlot_push_of_ne w d (h.slotOf_ne_cursor (by omega) (Or.inr i.succ_pos))
  · simp only [List.map_cons, List.map_nil]
    rw [slotOf_push_of_full d hfull, ← hn, h.slotOf_size, h.inSlot_push_cursor]

/-- **A write appends a duration** and forgets what is beyond the capacity. -/
theorem WellFormed.toList_push {w : Window} (h : w.WellFormed) (d : Duration) :
    (w.push d).toList = (w.toList ++ [d]).rtake w.capacity := by
  have hlength := length_toList w
  simp only [List.rtake]
  rcases Nat.lt_or_eq_of_le h.size_le with hroom | hfull
  · rw [h.toList_push_of_lt d hroom, List.length_append, List.length_singleton,
      show w.toList.length + 1 - w.capacity = 0 by omega, List.drop_zero]
  · have hpos : 0 < w.toList.length := by have := h.cursor_lt; omega
    rw [h.toList_push_of_full d hfull, List.length_append, List.length_singleton,
      show w.toList.length + 1 - w.capacity = 1 by omega, List.drop_one,
      List.tail_append_of_ne_nil (List.ne_nil_of_length_pos hpos)]

/-- A write leaves its duration as the newest one. -/
lemma WellFormed.last?_push {w : Window} (h : w.WellFormed) (d : Duration) :
    (w.push d).last? = some d := by
  have hpos : 0 < w.capacity := Nat.zero_lt_of_lt h.cursor_lt
  rw [last?, h.toList_push, List.rtake, List.getLast?_drop, if_neg, List.getLast?_concat]
  simp only [List.length_append, List.length_singleton]
  omega

end FramePacing.Window
