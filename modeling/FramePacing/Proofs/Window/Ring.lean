import FramePacing.Proofs.Window.Recent
import Mathlib.Algebra.Group.Nat.Defs

/-!
# What a window holds after a run

A window is written and cleared in any order.  What it holds is a function of that history: the
durations `pushed` since it was last cleared, as many of the last ones as there is room for.

The slots are found by arithmetic on words of 64 bits.  `push?` and `toList?` do the same as `push`
and `toList` with every check on the way: they have no result if a sum does not fit into a word, if
a difference would be negative, if a divisor is zero or if an index is beyond the slots.

* `WellFormed.push?_eq`, `WellFormed.toList?_eq` — none of this happens in a ring that is in order,
  as long as its capacity is one that can be allocated.
* `wellFormed_run` — a window is in order after every run.
* `toList_run` — it holds the last durations that were pushed.
* `run_eq_last_pushed` — all of it for every capacity and every run.
-/

namespace FramePacing.Window

/-! ## Runs -/

/-- What is done with a window. -/
inductive Step where
  | push (d : Duration)
  | pushMillis (x : Float)
  | clear
deriving DecidableEq

/-- The duration that a step writes. -/
def Step.duration? : Step → Option Duration
  | .push d => some d
  | .pushMillis x => some (.ofMillis x)
  | .clear => none

def step (w : Window) : Step → Window
  | .push d => w.push d
  | .pushMillis x => w.pushMillis x
  | .clear => w.clear

/-- Steps one after the other. -/
def run (w : Window) (steps : List Step) : Window := steps.foldl step w

/-- The durations written since the window was last cleared, oldest first. -/
def pushed (steps : List Step) : List Duration :=
  (steps.rtakeWhile (· ≠ .clear)).filterMap Step.duration?

/-! ## Checked arithmetic -/

section Checked

/-- A sum of two words, if it is a word. -/
def sum? (m n : ℕ) : Option ℕ := if m + n < 2 ^ 64 then some (m + n) else none

/-- A difference of two words, if it is not negative. -/
def difference? (m n : ℕ) : Option ℕ := if n ≤ m then some (m - n) else none

/-- A remainder, if the divisor is not zero. -/
def remainder? (m n : ℕ) : Option ℕ := if n = 0 then none else some (m % n)

/-- The slots after a write under the cursor, if there is a slot there. -/
def write? (w : Window) (d : Duration) : Option (Array Duration) :=
  if h : w.cursor < w.slots.size then some (w.slots.set w.cursor d h) else none

/-- The number of durations after a write. -/
def grow? (w : Window) : Option ℕ := if w.size < w.capacity then sum? w.size 1 else some w.size

/-- Writes a duration, with every check. -/
def push? (w : Window) (d : Duration) : Option Window := do
  let slots ← w.write? d
  let next ← sum? w.cursor 1
  let cursor ← remainder? next w.capacity
  let size ← w.grow?
  return { w with slots, cursor, size }

/-- The duration in the `i`-th slot from `start` on, with every check. -/
def read? (w : Window) (start i : ℕ) : Option Duration := do
  let place ← sum? start i
  let slot ← remainder? place w.capacity
  w.slots[slot]?

/-- The durations in the window, oldest first, with every check. -/
def toList? (w : Window) : Option (List Duration) := do
  let stop ← sum? w.cursor w.capacity
  let first ← difference? stop w.size
  let start ← remainder? first w.capacity
  (List.range w.size).mapM (w.read? start)

def step? (w : Window) : Step → Option Window
  | .push d => w.push? d
  | .pushMillis x => w.push? (.ofMillis x)
  | .clear => some w.clear

def run? (w : Window) (steps : List Step) : Option Window := steps.foldlM step? w

variable {m n : ℕ}

lemma sum?_eq (h : m + n < 2 ^ 64) : sum? m n = some (m + n) := if_pos h

lemma difference?_eq (h : n ≤ m) : difference? m n = some (m - n) := if_pos h

lemma remainder?_eq (h : 0 < n) : remainder? m n = some (m % n) := if_neg h.ne'

/-- Reading all of a list succeeds if reading each of its members does. -/
lemma mapM_eq_some_map {α β : Type} {f : α → Option β} {g : α → β} :
    ∀ {l : List α}, (∀ a ∈ l, f a = some (g a)) → l.mapM f = some (l.map g)
  | [], _ => rfl
  | a :: l, h => by
      have hhead := h a List.mem_cons_self
      have htail := mapM_eq_some_map fun b hb => h b (List.mem_cons_of_mem a hb)
      rw [List.mapM_cons, hhead, htail]
      rfl

end Checked

/-! ## No check fails -/

section InOrder

variable {w : Window} (h : w.WellFormed) (hroom : w.capacity < 2 ^ 60)

include h hroom

lemma WellFormed.push?_eq (d : Duration) : w.push? d = some (w.push d) := by
  have hcursor := h.cursor_lt
  have hsize := h.size_le
  have hslot : w.cursor < w.slots.size := by rw [h.size_slots]; exact hcursor
  have hwrite : w.write? d = some (w.push d).slots := by
    rw [write?, dif_pos hslot]
    exact congrArg some (dif_pos hslot).symm
  have hnext : sum? w.cursor 1 = some (w.cursor + 1) := sum?_eq (by omega)
  have hwrap : remainder? (w.cursor + 1) w.capacity = some (w.push d).cursor :=
    remainder?_eq (by omega)
  have hgrow : w.grow? = some (w.push d).size := by
    rw [grow?, size_push]
    split_ifs
    · exact sum?_eq (by omega)
    · rfl
  simp only [push?, hwrite, hnext, hwrap, hgrow, Option.bind_eq_bind, Option.bind_some]
  rfl

lemma WellFormed.read?_eq {i : ℕ} (hi : i < w.size) :
    w.read? w.start i = some (w.inSlot (w.slotOf i)) := by
  have hsize := h.size_le
  have hpos : 0 < w.capacity := by omega
  have hstart : w.start < w.capacity := Nat.mod_lt _ hpos
  have hslot : w.slotOf i < w.slots.size := by
    rw [h.size_slots]
    exact Nat.mod_lt _ hpos
  have hplace : sum? w.start i = some (w.start + i) := sum?_eq (by omega)
  have hwrap : remainder? (w.start + i) w.capacity = some (w.slotOf i) := remainder?_eq hpos
  simp only [read?, hplace, hwrap, Option.bind_eq_bind, Option.bind_some]
  rw [inSlot, Array.getD_eq_getD_getElem?, Array.getElem?_eq_getElem hslot, Option.getD_some]

lemma WellFormed.toList?_eq : w.toList? = some w.toList := by
  have hcursor := h.cursor_lt
  have hsize := h.size_le
  have hstop : sum? w.cursor w.capacity = some (w.cursor + w.capacity) := sum?_eq (by omega)
  have hfirst : difference? (w.cursor + w.capacity) w.size
      = some (w.cursor + w.capacity - w.size) := difference?_eq (by omega)
  have hstart : remainder? (w.cursor + w.capacity - w.size) w.capacity = some w.start :=
    remainder?_eq (by omega)
  have hread : (List.range w.size).mapM (w.read? w.start) = some w.toList :=
    mapM_eq_some_map fun i hi => h.read?_eq hroom (List.mem_range.mp hi)
  simp only [toList?, hstop, hfirst, hstart, hread, Option.bind_eq_bind, Option.bind_some]

end InOrder

/-! ## One step -/

section OneStep

variable {w : Window} {s : Step} {d : Duration}

/-- A step that writes nothing clears. -/
lemma eq_clear_of_duration? (h : s.duration? = none) : s = .clear := by
  cases s <;> first | rfl | cases h

lemma step_of_duration? (h : s.duration? = some d) : w.step s = w.push d := by
  cases s <;> cases h <;> rfl

lemma WellFormed.step (h : w.WellFormed) (s : Step) : (w.step s).WellFormed := by
  cases s with
  | push d => exact h.push d
  | pushMillis x => exact h.push _
  | clear => exact h.clear

lemma capacity_step (w : Window) (s : Step) : (w.step s).capacity = w.capacity := by
  cases s <;> rfl

lemma WellFormed.step?_eq (h : w.WellFormed) (hroom : w.capacity < 2 ^ 60) (s : Step) :
    w.step? s = some (w.step s) := by
  cases s with
  | push d => exact h.push?_eq hroom d
  | pushMillis x => exact h.push?_eq hroom _
  | clear => rfl

end OneStep

/-! ## All steps -/

lemma run_concat (w : Window) (steps : List Step) (s : Step) :
    w.run (steps ++ [s]) = (w.run steps).step s := by
  rw [run, List.foldl_append]
  rfl

lemma pushed_concat_clear (steps : List Step) : pushed (steps ++ [.clear]) = [] := by
  simp [pushed]

lemma pushed_concat {s : Step} {d : Duration} (h : s.duration? = some d) (steps : List Step) :
    pushed (steps ++ [s]) = pushed steps ++ [d] := by
  have hs : s ≠ .clear := by
    rintro rfl
    cases h
  rw [pushed, List.rtakeWhile_concat_pos _ _ _ (by simpa using hs), List.filterMap_append, pushed,
    List.filterMap_cons_some h, List.filterMap_nil]

/-- With every check a run comes to the same end. -/
lemma WellFormed.run?_eq {w : Window} (h : w.WellFormed) (hroom : w.capacity < 2 ^ 60)
    (steps : List Step) : w.run? steps = some (w.run steps) := by
  induction steps generalizing w with
  | nil => rfl
  | cons s steps ih =>
    rw [run?, List.foldlM_cons, h.step?_eq hroom s]
    exact ih (h.step s) (by rwa [capacity_step])

section Run

variable (capacity : ℕ) (steps : List Step)

lemma capacity_run : ((ofCapacity capacity).run steps).capacity = max capacity 1 := by
  induction steps using List.reverseRecOn with
  | nil => rfl
  | append_singleton steps s ih => rw [run_concat, capacity_step, ih]

lemma wellFormed_run : ((ofCapacity capacity).run steps).WellFormed := by
  induction steps using List.reverseRecOn with
  | nil => exact wellFormed_ofCapacity capacity
  | append_singleton steps s ih =>
    rw [run_concat]
    exact ih.step s

lemma toList_run :
    ((ofCapacity capacity).run steps).toList = (pushed steps).rtake (max capacity 1) := by
  induction steps using List.reverseRecOn with
  | nil => simp [run, pushed]
  | append_singleton steps s ih =>
    rw [run_concat]
    cases hs : s.duration? with
    | none =>
      rw [eq_clear_of_duration? hs, pushed_concat_clear, List.rtake_nil]
      rfl
    | some d =>
      rw [step_of_duration? hs, (wellFormed_run capacity steps).toList_push, capacity_run, ih,
        pushed_concat hs, rtake_rtake_append]

end Run

/-- **A ring is the list of what was pushed last.**  Take a window of any capacity, zero being taken
for one, after any steps.  It has as many slots as its capacity, the cursor is at one of them, and
no more durations are held than there are slots: of those pushed since it was last cleared the last
ones, oldest first.  If the capacity is one that can be allocated, no index on the way there or in
reading the list is out of range, and no index arithmetic leaves the words of 64 bits. -/
theorem run_eq_last_pushed (capacity : ℕ) (steps : List Step) :
    let w := (ofCapacity capacity).run steps
    w.capacity = max capacity 1
      ∧ w.slots.size = w.capacity
      ∧ w.cursor < w.capacity
      ∧ w.size ≤ w.capacity
      ∧ w.toList = (pushed steps).rtake (min (pushed steps).length w.capacity)
      ∧ (w.capacity < 2 ^ 60 →
        (ofCapacity capacity).run? steps = some w ∧ w.toList? = some w.toList) := by
  intro w
  have hwf : w.WellFormed := wellFormed_run capacity steps
  have hcapacity : w.capacity = max capacity 1 := capacity_run capacity steps
  refine ⟨hcapacity, hwf.size_slots, hwf.cursor_lt, hwf.size_le, ?_, fun hroom => ⟨?_, ?_⟩⟩
  · rw [hcapacity, rtake_min_length]
    exact toList_run capacity steps
  · rw [hcapacity] at hroom
    exact (wellFormed_ofCapacity capacity).run?_eq hroom steps
  · exact hwf.toList?_eq hroom

/-- Three durations in two slots, which were written before they were cleared. -/
theorem run_eq_last_pushed_in_two_slots :
    let steps : List Step := [.push ⟨8⟩, .clear, .push ⟨16⟩, .pushMillis (-1), .push ⟨50⟩]
    ((ofCapacity 2).run steps).toList = [.zero, ⟨50⟩]
      ∧ (ofCapacity 2).run? steps = some ((ofCapacity 2).run steps) := by
  intro steps
  obtain ⟨-, -, -, -, hlast, hchecked⟩ := run_eq_last_pushed 2 steps
  exact ⟨hlast.trans (by decide +kernel), (hchecked (by decide +kernel)).1⟩

end FramePacing.Window
