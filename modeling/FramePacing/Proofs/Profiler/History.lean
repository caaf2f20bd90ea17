import FramePacing.Profiler
import FramePacing.Proofs.Window.Recent

/-!
# What a profiler knows after a run

A profiler is called with the time of a frame or to be reset, in any order and with any times.  Its
state is a function of the history of these calls: `readings` are the finite times given since the
last reset, and `gaps` the durations between each of them and the one before.

* `previous_run` — the profiler remembers the last reading.
* `toList_window_run` — its window holds the last gaps, as many as there is room for.
* `run_eq_history` — both, with the number of gaps that are held.
-/

namespace FramePacing.Profiler

open Log (Logged)

/-! ## Calls -/

/-- A call of a profiler. -/
inductive Call where
  | update (now : Timestamp)
  | reset
deriving DecidableEq

/-- What a profiler does when it is called. -/
def call (p : Profiler) : Call → Logged Profiler
  | .update now => p.update now
  | .reset => p.reset

/-- Calls one after the other. -/
def run (p : Profiler) (calls : List Call) : Logged Profiler := calls.foldlM call p

lemma value_run_append (p : Profiler) (calls calls' : List Call) :
    (p.run (calls ++ calls')).value = ((p.run calls).value.run calls').value := by
  simp only [run, Logged.value_foldlM, List.foldl_append]

lemma value_run_concat (p : Profiler) (calls : List Call) (c : Call) :
    (p.run (calls ++ [c])).value = ((p.run calls).value.call c).value :=
  value_run_append p calls [c]

/-! ## History -/

/-- The time that a call gives, if it is one. -/
def Call.reading? : Call → Option Timestamp
  | .update now => if now.isValid then some now else none
  | .reset => none

/-- The finite times given since the last reset, oldest first. -/
def readings (calls : List Call) : List Timestamp :=
  (calls.rtakeWhile (· ≠ .reset)).filterMap Call.reading?

/-- The durations from each reading to the next. -/
def gaps : List Timestamp → List Duration
  | earlier :: later :: rest =>
    .ofMillis (later.millis - earlier.millis) :: gaps (later :: rest)
  | _ => []

lemma isValid_of_reading? {c : Call} {t : Timestamp} (h : c.reading? = some t) :
    t.isValid = true := by
  cases c with
  | update now =>
    rw [Call.reading?] at h
    split_ifs at h with hvalid
    cases h
    exact hvalid
  | reset => cases h

lemma readings_nil : readings [] = [] := rfl

lemma readings_concat_reset (calls : List Call) : readings (calls ++ [.reset]) = [] := by
  simp [readings]

lemma readings_concat_update (calls : List Call) (now : Timestamp) :
    readings (calls ++ [.update now])
      = readings calls ++ if now.isValid then [now] else [] := by
  rw [readings, List.rtakeWhile_concat_pos _ _ _ (by simp), List.filterMap_append, readings]
  congr 1
  simp only [List.filterMap_cons, List.filterMap_nil, Call.reading?]
  split_ifs <;> rfl

lemma length_gaps : ∀ times : List Timestamp, (gaps times).length = times.length - 1
  | [] => rfl
  | [_] => rfl
  | _ :: later :: rest => by
      rw [gaps, List.length_cons, length_gaps (later :: rest)]
      simp

/-- A further reading adds the gap to the last one before, if there is one. -/
lemma gaps_concat (now : Timestamp) : ∀ times : List Timestamp,
    gaps (times ++ [now]) = gaps times ++ (times.getLast?.map now.since).toList
  | [] => rfl
  | [_] => rfl
  | earlier :: later :: rest => by
      have ih := gaps_concat now (later :: rest)
      simp only [List.cons_append] at ih ⊢
      rw [gaps, ih, gaps, List.getLast?_cons_cons, List.cons_append]

/-! ## One call -/

lemma value_update (p : Profiler) (now : Timestamp) :
    (p.update now).value = if now.isValid then p.record now else p := by
  simp only [update]
  split_ifs <;> rfl

lemma value_reset (p : Profiler) : p.reset.value = ⟨p.window.clear, none⟩ := rfl

lemma window_record (p : Profiler) (now : Timestamp) :
    (p.record now).window = (p.gap? now).toList.foldl Window.push p.window := by
  simp only [record]
  cases p.gap? now <;> rfl

lemma wellFormed_record {p : Profiler} (h : p.window.WellFormed) (now : Timestamp) :
    (p.record now).window.WellFormed ∧ (p.record now).window.capacity = p.window.capacity := by
  rw [window_record]
  cases p.gap? now with
  | none => exact ⟨h, rfl⟩
  | some d => exact ⟨h.push d, rfl⟩

lemma toList_window_record {p : Profiler} (h : p.window.WellFormed) (now : Timestamp) :
    (p.record now).window.toList
      = (p.window.toList ++ (p.gap? now).toList).rtake p.window.capacity := by
  rw [window_record]
  cases p.gap? now with
  | none =>
    have hlength : p.window.size - p.window.capacity = 0 := Nat.sub_eq_zero_of_le h.size_le
    simp [List.rtake, hlength]
  | some d => exact h.toList_push d

/-! ## Runs -/

section Run

variable (capacity : ℕ)

/-- A run keeps the ring in order and its capacity as it was made. -/
theorem wellFormed_run (calls : List Call) :
    ((ofCapacity capacity).run calls).value.window.WellFormed ∧
      ((ofCapacity capacity).run calls).value.window.capacity = max capacity 1 := by
  induction calls using List.reverseRecOn with
  | nil => exact ⟨Window.wellFormed_ofCapacity capacity, rfl⟩
  | append_singleton calls c ih =>
    obtain ⟨hwf, hcap⟩ := ih
    rw [value_run_concat]
    cases c with
    | update now =>
      simp only [call, value_update]
      split_ifs
      · obtain ⟨hwf', hcap'⟩ := wellFormed_record hwf now
        exact ⟨hwf', hcap'.trans hcap⟩
      · exact ⟨hwf, hcap⟩
    | reset => exact ⟨hwf.clear, hcap⟩

/-- The profiler remembers the last reading since the last reset. -/
theorem previous_run (calls : List Call) :
    ((ofCapacity capacity).run calls).value.previous = (readings calls).getLast? := by
  induction calls using List.reverseRecOn with
  | nil => rfl
  | append_singleton calls c ih =>
    rw [value_run_concat]
    cases c with
    | update now =>
      simp only [call, value_update, readings_concat_update]
      split_ifs
      · simp [record]
      · simp [ih]
    | reset =>
      rw [readings_concat_reset]
      rfl

/-- So of all finite times that it was given, reset or not, it remembers the last or none. -/
lemma getLast?_of_previous {calls : List Call} {t : Timestamp}
    (h : ((ofCapacity capacity).run calls).value.previous = some t) :
    (calls.filterMap Call.reading?).getLast? = some t := by
  rw [previous_run] at h
  obtain ⟨earlier, hcalls⟩ := (List.rtakeWhile_suffix (· ≠ .reset) calls).filterMap Call.reading?
  rw [← hcalls, List.getLast?_append]
  exact Option.or_eq_some_iff.mpr (Or.inl h)

/-- The window holds the last gaps between readings, as many as it has room for. -/
theorem toList_window_run (calls : List Call) :
    ((ofCapacity capacity).run calls).value.window.toList
      = (gaps (readings calls)).rtake (max capacity 1) := by
  induction calls using List.reverseRecOn with
  | nil => simp [run, ofCapacity, readings_nil, gaps]
  | append_singleton calls c ih =>
    obtain ⟨hwf, hcap⟩ := wellFormed_run capacity calls
    have hprevious := previous_run capacity calls
    rw [value_run_concat]
    cases c with
    | update now =>
      simp only [call, value_update, readings_concat_update]
      split_ifs
      · rw [toList_window_record hwf, hcap, ih, gaps_concat, Window.rtake_rtake_append, gap?,
          hprevious]
      · rw [List.append_nil, ih]
    | reset =>
      rw [readings_concat_reset]
      simp [call, value_reset, gaps]

/-- **The state of a profiler is its history.**  After any calls it remembers the last of the
finite times `f₀, …, fₘ` given since the last reset, and its window holds the last `m` of the
durations from each of them to the next, or as many as there is room for. -/
theorem run_eq_history (calls : List Call) :
    let times := readings calls
    let p := ((ofCapacity capacity).run calls).value
    p.previous = times.getLast? ∧
      p.window.toList = (gaps times).rtake (min (times.length - 1) (max capacity 1)) := by
  intro times p
  refine ⟨previous_run capacity calls, ?_⟩
  rw [← length_gaps, Window.rtake_min_length]
  exact toList_window_run capacity calls

end Run

end FramePacing.Profiler
