import FramePacing.Proofs.Session.InStep
import FramePacing.Proofs.Session.Schedule

/-!
# Refreshes are bounded by time

With an interval, a refresh is due when that much frame time has come together; what is over the
interval is dropped.  So each refresh that was due has an interval of its own in the time between
the first reading that the profiler was given and the last.  `Ledger` keeps account of that along a
run: the time between two readings is paid in once, by the frame that records it, and an interval is
paid out with each refresh that is due.  With all else that starts the counting over, something is
lost, and nothing is paid twice.

The readings of a clock that ticks in units of `2 ^ -k` are subtracted, and their differences added,
without rounding, so the account is exact.  While a listener has a summary in hand it may give times
to the profiler as well; these are readings like the others.

* `profiler_run_told` — the calls that the profiler of a session is told, before any listener.
* `Ledger.tick`, `ledger_run` — the account after a frame and after a run.
* `refreshes_bounded_by_time` — how many refreshes can be due, and how much is counted at the end.
-/

namespace FramePacing

open Log (Logged)
open Binary

/-! ## What a profiler is told -/

namespace Reaction

variable {σ : Type}

/-- A reaction that gives no time to the profiler. -/
def TellsNoTime : Reaction σ → Prop
  | answer _ _ => True
  | log _ next => next.TellsNoTime
  | call c next => c.reading? = none ∧ ∀ v, (next v).TellsNoTime

lemma TellsNoTime.readings_calls {r : Reaction σ} (h : r.TellsNoTime) (p : Profiler) :
    (r.calls p).filterMap Profiler.Call.reading? = [] := by
  induction r generalizing p with
  | answer verdict state => rfl
  | log m next ih => exact ih h p
  | call c next ih =>
    rw [calls, List.filterMap_cons_none h.1]
    exact ih _ (h.2 _) _

end Reaction

namespace Session

section Told

variable {σ : Type}

/-- The calls of the profiler that a listener makes when it is handed the summary of the window. -/
def echo (s : Session (Listener σ)) : List Profiler.Call :=
  (s.receiver.react s.profiler.summary.value s.profiler.view s.receiver.state).calls s.profiler

/-- The calls of the profiler that come of an event. -/
def told (s : Session (Listener σ)) : Event → List Profiler.Call
  | .frame now => .update now :: if s.isDue now then (s.record now).echo else []
  | .refresh => s.echo
  | .reset => [.reset]

variable (s : Session (Listener σ))

lemma profiler_reply : s.reply.profiler = (s.profiler.run s.echo).value :=
  Reaction.profiler_play
    (s.receiver.react s.profiler.summary.value s.profiler.view s.receiver.state) s.profiler

/-- **What an event does to the profiler** is what it is told. -/
lemma profiler_act_told (e : Event) :
    (s.act e).value.profiler = (s.profiler.run (s.told e)).value := by
  cases e with
  | frame now =>
    rw [value_act_frame, told]
    cases hd : s.recorded? now with
    | none =>
      rw [onFrame_of_none hd, isDue_of_none hd, if_neg Bool.false_ne_true]
      rfl
    | some d =>
      rw [profiler_onFrame hd, isDue_of_some hd]
      split_ifs
      · exact profiler_reply _
      · rfl
  | refresh =>
    show (publish _).value.2.profiler = _
    rw [snd_publish]
    exact profiler_reply { s with cadence := s.cadence.restart }
  | reset => rfl

end Told

/-! ## Runs, event by event -/

section Moments

variable {ρ : Type} [Receiver ρ]

/-- The events of a run, each with the session that it happens to. -/
def moments (s : Session ρ) (events : List Event) : List (Session ρ × Event) :=
  events.mapIdx fun i e => ((s.run (events.take i)).value, e)

lemma moments_concat (s : Session ρ) (events : List Event) (e : Event) :
    s.moments (events ++ [e]) = s.moments events ++ [((s.run events).value, e)] :=
  mapIdx_take_concat (fun past e => ((s.run past).value, e)) events e

/-- Whether an event is a frame with which a refresh is due. -/
def completes (s : Session ρ) : Event → Bool
  | .frame now => s.isDue now
  | _ => false

/-- Whether counting starts over with an event. -/
def startsOver (s : Session ρ) : Event → Bool
  | .frame now => s.isDue now
  | _ => true

/-- The duration that is recorded with an event. -/
def recordedWith? (s : Session ρ) : Event → Option Duration
  | .frame now => s.recorded? now
  | _ => none

/-- The number of frames of a run with which a refresh was due. -/
def dueCount (s : Session ρ) (events : List Event) : ℕ :=
  (s.moments events).countP fun m => m.1.completes m.2

/-- The durations recorded in a run since counting last started over, oldest first. -/
def pending (s : Session ρ) (events : List Event) : List Duration :=
  ((s.moments events).rtakeWhile fun m => !m.1.startsOver m.2).filterMap fun m =>
    m.1.recordedWith? m.2

lemma dueCount_concat (s : Session ρ) (events : List Event) (e : Event) :
    s.dueCount (events ++ [e])
      = s.dueCount events + if (s.run events).value.completes e then 1 else 0 := by
  rw [dueCount, moments_concat, List.countP_append, List.countP_singleton]
  rfl

lemma pending_concat (s : Session ρ) (events : List Event) (e : Event) :
    s.pending (events ++ [e]) = if (s.run events).value.startsOver e then []
      else s.pending events ++ ((s.run events).value.recordedWith? e).toList := by
  simp only [pending, moments_concat]
  split_ifs with h
  · rw [List.rtakeWhile_concat_neg _ _ _ (by simp [h]), List.filterMap_nil]
  · rw [List.rtakeWhile_concat_pos _ _ _ (by simp [h]), List.filterMap_append]
    congr 1

end Moments

section Told

variable {σ : Type}

/-- The calls of the profiler that come of a run. -/
def callsTold (s : Session (Listener σ)) (events : List Event) : List Profiler.Call :=
  (s.moments events).flatMap fun m => m.1.told m.2

/-- The finite times that the profiler is given in a run, by frames and by the listener. -/
def timesTold (s : Session (Listener σ)) (events : List Event) : List Timestamp :=
  (s.callsTold events).filterMap Profiler.Call.reading?

variable (s : Session (Listener σ)) (events : List Event) (e : Event)

lemma callsTold_concat :
    s.callsTold (events ++ [e]) = s.callsTold events ++ (s.run events).value.told e := by
  rw [callsTold, moments_concat, List.flatMap_append, List.flatMap_singleton]
  rfl

lemma timesTold_concat : s.timesTold (events ++ [e]) = s.timesTold events
    ++ ((s.run events).value.told e).filterMap Profiler.Call.reading? := by
  rw [timesTold, callsTold_concat, List.filterMap_append]
  rfl

/-- **The profiler of a session** is in the state that the calls it is told lead to. -/
theorem profiler_run_told :
    (s.run events).value.profiler = (s.profiler.run (s.callsTold events)).value := by
  induction events using List.reverseRecOn with
  | nil => rfl
  | append_singleton events e ih =>
    rw [value_run_concat, profiler_act_told, ih, callsTold_concat, Profiler.value_run_append]

end Told

end Session

/-! ## A clock that ticks -/

/-- Readings of a clock that ticks in units of `2 ^ -k`: whole numbers of the unit, not too many of
it, and none of them before an earlier one. -/
structure Ticking (k : ℕ) (times : List Timestamp) : Prop where
  unit_le : k ≤ 1000
  multiple : ∀ t ∈ times, ∃ n : ℤ, |n| ≤ 2 ^ 52 ∧ value t.millis = n * 2 ^ (-k : ℤ)
  sorted : times.Pairwise fun earlier later => value earlier.millis ≤ value later.millis

/-- The time from the first reading to the last. -/
def span (times : List Timestamp) : ℚ :=
  times.getLast?.elim 0 (value ·.millis) - times.head?.elim 0 (value ·.millis)

section Ticking

variable {k : ℕ} {times more : List Timestamp} {t now : Timestamp}

lemma Ticking.of_append (h : Ticking k (times ++ more)) : Ticking k times where
  unit_le := h.unit_le
  multiple t ht := h.multiple t (List.mem_append_left more ht)
  sorted := (List.pairwise_append.mp h.sorted).1

/-- A reading adds the time since the one before. -/
lemma span_concat (hlast : times.getLast? = some t) :
    span (times ++ [now]) = span times + (value now.millis - value t.millis) := by
  obtain ⟨first, rest, rfl⟩ := List.exists_cons_of_ne_nil (l := times) (by rintro rfl; cases hlast)
  simp only [span, List.getLast?_concat, hlast]
  simp only [List.cons_append, List.head?_cons, Option.elim_some]
  ring

lemma Ticking.le_of_getLast? (h : Ticking k (times ++ [now])) (hlast : times.getLast? = some t) :
    value t.millis ≤ value now.millis :=
  (List.pairwise_append.mp h.sorted).2.2 t (List.mem_of_getLast? hlast) now (by simp)

/-- With more readings the time gets no shorter. -/
lemma Ticking.span_le_append (h : Ticking k (times ++ more)) :
    span times ≤ span (times ++ more) := by
  induction more using List.reverseRecOn with
  | nil => rw [List.append_nil]
  | append_singleton more now ih =>
    rw [← List.append_assoc] at h ⊢
    refine (ih h.of_append).trans ?_
    cases hlast : (times ++ more).getLast? with
    | none =>
      rw [List.getLast?_eq_none_iff.mp hlast]
      simp [span]
    | some t =>
      rw [span_concat hlast]
      linarith [h.le_of_getLast? hlast]

/-- No reading is further from another than `2 ^ 53` units. -/
lemma Ticking.span_le (h : Ticking k times) : span times ≤ 2 ^ 53 * 2 ^ (-k : ℤ) := by
  have hunit := zpow_two_pos (-k : ℤ)
  have hreading : ∀ t ∈ times, |value t.millis| ≤ 2 ^ 52 * 2 ^ (-k : ℤ) := by
    intro t ht
    obtain ⟨n, hn, hvalue⟩ := h.multiple t ht
    have hnQ : |(n : ℚ)| ≤ 2 ^ 52 := by exact_mod_cast hn
    rw [hvalue, abs_mul, abs_of_pos hunit]
    exact mul_le_mul_of_nonneg_right hnQ hunit.le
  cases times with
  | nil =>
    simp only [span, List.getLast?_nil, List.head?_nil, Option.elim_none, sub_zero]
    positivity
  | cons first rest =>
    have hfirst := abs_le.mp (hreading first List.mem_cons_self)
    have hlast := abs_le.mp (hreading _ (List.getLast_mem (List.cons_ne_nil first rest)))
    simp only [span, List.getLast?_eq_some_getLast (List.cons_ne_nil first rest), List.head?_cons,
      Option.elim_some]
    linarith [hfirst.1, hlast.2]

/-- **The time between two readings is exact**, and whole. -/
lemma Ticking.value_since (h : Ticking k (times ++ [now])) (hlast : times.getLast? = some t)
    (ht : t.isValid = true) (hnow : now.isValid = true) :
    value (now.since t).millis = value now.millis - value t.millis
      ∧ ∃ m : ℕ, value (now.since t).millis = m * 2 ^ (-k : ℤ) := by
  have hle := h.le_of_getLast? hlast
  have hunit := h.unit_le
  obtain ⟨n, hn, hvalue⟩ := h.multiple now (by simp)
  obtain ⟨m, hm, hvalue'⟩ := h.multiple t (List.mem_append_left _ (List.mem_of_getLast? hlast))
  have hround := roundsTo_sub hnow ht
  have hdiff : value now.millis - value t.millis = (n - m : ℤ) * 2 ^ (-k : ℤ) := by
    rw [hvalue, hvalue']
    push_cast
    ring
  have hwhole : 0 ≤ n - m := by
    have hnonneg := sub_nonneg.mpr hle
    rw [hdiff] at hnonneg
    exact_mod_cast nonneg_of_mul_nonneg_left hnonneg (zpow_two_pos _)
  rw [hdiff] at hround
  have hbound : |n - m| ≤ 2 ^ 53 := by
    rw [abs_le] at hn hm ⊢
    omega
  obtain ⟨hfinite, hexact⟩ := hround.of_dyadic hbound (by omega) (by omega)
  have hsince : value (now.since t).millis = (n - m : ℤ) * 2 ^ (-k : ℤ) := by
    rw [Timestamp.since, Duration.value_ofMillis hfinite, hexact]
    rw [hexact, ← hdiff]
    exact sub_nonneg.mpr hle
  obtain ⟨ticks, hticks⟩ := Int.eq_ofNat_of_zero_le hwhole
  refine ⟨hsince.trans hdiff.symm, ticks, ?_⟩
  rw [hsince, hticks, Int.cast_natCast]

end Ticking

/-! ## The account -/

/-- What is counted after `due` refreshes that were due, with the durations `ds` recorded since
counting last started over, when `times` were read: the intervals that were paid out, and what is
counted now, fit into the time from the first reading to the last. -/
structure Counted (interval : Float) (k due : ℕ) (ds : List Duration) (times : List Timestamp)
    (c : Cadence) : Prop where
  isFinite : c.elapsed.isFinite = true
  exact : value c.elapsed = (ds.map (value ·.millis)).sum
  multiple : ∃ m : ℕ, value c.elapsed = m * 2 ^ (-k : ℤ)
  paid : due * value interval + value c.elapsed ≤ span times

/-- Where a cadence stands between two events: then less is counted than an interval. -/
structure Ledger (interval : Float) (k due : ℕ) (ds : List Duration) (times : List Timestamp)
    (c : Cadence) : Prop extends Counted interval k due ds times c where
  rule : c.rule = .elapsed interval
  below : c.elapsed < interval
  unpaid : interval.isFinite = false → due = 0

section Ledger

variable {interval : Float} {k due : ℕ} {ds : List Duration} {times more : List Timestamp}
  {c : Cadence} {t now : Timestamp}

/-- When nothing is counted, only what was paid out has to fit. -/
lemma ledger_of_zero (hpos : 0 < interval) (hrule : c.rule = .elapsed interval)
    (helapsed : c.elapsed = 0) (hpaid : due * value interval ≤ span times)
    (hunpaid : interval.isFinite = false → due = 0) : Ledger interval k due [] times c := by
  have hvalue : value c.elapsed = 0 := by rw [helapsed, Duration.value_zero]
  refine ⟨⟨?_, ?_, ⟨0, ?_⟩, ?_⟩, hrule, ?_, hunpaid⟩
  · rw [helapsed]
    exact Duration.isFinite_zero
  · rw [hvalue, List.map_nil, List.sum_nil]
  · rw [hvalue, Nat.cast_zero, zero_mul]
  · rwa [hvalue, add_zero]
  · rwa [helapsed]

lemma Ledger.elapsed_nonneg (h : Ledger interval k due ds times c) : 0 ≤ value c.elapsed := by
  obtain ⟨m, hm⟩ := h.multiple
  rw [hm]
  exact mul_nonneg (Nat.cast_nonneg m) (zpow_two_pos _).le

lemma Ledger.due_nonneg (hpos : 0 < interval) (h : Ledger interval k due ds times c) :
    0 ≤ due * value interval := by
  cases hfinite : interval.isFinite with
  | false => rw [h.unpaid hfinite, Nat.cast_zero, zero_mul]
  | true =>
    have hvalue := (lt_iff_value_lt Duration.isFinite_zero hfinite).mp hpos
    rw [Duration.value_zero] at hvalue
    positivity

/-- More readings do no harm. -/
lemma Ledger.later (h : Ledger interval k due ds times c) (hticks : Ticking k (times ++ more)) :
    Ledger interval k due ds (times ++ more) c :=
  { h with paid := h.paid.trans hticks.span_le_append }

/-- When counting starts over, what was counted is lost. -/
lemma Ledger.restart (hpos : 0 < interval) (h : Ledger interval k due ds times c) :
    Ledger interval k due [] times c.restart :=
  ledger_of_zero hpos h.rule rfl (by linarith [h.paid, h.elapsed_nonneg]) h.unpaid

/-- **The time since the reading before is counted**, without rounding. -/
lemma Ledger.count (hpos : 0 < interval) (h : Ledger interval k due ds times c)
    (hticks : Ticking k (times ++ [now])) (hlast : times.getLast? = some t)
    (ht : t.isValid = true) (hnow : now.isValid = true) :
    Counted interval k due (ds ++ [now.since t]) (times ++ [now]) (c.count (now.since t)) := by
  obtain ⟨hsince, n, hn⟩ := hticks.value_since hlast ht hnow
  obtain ⟨m, hm⟩ := h.multiple
  have hunit := hticks.unit_le
  have hspan : span (times ++ [now]) = span times + (value now.millis - value t.millis) :=
    span_concat hlast
  have hpaid := h.paid
  have hsum : value c.elapsed + value (now.since t).millis = (m + n : ℕ) * 2 ^ (-k : ℤ) := by
    rw [hm, hn]
    push_cast
    ring
  have hbound : ((m + n : ℕ) : ℚ) ≤ 2 ^ 53 := by
    refine le_of_mul_le_mul_right ?_ (zpow_two_pos (-k : ℤ))
    rw [← hsum]
    linarith [hticks.span_le, h.due_nonneg hpos]
  have hround := roundsTo_add h.isFinite (Duration.isProper_since now t).isFinite
  rw [hsum] at hround
  obtain ⟨hfinite, hexact⟩ := hround.of_dyadic (n := (m + n : ℕ))
    (by rw [Int.abs_natCast]; exact_mod_cast hbound) (by omega) (by omega)
  have helapsed : value (c.count (now.since t)).elapsed
      = value c.elapsed + value (now.since t).millis := by
    rw [hsum]
    exact hexact
  refine ⟨hfinite, ?_, ⟨m + n, helapsed.trans hsum⟩, ?_⟩
  · rw [helapsed, h.exact, List.map_append, List.sum_append]
    simp
  · rw [helapsed, hspan]
    linarith

/-- **A frame is paid in, and out if a refresh is due.** -/
theorem Ledger.tick (hpos : 0 < interval) (h : Ledger interval k due ds times c)
    (hticks : Ticking k (times ++ [now])) (hlast : times.getLast? = some t)
    (ht : t.isValid = true) (hnow : now.isValid = true) :
    Ledger interval k (due + if (c.tick (now.since t)).1 then 1 else 0)
      (if (c.tick (now.since t)).1 then [] else ds ++ [now.since t])
      (times ++ [now]) (c.tick (now.since t)).2 := by
  have hcounted := h.count hpos hticks hlast ht hnow
  have hrule : (c.count (now.since t)).rule = .elapsed interval := h.rule
  have hdue : (c.count (now.since t)).isDue = true
      ↔ interval ≤ (c.count (now.since t)).elapsed := by
    rw [Cadence.isDue, hrule]
    exact decide_eq_true_iff
  by_cases hle : interval ≤ (c.count (now.since t)).elapsed
  · have hfinite := isFinite_of_le hpos hle hcounted.isFinite
    have hvalue := (le_iff_value_le hfinite hcounted.isFinite).mp hle
    have hpaid := hcounted.paid
    have htick : c.tick (now.since t) = (true, (c.count (now.since t)).restart) := by
      simp only [Cadence.tick, hdue.mpr hle, if_true]
    rw [htick]
    refine ledger_of_zero hpos h.rule rfl ?_ fun hinfinite => ?_
    · show ((due + 1 : ℕ) : ℚ) * value interval ≤ _
      push_cast
      linarith
    · rw [hfinite] at hinfinite
      cases hinfinite
  · have htick : c.tick (now.since t) = (false, c.count (now.since t)) := by
      simp only [Cadence.tick, hdue.not.mpr hle, Bool.false_eq_true, if_false]
    rw [htick]
    have hbelow := not_le_iff_lt (isNaN_of_lt hpos) (Duration.isNaN_of_isFinite hcounted.isFinite)
    exact ⟨hcounted, h.rule, hbelow.mp hle, h.unpaid⟩

end Ledger

/-! ## Runs -/

namespace Session

section Act

variable {σ : Type} {interval : Float} {k due : ℕ} {ds : List Duration} {times : List Timestamp}
  {s : Session (Listener σ)}

/-- **Every event keeps the account.** -/
theorem ledger_act (hpos : 0 < interval) (h : Ledger interval k due ds times s.cadence)
    (hprevious : ∀ t, s.profiler.previous = some t →
      times.getLast? = some t ∧ t.isValid = true) (e : Event)
    (hticks : Ticking k (times ++ (s.told e).filterMap Profiler.Call.reading?)) :
    Ledger interval k (due + if s.completes e then 1 else 0)
      (if s.startsOver e then [] else ds ++ (s.recordedWith? e).toList)
      (times ++ (s.told e).filterMap Profiler.Call.reading?) (s.act e).value.cadence := by
  cases e with
  | frame now =>
    rw [value_act_frame]
    cases hd : s.recorded? now with
    | none =>
      have hcompletes : s.completes (.frame now) = false := isDue_of_none hd
      have hstarts : s.startsOver (.frame now) = false := isDue_of_none hd
      have hrecorded : s.recordedWith? (.frame now) = none := hd
      rw [hcompletes, hstarts, hrecorded, onFrame_of_none hd]
      simpa [record] using h.later hticks
    | some d =>
      obtain ⟨hnow, t, ht, rfl⟩ := eq_since_of_recorded? hd
      obtain ⟨hlast, hvalid⟩ := hprevious t ht
      have hcompletes : s.completes (.frame now) = (s.cadence.tick (now.since t)).1 :=
        isDue_of_some hd
      have hstarts : s.startsOver (.frame now) = (s.cadence.tick (now.since t)).1 :=
        isDue_of_some hd
      have hrecorded : s.recordedWith? (.frame now) = some (now.since t) := hd
      have hreading : Profiler.Call.reading? (.update now) = some now := if_pos hnow
      rw [told, List.filterMap_cons_some hreading, ← List.singleton_append, ← List.append_assoc]
        at hticks ⊢
      rw [hcompletes, hstarts, hrecorded, cadence_onFrame hd]
      exact (h.tick hpos hticks.of_append hlast hvalid hnow).later hticks
  | refresh =>
    have hcadence : (s.act .refresh).value.cadence = s.cadence.restart := cadence_publish _
    rw [hcadence]
    exact (h.restart hpos).later hticks
  | reset => exact (h.restart hpos).later hticks

end Act

section Run

variable {σ : Type} (capacity : ℕ) (interval : Float) (l : Listener σ)

/-- A new session with an interval, before a listener. -/
def heard : Session (Listener σ) := (start (.ofCapacity capacity) (.ofInterval interval) l).value

variable {interval}

/-- **After every run the account is right.** -/
theorem ledger_run (hpos : 0 < interval) {k : ℕ} {events : List Event}
    (hticks : Ticking k ((heard capacity interval l).timesTold events)) :
    let s := heard capacity interval l
    Ledger interval k (s.dueCount events) (s.pending events) (s.timesTold events)
      (s.run events).value.cadence := by
  intro s
  induction events using List.reverseRecOn with
  | nil =>
    have hrule : s.cadence.rule = .elapsed (if 0 < interval then interval else 0) := rfl
    rw [if_pos hpos] at hrule
    exact ledger_of_zero hpos hrule rfl (by simp [dueCount, moments, span]; rfl) fun _ => rfl
  | append_singleton events e ih =>
    rw [timesTold_concat] at hticks
    rw [timesTold_concat, dueCount_concat, pending_concat, value_run_concat]
    refine ledger_act hpos (ih hticks.of_append) (fun t ht => ?_) e hticks
    rw [profiler_run_told] at ht
    have hlast := Profiler.getLast?_of_previous capacity ht
    obtain ⟨c, -, hc⟩ := List.mem_filterMap.mp (List.mem_of_getLast? hlast)
    exact ⟨hlast, Profiler.isValid_of_reading? hc⟩

lemma react_run (s : Session (Listener σ)) (events : List Event) :
    (s.run events).value.receiver.react = s.receiver.react := by
  have hreceive (summary : Summary) (p : Profiler) (r : Listener σ) :
      (Receiver.receive summary p r).value.receiver.react = r.react := rfl
  induction events using List.reverseRecOn with
  | nil => rfl
  | append_singleton events e ih =>
    rw [value_run_concat, ← ih]
    cases e with
    | frame now => exact kept_onFrame hreceive _ now
    | refresh => exact kept_refresh hreceive _
    | reset => rfl

/-- A listener that gives no time to the profiler leaves that to the frames. -/
lemma timesTold_of_tellsNoTime {s : Session (Listener σ)}
    (h : ∀ summary v state, (s.receiver.react summary v state).TellsNoTime) (events : List Event) :
    s.timesTold events
      = (events.filterMap Event.call?).filterMap Profiler.Call.reading? := by
  have hecho (s' : Session (Listener σ)) (hreact : s'.receiver.react = s.receiver.react) :
      s'.echo.filterMap Profiler.Call.reading? = [] := by
    rw [echo, hreact]
    exact (h _ _ _).readings_calls _
  induction events using List.reverseRecOn with
  | nil => rfl
  | append_singleton events e ih =>
    have hreact := react_run s events
    rw [timesTold_concat, ih, List.filterMap_append, List.filterMap_append]
    congr 1
    cases e with
    | frame now =>
      have hrest : (if (s.run events).value.isDue now
          then ((s.run events).value.record now).echo else []).filterMap
            Profiler.Call.reading? = [] := by
        split_ifs
        · exact hecho _ hreact
        · rfl
      have htold : (s.run events).value.told (.frame now) = [Profiler.Call.update now]
          ++ if (s.run events).value.isDue now then ((s.run events).value.record now).echo
            else [] := rfl
      rw [htold, List.filterMap_append, hrest, List.append_nil]
      rfl
    | refresh => exact hecho _ hreact
    | reset => rfl

/-- **Refreshes are bounded by time.**  Take a session with a positive interval before any listener,
and any events, with which the profiler is given the times of a clock that ticks; these are the
finite times of the frames, unless the listener gives times of its own.  The intervals of all the
refreshes that were due fit into the time from the first of these times to the last, and with an
infinite interval there are none.  The durations that were recorded since counting last started over
are counted without rounding, and are less than the interval. -/
theorem refreshes_bounded_by_time (hpos : 0 < interval) (k : ℕ) (events : List Event)
    (hticks : Ticking k ((heard capacity interval l).timesTold events)) :
    let s := heard capacity interval l
    let counted := (s.run events).value.cadence.elapsed
    (interval.isFinite = true →
        s.dueCount events * value interval ≤ span (s.timesTold events)
        ∧ ((s.pending events).map (value ·.millis)).sum < value interval)
      ∧ (interval.isFinite = false → s.dueCount events = 0)
      ∧ counted < interval
      ∧ counted.isFinite = true
      ∧ value counted = ((s.pending events).map (value ·.millis)).sum
      ∧ ((∀ summary v state, (l.react summary v state).TellsNoTime) →
        s.timesTold events
          = (events.filterMap Event.call?).filterMap Profiler.Call.reading?) := by
  intro s counted
  have hledger := ledger_run capacity l hpos hticks
  refine ⟨fun hfinite => ⟨?_, ?_⟩, hledger.unpaid, hledger.below, hledger.isFinite, hledger.exact,
    fun hsilent => timesTold_of_tellsNoTime hsilent events⟩
  · linarith [hledger.paid, hledger.elapsed_nonneg]
  · rw [← hledger.exact]
    exact (lt_iff_value_lt hledger.isFinite hfinite).mp hledger.below

end Run

/-- Five frames before a listener that refuses everything, with a time that is not finite and a
forced refresh in between. -/
theorem refreshes_bounded_by_time_in_five_frames :
    let l : Listener Unit :=
      { react := fun _ _ _ => .answer (.error (.error ⟨.display, "element missing"⟩)) ()
        state := () }
    let s := heard 4 32 l
    let events : List Event := [.frame ⟨0⟩, .frame ⟨0 / 0⟩, .frame ⟨16⟩, .refresh, .frame ⟨32⟩,
      .frame ⟨48⟩, .frame ⟨64⟩]
    s.dueCount events = 1 ∧ s.pending events = [⟨16⟩] ∧ span (s.timesTold events) = 64
      ∧ s.dueCount events * value 32 ≤ span (s.timesTold events)
      ∧ ((s.pending events).map (value ·.millis)).sum < value 32 := by
  intro l s events
  have hpos : (0 : Float) < 32 := by decide +kernel
  have htimes : s.timesTold events = [⟨0⟩, ⟨16⟩, ⟨32⟩, ⟨48⟩, ⟨64⟩] := by decide +kernel
  have hwhole : ∀ t ∈ s.timesTold events, |(value t.millis).num| ≤ 2 ^ 52
      ∧ value t.millis = (value t.millis).num * 2 ^ (-(0 : ℕ) : ℤ) := by
    rw [htimes]
    decide +kernel
  have hticks : Ticking 0 (s.timesTold events) := by
    refine ⟨by decide, fun t ht => ⟨_, hwhole t ht⟩, ?_⟩
    rw [htimes]
    decide +kernel
  have hspan : span [⟨0⟩, ⟨16⟩, ⟨32⟩, ⟨48⟩, ⟨64⟩] = 64 := by decide +kernel
  obtain ⟨hfits, -⟩ := refreshes_bounded_by_time 4 l hpos 0 events hticks
  exact ⟨by decide +kernel, by decide +kernel, htimes ▸ hspan, hfits (by decide +kernel)⟩

end Session

end FramePacing
