import FramePacing.Proofs.Display.Texts
import FramePacing.Proofs.Profiler.History
import FramePacing.Proofs.Statistics.Averages
import FramePacing.Proofs.Statistics.Sums

/-!
# When a summary says that there is no data

A frame time of zero is not shown as a rate: it stands for a window without frames.  But zero is
also what is made of a mean that is infinite, and of one that is too small for a float.  `HasMean`
says of frames that neither happens to them.

* `mean_pos_iff` — the mean of frames that take time is positive exactly if they have one.
* `HasMean.left` — with a mean of all frames there is one of the slowest.
* `hasMean_iff_isFinite` — up to `2 ^ 53` frames nothing is needed but that their sum is finite.
* `summary_tells_of_frames` — what the summary of a window says about frames that take time.
* `positive_frames_without_average` — two such frames that have no average.
-/

namespace FramePacing

open Binary

/-! ## Means of frames that take time -/

namespace Statistics

/-- A mean can be told: the sum is finite, and the share of each frame is more than half of the
least float.  The number of frames is a float too, so it is rounded. -/
structure HasMean (xs : List Float) : Prop where
  isFinite : (sum xs).isFinite = true
  share : nearest xs.length * (least / 2) < value (sum xs)

section Mean

variable {xs ys : List Float}

lemma one_le_length_cast (hne : xs ≠ []) : (1 : ℚ) ≤ xs.length := by
  exact_mod_cast List.length_pos_iff.mpr hne

/-- Frames of which each has added a unit have a mean. -/
lemma share_of_grown (hne : xs ≠ []) (hgrown : xs.length * least ≤ value (sum xs)) :
    nearest xs.length * (least / 2) < value (sum xs) := by
  have hhalf : 0 < least / 2 := half_pos least_pos
  calc nearest xs.length * (least / 2) < 2 * xs.length * (least / 2) :=
        mul_lt_mul_of_pos_right (nearest_lt_two_mul (one_le_length_cast hne)) hhalf
    _ = xs.length * least := by ring
    _ ≤ value (sum xs) := hgrown

/-- With a mean of all frames there is one of the slowest. -/
lemma HasMean.left (h : HasMean (xs ++ ys)) (htime : TakeTime (xs ++ ys))
    (hdesc : ((xs ++ ys).map value).Pairwise (fun a b => b ≤ a)) (hne : xs ≠ []) : HasMean xs := by
  refine ⟨isFinite_sum_of_append htime h.isFinite, ?_⟩
  rcases grows_or_stalls htime hdesc h.isFinite with hgrown | hstalled
  · exact share_of_grown hne hgrown
  · rw [← hstalled]
    refine lt_of_le_of_lt ?_ h.share
    refine mul_le_mul_of_nonneg_right (nearest_mono ?_) (half_pos least_pos).le
    rw [List.length_append, Nat.cast_add]
    exact le_add_of_nonneg_right (Nat.cast_nonneg _)

lemma hasMean_iff_isFinite (htime : TakeTime xs) (hne : xs ≠ []) (hlength : xs.length ≤ 2 ^ 53) :
    HasMean xs ↔ (sum xs).isFinite = true := by
  refine ⟨HasMean.isFinite, fun hfinite => ⟨hfinite, share_of_grown hne ?_⟩⟩
  have hgrown := min_le_value_sum htime hfinite
  rwa [min_eq_left hlength] at hgrown

lemma one_le_nearest_length (hne : xs ≠ []) : 1 ≤ nearest xs.length := by
  have hone := nearest_dyadic 1 (k := 0) (by norm_num) (by norm_num)
  rw [zpow_zero, mul_one, Int.cast_one] at hone
  have hmono := nearest_mono (one_le_length_cast hne)
  rwa [hone] at hmono

lemma value_sum_nonneg (htime : TakeTime xs) (hfinite : (sum xs).isFinite = true) :
    0 ≤ value (sum xs) :=
  (mul_nonneg (Nat.cast_nonneg _) least_pos.le).trans (min_le_value_sum htime hfinite)

/-- A mean of a finite sum is finite, and rounded once more. -/
lemma value_mean_of_isFinite (htime : TakeTime xs) (hne : xs ≠ []) (hlength : xs.length ≤ 2 ^ 64)
    (hfinite : (sum xs).isFinite = true) :
    (mean xs).isFinite = true ∧ value (mean xs) = nearest (value (sum xs) / nearest xs.length) := by
  obtain ⟨hcount, hvalue⟩ := (roundsTo_nearestFloat xs.length).of_abs_le (abs_cast_le hlength)
  have hone := one_le_nearest_length hne
  have hnonneg := value_sum_nonneg htime hfinite
  have hround := roundsTo_div hfinite hcount (by rw [hvalue]; linarith)
  rw [hvalue, ← mean_eq hne] at hround
  refine hround.finite ?_
  rw [abs_of_nonneg (nearest_nonneg (div_nonneg hnonneg (by linarith)))]
  calc nearest (value (sum xs) / nearest xs.length) ≤ nearest (value (sum xs)) :=
        nearest_mono (div_le_self hnonneg hone)
    _ = value (sum xs) := nearest_value hfinite
    _ ≤ |value (sum xs)| := le_abs_self _
    _ < 2 ^ 1024 := abs_value_lt hfinite

/-- **The mean is positive** exactly if it can be told. -/
theorem mean_pos_iff (htime : TakeTime xs) (hne : xs ≠ []) (hlength : xs.length ≤ 2 ^ 64) :
    0 < (Duration.ofMillis (mean xs)).millis ↔ HasMean xs := by
  rw [(Duration.isProper_ofMillis _).pos_iff]
  by_cases hfinite : (sum xs).isFinite = true
  · obtain ⟨hmean, hvalue⟩ := value_mean_of_isFinite htime hne hlength hfinite
    have hone : 0 < nearest xs.length := by linarith [one_le_nearest_length hne]
    have hnonneg : 0 ≤ value (mean xs) := by
      rw [hvalue]
      exact nearest_nonneg (div_nonneg (value_sum_nonneg htime hfinite) hone.le)
    rw [Duration.value_ofMillis hmean hnonneg, hvalue, nearest_pos_iff, lt_div_iff₀ hone, mul_comm]
    exact ⟨fun hshare => ⟨hfinite, hshare⟩, HasMean.share⟩
  · have hinfinite := (isAmount_sum htime).infinite hfinite
    obtain ⟨hcount, -⟩ := (roundsTo_nearestFloat xs.length).of_abs_le (abs_cast_le hlength)
    have hmean : (mean xs).isFinite = false := by
      rw [mean_eq hne]
      exact Duration.isFinite_div_of_infinite hinfinite hcount
    have hzero : Duration.ofMillis (mean xs) = .zero := by simp [Duration.ofMillis, hmean]
    rw [hzero]
    exact ⟨fun hpos => absurd hpos (lt_irrefl 0), fun h => absurd h.isFinite hfinite⟩

end Mean

end Statistics

/-! ## Summaries -/

/-- A summary that tells of frames, in whichever way it is asked. -/
structure Summary.TellsOfFrames (s : Summary) : Prop where
  positive : 0 < s.average ∧ 0 < s.onePercentLow ∧ 0 < s.tenthPercentLow
  isEmpty : s.isEmpty = false
  rates : s.averageRate?.isSome = true ∧ s.onePercentRate?.isSome = true
    ∧ s.tenthPercentRate?.isSome = true
  texts : ∀ millis ∈ [s.average, s.onePercentLow, s.tenthPercentLow], ∀ decimals,
    Display.rateText millis decimals ≠ .ok (Display.noData ++ Display.unit)

/-- A summary whose average says that there is no data. -/
structure Summary.WithoutAverage (s : Summary) : Prop where
  average : s.average = 0
  rate : s.averageRate? = none
  text : ∀ decimals, Display.rateText s.average decimals = .ok (Display.noData ++ Display.unit)

lemma isSome_rate? {d : Duration} (hd : d.IsProper) (hpos : 0 < d.millis) :
    (Duration.ofMillis d.millis).rate?.isSome = true := by
  rw [hd.rate?_eq hpos]
  rfl

/-- A summary of durations tells of frames if none of these is zero. -/
lemma tellsOfFrames_ofDurations {a b c : Duration} (ha : a.IsProper) (hb : b.IsProper)
    (hc : c.IsProper) (hpos : 0 < a.millis) (hpos' : 0 < b.millis) (hpos'' : 0 < c.millis) :
    (Summary.ofDurations a b c).TellsOfFrames where
  positive := ⟨hpos, hpos', hpos''⟩
  isEmpty := by
    have hzero : (a.millis == 0) = false := beq_eq_false_of_lt (by decide) hpos
    simp [Summary.isEmpty, Summary.ofDurations, hzero]
  rates := ⟨isSome_rate? ha hpos, isSome_rate? hb hpos', isSome_rate? hc hpos''⟩
  texts := by
    simp only [Summary.ofDurations, List.forall_mem_cons]
    exact ⟨Display.rateText_ne_noData ha hpos, Display.rateText_ne_noData hb hpos',
      Display.rateText_ne_noData hc hpos'', List.forall_mem_nil _⟩

namespace Statistics

section Window

variable {xs : List Float} {ds : List Duration}

/-- The frames that a tail takes. -/
def slowest (tail : Tail) (xs : List Float) : List Float := xs.take (tail.size xs.length)

lemma slowest_append_drop (tail : Tail) (xs : List Float) :
    slowest tail xs ++ xs.drop (tail.size xs.length) = xs := List.take_append_drop _ _

lemma TakeTime.slowest (htime : TakeTime xs) (tail : Tail) : TakeTime (slowest tail xs) :=
  TakeTime.left ((slowest_append_drop tail xs).symm ▸ htime)

/-- A low statistic is positive exactly if the mean of its frames can be told. -/
lemma lowAverage_pos_iff (htime : TakeTime xs) (hne : xs ≠ []) (hlength : xs.length ≤ 2 ^ 64)
    (tail : Tail) :
    0 < (Duration.ofMillis (lowAverage xs tail)).millis ↔ HasMean (slowest tail xs) := by
  rw [lowAverage_eq_mean hne]
  exact mean_pos_iff (htime.slowest tail) (take_size_ne_nil hne tail)
    ((List.length_take_le' _ _).trans hlength)

lemma HasMean.slowest (h : HasMean xs) (htime : TakeTime xs)
    (hdesc : (xs.map value).Pairwise (fun a b => b ≤ a)) (hne : xs ≠ []) (tail : Tail) :
    HasMean (slowest tail xs) := by
  have hsplit := slowest_append_drop tail xs
  exact HasMean.left (hsplit.symm ▸ h) (hsplit.symm ▸ htime) (hsplit.symm ▸ hdesc)
    (take_size_ne_nil hne tail)

lemma takeTime_sortDescending (hproper : ∀ d ∈ ds, d.IsProper) (hpos : ∀ d ∈ ds, 0 < d.millis) :
    TakeTime (sortDescending (ds.map (·.millis))) := by
  intro x hx
  obtain ⟨d, hd, rfl⟩ := exists_of_mem_sortDescending hx
  exact ⟨hproper d hd, (hproper d hd).pos_iff.mp (hpos d hd)⟩

variable (hne : ds ≠ []) (hproper : ∀ d ∈ ds, d.IsProper) (hpos : ∀ d ∈ ds, 0 < d.millis)
  (hlength : ds.length ≤ 2 ^ 64)
include hne hproper hpos hlength

/-- Each part of the summary is positive exactly if the mean of its frames can be told. -/
lemma summarize_pos_iff :
    let frames := sortDescending (ds.map (·.millis))
    (0 < (summarize ds).value.average ↔ HasMean frames)
      ∧ (0 < (summarize ds).value.onePercentLow ↔ HasMean (slowest .onePercent frames))
      ∧ (0 < (summarize ds).value.tenthPercentLow ↔ HasMean (slowest .tenthPercent frames)) := by
  intro frames
  have htime := takeTime_sortDescending hproper hpos
  have hxs := sortDescending_millis_ne_nil hne
  rw [← length_sortDescending_millis] at hlength
  rw [value_summarize hne]
  exact ⟨mean_pos_iff htime hxs hlength, lowAverage_pos_iff htime hxs hlength _,
    lowAverage_pos_iff htime hxs hlength _⟩

/-- With a mean of all frames, all of the summary tells of them, … -/
lemma tellsOfFrames_of_hasMean (h : HasMean (sortDescending (ds.map (·.millis)))) :
    (summarize ds).value.TellsOfFrames := by
  have htime := takeTime_sortDescending hproper hpos
  have hxs := sortDescending_millis_ne_nil hne
  have hdesc := pairwise_value_sortDescending hproper
  have hmade := Duration.isProper_ofMillis
  obtain ⟨haverage, honePercent, htenthPercent⟩ := summarize_pos_iff hne hproper hpos hlength
  have hlow := h.slowest htime hdesc hxs
  rw [value_summarize hne] at haverage honePercent htenthPercent ⊢
  exact tellsOfFrames_ofDurations (hmade _) (hmade _) (hmade _) (haverage.mpr h)
    (honePercent.mpr (hlow .onePercent)) (htenthPercent.mpr (hlow .tenthPercent))

/-- … and without one, its average says that there is no data. -/
lemma withoutAverage_of_not_hasMean (h : ¬HasMean (sortDescending (ds.map (·.millis)))) :
    (summarize ds).value.WithoutAverage := by
  have hnot : ¬0 < (summarize ds).value.average :=
    (summarize_pos_iff hne hproper hpos hlength).1.not.mpr h
  have haverage : (summarize ds).value.average = 0 := by
    rw [value_summarize hne] at hnot ⊢
    rcases Duration.ofMillis_cases (mean (sortDescending (ds.map (·.millis)))) with
      ⟨-, hmean, heq⟩ | heq
    · exact absurd (by rwa [Summary.ofDurations, heq]) hnot
    · exact congrArg Duration.millis heq
  refine ⟨haverage, ?_, fun decimals => ?_⟩
  · rw [Summary.averageRate?, haverage]
    decide
  · rw [haverage]
    rfl

end Window

end Statistics

namespace Profiler

open Statistics

lemma isProper_of_mem_gaps {d : Duration} : ∀ {times : List Timestamp}, d ∈ gaps times → d.IsProper
  | earlier :: later :: rest, h => by
    rw [gaps, List.mem_cons] at h
    rcases h with rfl | h
    · exact Duration.isProper_ofMillis _
    · exact isProper_of_mem_gaps h

/-- **When a summary tells of the frames in the window.**  Take any state that a profiler comes to,
whose window holds frames that all took some time.  If they have a mean, every part of the summary
is positive, has a rate and is shown as one; if not, the average says that there is no data, and so
does each low whose frames have none.  For up to `2 ^ 53` frames having a mean is nothing but that
their sum is finite. -/
theorem summary_tells_of_frames (capacity : UInt64) (calls : List Call)
    (hsome : ((ofCapacity capacity.toNat).run calls).value.window.toList ≠ [])
    (hpos : ∀ d ∈ ((ofCapacity capacity.toNat).run calls).value.window.toList, 0 < d.millis) :
    let p := ((ofCapacity capacity.toNat).run calls).value
    let frames := sortDescending (p.window.toList.map (·.millis))
    (HasMean frames → p.summary.value.TellsOfFrames)
      ∧ (¬HasMean frames → p.summary.value.WithoutAverage)
      ∧ (0 < p.summary.value.onePercentLow ↔ HasMean (slowest .onePercent frames))
      ∧ (0 < p.summary.value.tenthPercentLow ↔ HasMean (slowest .tenthPercent frames))
      ∧ ∀ xs ∈ [frames, slowest .onePercent frames, slowest .tenthPercent frames],
        xs.length ≤ 2 ^ 53 → (HasMean xs ↔ (sum xs).isFinite = true) := by
  intro p frames
  have hproper : ∀ d ∈ p.window.toList, d.IsProper := by
    intro d hd
    rw [toList_window_run, List.rtake] at hd
    exact isProper_of_mem_gaps (List.mem_of_mem_drop hd)
  have hlength : p.window.toList.length ≤ 2 ^ 64 := by
    obtain ⟨hwf, hcapacity⟩ := wellFormed_run capacity.toNat calls
    have hsize : p.window.size ≤ max capacity.toNat 1 := hcapacity ▸ hwf.size_le
    have hword := capacity.toNat_lt
    rw [Window.length_toList]
    omega
  have htime := takeTime_sortDescending hproper hpos
  have hframes := sortDescending_millis_ne_nil hsome
  obtain ⟨-, honePercent, htenthPercent⟩ := summarize_pos_iff hsome hproper hpos hlength
  refine ⟨tellsOfFrames_of_hasMean hsome hproper hpos hlength,
    withoutAverage_of_not_hasMean hsome hproper hpos hlength, honePercent, htenthPercent, ?_⟩
  simp only [List.forall_mem_cons]
  exact ⟨hasMean_iff_isFinite htime hframes,
    hasMean_iff_isFinite (htime.slowest _) (take_size_ne_nil hframes _),
    hasMean_iff_isFinite (htime.slowest _) (take_size_ne_nil hframes _), List.forall_mem_nil _⟩

/-- One frame of sixteen milliseconds. -/
theorem summary_tells_of_one_frame :
    ((ofCapacity 4).run [.update ⟨0⟩, .update ⟨16⟩]).value.summary.value.TellsOfFrames := by
  obtain ⟨htells, -, -, -, hmean⟩ := summary_tells_of_frames 4 [.update ⟨0⟩, .update ⟨16⟩]
    (by decide +kernel) (by decide +kernel)
  have hiff := hmean _ List.mem_cons_self (by decide +kernel)
  exact htells (hiff.mpr (by decide +kernel))

/-- A large number of milliseconds, `2 ^ 1023`. -/
def huge : Float := .ofBits 0x7fe0000000000000

/-- Three readings that are so far apart. -/
def farApart : List Call := [.update ⟨-huge⟩, .update ⟨0⟩, .update ⟨huge⟩]

lemma toList_farApart :
    ((ofCapacity 4).run farApart).value.window.toList = [⟨huge⟩, ⟨huge⟩] := by
  decide +kernel

lemma summary_farApart :
    ((ofCapacity 4).run farApart).value.summary.value = ⟨0, huge, huge⟩ := by
  have hsorted : [huge, huge] = sortDescending [huge, huge] :=
    eq_sortDescending (.refl _) (by decide +kernel)
  rw [Profiler.summary, toList_farApart, value_summarize (List.cons_ne_nil _ _), List.map_cons,
    List.map_singleton, ← hsorted]
  decide +kernel

/-- The sum of two such frames is infinite, so the average says that there is no data. -/
theorem positive_frames_without_average :
    let p := ((ofCapacity 4).run farApart).value
    p.window.toList ≠ []
      ∧ (∀ d ∈ p.window.toList, 0 < d.millis)
      ∧ ¬0 < p.summary.value.average
      ∧ p.summary.value.averageRate? = none
      ∧ Display.rateText p.summary.value.average 3 = .ok "--fps" := by
  dsimp only
  rw [toList_farApart, summary_farApart]
  decide +kernel

end Profiler

end FramePacing
