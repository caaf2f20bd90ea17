import FramePacing.Proofs.Binary.ExactSums
import FramePacing.Proofs.Statistics.Sorting
import FramePacing.Proofs.Statistics.TailSize
import Mathlib.Algebra.BigOperators.Ring.Finset
import Mathlib.Data.Finset.Max

/-!
# The statistics are ordered

No frame takes longer than the slowest one, so a low statistic is at least the average, and the one
over fewer frames is the larger one.  For exact numbers this is a fact about lists that descend
(`average_take_anti`).  It holds of floats as they are, without a tolerance, when the sums are
exact: then all that is rounded is the last division, which respects the order.

* `average_take_anti` — a longer beginning of a list that descends has a smaller average.
* `value_mean` — the mean of floats that add exactly is their average, rounded once.
* `summarize_ordered` — the statistics of such a window lie in order between its slowest and its
  fastest frame.
-/

namespace FramePacing.Statistics

open Binary
open Decimal (nearestFloat)

/-! ## Averages of exact numbers -/

section Average

/-- The average of a list, exactly. -/
def average (l : List ℚ) : ℚ := l.sum / l.length

variable {l l' : List ℚ} {q : ℚ}

lemma length_cast_pos (h : l ≠ []) : (0 : ℚ) < l.length := by
  exact_mod_cast List.length_pos_iff.mpr h

lemma average_le (hne : l ≠ []) (h : ∀ a ∈ l, a ≤ q) : average l ≤ q := by
  rw [average, div_le_iff₀ (length_cast_pos hne), mul_comm, ← nsmul_eq_mul]
  exact List.sum_le_card_nsmul l q h

lemma le_average (hne : l ≠ []) (h : ∀ a ∈ l, q ≤ a) : q ≤ average l := by
  rw [average, le_div_iff₀ (length_cast_pos hne), mul_comm, ← nsmul_eq_mul]
  exact List.card_nsmul_le_sum l q h

/-- What is not above anything in a list does not raise its average. -/
lemma average_append_le (hne : l ≠ []) (h : ∀ a ∈ l, ∀ b ∈ l', b ≤ a) :
    average (l ++ l') ≤ average l := by
  have hsum : l.sum = l.length * average l := by
    rw [average, mul_div_cancel₀ _ (length_cast_pos hne).ne']
  have hsum' : l'.sum ≤ l'.length * average l := by
    rw [← nsmul_eq_mul]
    exact List.sum_le_card_nsmul l' _ fun b hb => le_average hne fun a ha => h a ha b hb
  have hpos : (0 : ℚ) < l.length + l'.length :=
    add_pos_of_pos_of_nonneg (length_cast_pos hne) (Nat.cast_nonneg _)
  rw [average, List.sum_append, List.length_append, Nat.cast_add, div_le_iff₀ hpos]
  linarith

/-- **Of a list that descends, a shorter beginning has a larger average.** -/
theorem average_take_anti (h : l.Pairwise (fun a b => b ≤ a)) {i j : ℕ} (hi : 0 < i) (hij : i ≤ j)
    (hj : j ≤ l.length) : average (l.take j) ≤ average (l.take i) := by
  have hsplit : l.take j = l.take i ++ (l.drop i).take (j - i) := by
    rw [← List.take_add, Nat.add_sub_cancel' hij]
  have hne : l.take i ≠ [] := by
    rw [← List.length_pos_iff, List.length_take]
    omega
  rw [hsplit]
  apply average_append_le hne
  intro a ha b hb
  rw [← List.take_append_drop i l] at h
  exact (List.pairwise_append.mp h).2.2 a ha b (List.mem_of_mem_take hb)

end Average

/-! ## Means of floats -/

section Mean

variable {k : ℕ} {xs : List Float}

lemma value_negZero : value (-0.0) = 0 := rfl

lemma addsExactly_cons_negZero (h : AddsExactly k xs) : AddsExactly k (-0.0 :: xs) := by
  refine ⟨h.unit_le, ?_, ?_, ?_⟩
  · rw [List.forall_mem_cons]
    exact ⟨by decide, h.isFinite⟩
  · rw [List.forall_mem_cons]
    exact ⟨⟨0, by rw [value_negZero, Nat.cast_zero, zero_mul]⟩, h.multiple⟩
  · rw [List.map_cons, List.sum_cons, value_negZero, zero_add]
    exact h.sum_le

/-- The sum of a list starts at negative zero, which adds nothing. -/
lemma value_sum (h : AddsExactly k xs) :
    (sum xs).isFinite = true ∧ value (sum xs) = (xs.map value).sum := by
  obtain ⟨hfinite, hsum⟩ := (addsExactly_cons_negZero h).value_foldl
  rw [value_negZero, zero_add] at hsum
  exact ⟨hfinite, hsum⟩

variable (h : AddsExactly k xs) (hne : xs ≠ []) (hlength : xs.length ≤ 2 ^ 52)

include h hne hlength

/-- **The mean** is the exact average, rounded once. -/
theorem value_mean :
    (mean xs).isFinite = true ∧ value (mean xs) = nearest (average (xs.map value)) := by
  obtain ⟨hfinite, hsum⟩ := value_sum h
  obtain ⟨hfinite', hcount⟩ := value_nearestFloat (n := xs.length) (by omega)
  have hpos : (1 : ℚ) ≤ xs.length := by exact_mod_cast List.length_pos_iff.mpr hne
  have hnonneg := List.sum_nonneg h.map_value_nonneg
  have hround := roundsTo_div hfinite hfinite' (by rw [hcount]; linarith)
  rw [hsum, hcount] at hround
  have haverage : average (xs.map value) = (xs.map value).sum / xs.length := by
    rw [average, List.length_map]
  rw [mean_eq hne, haverage]
  refine hround.of_abs_le ?_
  rw [abs_of_nonneg (div_nonneg hnonneg (by linarith))]
  calc (xs.map value).sum / xs.length ≤ (xs.map value).sum := div_le_self hnonneg hpos
    _ ≤ 2 ^ 53 * 2 ^ (-k : ℤ) := h.sum_le
    _ ≤ 2 ^ 53 * 1 := by
      refine mul_le_mul_of_nonneg_left ?_ (by norm_num)
      exact zpow_le_one_of_nonpos₀ one_le_two (by omega)
    _ ≤ 2 ^ 1023 := by
      rw [mul_one]
      exact pow_le_pow_right₀ one_le_two (by norm_num)

/-- A duration that is made of the mean keeps its value. -/
lemma value_ofMillis_mean :
    value (Duration.ofMillis (mean xs)).millis = nearest (average (xs.map value)) := by
  obtain ⟨hfinite, hvalue⟩ := value_mean h hne hlength
  have hnonneg : 0 ≤ value (mean xs) := by
    rw [hvalue]
    exact nearest_nonneg (le_average (by simpa using hne) h.map_value_nonneg)
  rw [Duration.value_ofMillis hfinite hnonneg, hvalue]

lemma value_lowAverage (tail : Tail) :
    value (Duration.ofMillis (lowAverage xs tail)).millis
      = nearest (average ((xs.map value).take (tail.size xs.length))) := by
  have hle : (xs.take (tail.size xs.length)).length ≤ 2 ^ 52 :=
    (List.length_take_le' _ _).trans hlength
  rw [lowAverage_eq_mean hne, ← List.map_take]
  exact value_ofMillis_mean (h.sublist (List.take_sublist _ _)) (take_size_ne_nil hne tail) hle

/-! ## The order of the statistics -/

/-- A low statistic is at least the average, … -/
lemma value_mean_le (hdesc : (xs.map value).Pairwise (fun a b => b ≤ a)) (tail : Tail) :
    value (Duration.ofMillis (mean xs)).millis
      ≤ value (Duration.ofMillis (lowAverage xs tail)).millis := by
  have htake := average_take_anti hdesc (one_le_size tail xs.length)
    (size_le tail (List.length_pos_iff.mpr hne)) (by rw [List.length_map])
  rw [value_ofMillis_mean h hne hlength, value_lowAverage h hne hlength]
  rw [List.take_of_length_le (by rw [List.length_map])] at htake
  exact nearest_mono htake

/-- … the one over fewer frames is the larger one, … -/
lemma value_lowAverage_le (hdesc : (xs.map value).Pairwise (fun a b => b ≤ a)) :
    value (Duration.ofMillis (lowAverage xs .onePercent)).millis
      ≤ value (Duration.ofMillis (lowAverage xs .tenthPercent)).millis := by
  rw [value_lowAverage h hne hlength, value_lowAverage h hne hlength]
  refine nearest_mono (average_take_anti hdesc (one_le_size _ _) (size_tenthPercent_le ?_) ?_)
  · omega
  · rw [List.length_map]
    exact size_le _ (List.length_pos_iff.mpr hne)

/-- … and none is larger than the slowest frame … -/
lemma value_lowAverage_le_of_forall {top : Float} (htop : top.isFinite = true)
    (hle : ∀ x ∈ xs, value x ≤ value top) (tail : Tail) :
    value (Duration.ofMillis (lowAverage xs tail)).millis ≤ value top := by
  rw [value_lowAverage h hne hlength, ← nearest_value htop, ← List.map_take]
  refine nearest_mono (average_le (by simpa using take_size_ne_nil hne tail) ?_)
  rw [List.forall_mem_map]
  intro x hx
  exact hle x (List.mem_of_mem_take hx)

/-- … or smaller than the fastest one. -/
lemma le_value_mean_of_forall {bottom : Float} (hbottom : bottom.isFinite = true)
    (hle : ∀ x ∈ xs, value bottom ≤ value x) :
    value bottom ≤ value (Duration.ofMillis (mean xs)).millis := by
  rw [value_ofMillis_mean h hne hlength, ← nearest_value hbottom]
  refine nearest_mono (le_average (by simpa using hne) ?_)
  rw [List.forall_mem_map]
  exact hle

end Mean

/-! ## Windows -/

section Window

variable {ds : List Duration} {k : ℕ} {ms : List ℕ}

lemma addsExactly_millis (hk : k ≤ 1000) (hproper : ∀ d ∈ ds, d.IsProper)
    (hms : ds.map (fun d => value d.millis) = ms.map (fun m : ℕ => (m : ℚ) / 2 ^ k))
    (hsum : ms.sum ≤ 2 ^ 53) : AddsExactly k (ds.map (·.millis)) := by
  have hunit : (2 : ℚ) ^ (-k : ℤ) = (2 ^ k)⁻¹ := by rw [zpow_neg, zpow_natCast]
  refine ⟨hk, ?_, ?_, ?_⟩
  · rw [List.forall_mem_map]
    exact fun d hd => (hproper d hd).isFinite
  · rw [List.forall_mem_map]
    intro d hd
    have hmem := List.mem_map_of_mem (f := fun d : Duration => value d.millis) hd
    rw [hms] at hmem
    obtain ⟨m, -, hm⟩ := List.mem_map.mp hmem
    exact ⟨m, by rw [← hm, hunit, div_eq_mul_inv]⟩
  · rw [List.map_map]
    show (ds.map (fun d => value d.millis)).sum ≤ _
    rw [hms, hunit, ← div_eq_mul_inv]
    simp only [div_eq_mul_inv]
    rw [List.sum_map_mul_right]
    refine mul_le_mul_of_nonneg_right ?_ (by positivity)
    rw [← Nat.cast_list_sum]
    exact_mod_cast hsum

lemma pairwise_value_sortDescending (hproper : ∀ d ∈ ds, d.IsProper) :
    ((sortDescending (ds.map (·.millis))).map value).Pairwise (fun a b => b ≤ a) := by
  refine List.pairwise_map.mpr ((pairwise_sortDescending _).imp_of_mem ?_)
  intro a b ha hb hkey
  obtain ⟨d, hd, rfl⟩ := exists_of_mem_sortDescending ha
  obtain ⟨d', hd', rfl⟩ := exists_of_mem_sortDescending hb
  have hle := (orderKey_le_iff_le (hproper d' hd') (hproper d hd)).mp hkey
  exact ((hproper d' hd').le_iff (hproper d hd)).mp hle

/-- A window has a slowest and a fastest frame. -/
lemma exists_slowest_fastest (hne : ds ≠ []) (hproper : ∀ d ∈ ds, d.IsProper) :
    ∃ slowest ∈ ds, ∃ fastest ∈ ds,
      ∀ d ∈ ds, d.millis ≤ slowest.millis ∧ fastest.millis ≤ d.millis := by
  have hfinset : ds.toFinset.Nonempty := List.toFinset_nonempty_iff ds |>.mpr hne
  obtain ⟨slowest, hslowest, hmax⟩ := ds.toFinset.exists_max_image (value ·.millis) hfinset
  obtain ⟨fastest, hfastest, hmin⟩ := ds.toFinset.exists_min_image (value ·.millis) hfinset
  rw [List.mem_toFinset] at hslowest hfastest
  refine ⟨slowest, hslowest, fastest, hfastest, fun d hd => ⟨?_, ?_⟩⟩
  · exact ((hproper d hd).le_iff (hproper _ hslowest)).mpr (hmax d (List.mem_toFinset.mpr hd))
  · exact ((hproper _ hfastest).le_iff (hproper d hd)).mpr (hmin d (List.mem_toFinset.mpr hd))

/-- **The statistics are ordered**, exactly as the floats that they are.  Of durations whose sums
need no rounding the average is not above the low of the slowest percent, nor that above the low of
its slowest tenth; the slowest and the fastest frame are the bounds.  When all frames take the same
time, this is what all three say. -/
theorem summarize_ordered (hne : ds ≠ []) (hlength : ds.length ≤ 2 ^ 52)
    (hproper : ∀ d ∈ ds, d.IsProper) (hk : k ≤ 1000)
    (hms : ds.map (fun d => value d.millis) = ms.map (fun m : ℕ => (m : ℚ) / 2 ^ k))
    (hsum : ms.sum ≤ 2 ^ 53) :
    (∃ slowest ∈ ds, ∃ fastest ∈ ds,
      (∀ d ∈ ds, d.millis ≤ slowest.millis ∧ fastest.millis ≤ d.millis)
      ∧ (summarize ds).value.tenthPercentLow ≤ slowest.millis
      ∧ (summarize ds).value.onePercentLow ≤ (summarize ds).value.tenthPercentLow
      ∧ (summarize ds).value.average ≤ (summarize ds).value.onePercentLow
      ∧ fastest.millis ≤ (summarize ds).value.average)
    ∧ ∀ d, (∀ d' ∈ ds, d' = d) → (summarize ds).value = ⟨d.millis, d.millis, d.millis⟩ := by
  have hadds := (addsExactly_millis hk hproper hms hsum).perm (sortDescending_perm _)
  have hdesc := pairwise_value_sortDescending hproper
  have hxs := sortDescending_millis_ne_nil hne
  rw [← length_sortDescending_millis] at hlength
  obtain ⟨slowest, hslowest, fastest, hfastest, hbounds⟩ := exists_slowest_fastest hne hproper
  have hmax : ∀ x ∈ sortDescending (ds.map (·.millis)), value x ≤ value slowest.millis := by
    intro x hx
    obtain ⟨d, hd, rfl⟩ := exists_of_mem_sortDescending hx
    exact ((hproper d hd).le_iff (hproper _ hslowest)).mp (hbounds d hd).1
  have hmin : ∀ x ∈ sortDescending (ds.map (·.millis)), value fastest.millis ≤ value x := by
    intro x hx
    obtain ⟨d, hd, rfl⟩ := exists_of_mem_sortDescending hx
    exact ((hproper _ hfastest).le_iff (hproper d hd)).mp (hbounds d hd).2
  have htop := value_lowAverage_le_of_forall hadds hxs hlength (hproper _ hslowest).isFinite hmax
    .tenthPercent
  have hlows := value_lowAverage_le hadds hxs hlength hdesc
  have hmean := value_mean_le hadds hxs hlength hdesc .onePercent
  have hbottom := le_value_mean_of_forall hadds hxs hlength (hproper _ hfastest).isFinite hmin
  have hmade := Duration.isProper_ofMillis
  rw [value_summarize hne]
  refine ⟨⟨slowest, hslowest, fastest, hfastest, hbounds, ?_, ?_, ?_, ?_⟩, fun d hd => ?_⟩
  · exact ((hmade _).le_iff (hproper _ hslowest)).mpr htop
  · exact ((hmade _).le_iff (hmade _)).mpr hlows
  · exact ((hmade _).le_iff (hmade _)).mpr hmean
  · exact ((hproper _ hfastest).le_iff (hmade _)).mpr hbottom
  · have hproper' := hproper _ hslowest
    rw [hd _ hslowest] at htop hproper'
    rw [hd _ hfastest] at hbottom
    rw [(hmade (mean _)).eq_of_value_eq hproper' (by linarith),
      (hmade (lowAverage _ .onePercent)).eq_of_value_eq hproper' (by linarith),
      (hmade (lowAverage _ .tenthPercent)).eq_of_value_eq hproper' (by linarith)]
    rfl

theorem summarize_ordered_two_frames :
    (summarize [⟨16⟩, ⟨50⟩]).value.onePercentLow ≤ (summarize [⟨16⟩, ⟨50⟩]).value.tenthPercentLow
      ∧ (summarize [⟨16⟩, ⟨50⟩]).value.average ≤ (summarize [⟨16⟩, ⟨50⟩]).value.onePercentLow := by
  have hne : ([⟨16⟩, ⟨50⟩] : List Duration) ≠ [] := by decide
  have hms : ([⟨16⟩, ⟨50⟩] : List Duration).map (fun d => value d.millis)
      = [16, 50].map (fun m : ℕ => (m : ℚ) / 2 ^ 0) := by decide +kernel
  obtain ⟨⟨_, _, _, _, _, _, hlows, hmean, _⟩, -⟩ :=
    summarize_ordered hne (by decide) (by decide) (by decide) hms (by decide)
  exact ⟨hlows, hmean⟩

end Window

end FramePacing.Statistics
