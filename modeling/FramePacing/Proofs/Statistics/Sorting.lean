import FramePacing.Proofs.Duration.Proper
import FramePacing.Statistics

/-!
# A summary does not depend on the order of its frames

Float addition is not associative, so a sum depends on the order of its terms.  `summarize` sorts
before it adds, by the bits of a float, and the bits of a proper duration are ordered as the
durations are.  So there is one list to add, whoever sorts it and whatever came first.

* `sortDescending_congr` — lists with the same terms are sorted to the same list.
* `eq_sortDescending` — it is the only one that descends.
* `summarize_of_sorted` — the summary, written in terms of that list.
-/

namespace FramePacing.Statistics

open Binary
open Decimal (nearestFloat)

/-! ## The order of the keys -/

lemma toNat_orderKey (x : Float) :
    (orderKey x).toNat = if x.toBits.toNat < 2 ^ 63 then x.toBits.toNat + 2 ^ 63
      else 2 ^ 64 - 1 - x.toBits.toNat := by
  have hsize := x.toBits.toNat_lt
  simp only [orderKey]
  simp only [UInt64.lt_iff_toNat_lt]
  split_ifs with hpos hneg hneg
  · rw [UInt64.toNat_add]
    exact Nat.mod_eq_of_lt (by simp at hneg ⊢; omega)
  · exact absurd hpos hneg
  · exact absurd hneg hpos
  · exact UInt64.toNat_not _

/-- No two floats have the same key. -/
lemma orderKey_injective : Function.Injective orderKey := by
  intro x y h
  have hsize := x.toBits.toNat_lt
  have hsize' := y.toBits.toNat_lt
  have hkey := congrArg UInt64.toNat h
  rw [toNat_orderKey, toNat_orderKey] at hkey
  refine eq_of_toBits_eq (UInt64.toNat_inj.mp ?_)
  split_ifs at hkey <;> omega

/-- Without a sign, keys are ordered as the bits. -/
lemma orderKey_le_iff {x y : Float} {p q : ℚ} (h : Canonical .positive p x.toModel.unpack)
    (h' : Canonical .positive q y.toModel.unpack) : orderKey x ≤ orderKey y ↔ p ≤ q := by
  have hx := toBits_lt h
  have hy := toBits_lt h'
  rw [← toBits_le_iff h h', UInt64.le_iff_toNat_le, UInt64.le_iff_toNat_le, toNat_orderKey,
    toNat_orderKey, if_pos hx, if_pos hy]
  omega

lemma orderKey_le_iff_le {d d' : Duration} (h : d.IsProper) (h' : d'.IsProper) :
    orderKey d.millis ≤ orderKey d'.millis ↔ d.millis ≤ d'.millis := by
  obtain ⟨q, hq, -⟩ := h.exists_canonical
  obtain ⟨q', hq', -⟩ := h'.exists_canonical
  rw [h.le_iff h', orderKey_le_iff hq hq', hq.value_eq, hq'.value_eq]
  rfl

/-! ## Sorting -/

section Sorted

variable {xs ys : List Float}

lemma sortDescending_perm (xs : List Float) : (sortDescending xs).Perm xs :=
  List.mergeSort_perm _ _

lemma pairwise_sortDescending (xs : List Float) :
    (sortDescending xs).Pairwise (fun a b => orderKey b ≤ orderKey a) := by
  refine (List.pairwise_mergeSort ?_ ?_ xs).imp ?_
  · intro a b c hab hbc
    rw [decide_eq_true_eq] at hab hbc ⊢
    exact UInt64.le_trans hbc hab
  · intro a b
    rw [Bool.or_eq_true, decide_eq_true_eq, decide_eq_true_eq]
    exact UInt64.le_total _ _
  · intro a b hab
    exact of_decide_eq_true hab

/-- **There is one way to sort.** -/
theorem eq_sortDescending (hperm : ys.Perm xs)
    (hsorted : ys.Pairwise (fun a b => orderKey b ≤ orderKey a)) : ys = sortDescending xs := by
  refine List.Perm.eq_of_pairwise ?_ hsorted (pairwise_sortDescending xs)
    (hperm.trans (sortDescending_perm xs).symm)
  intro a b _ _ hab hba
  exact orderKey_injective (UInt64.le_antisymm hba hab)

lemma sortDescending_congr (h : xs.Perm ys) : sortDescending xs = sortDescending ys :=
  eq_sortDescending ((sortDescending_perm xs).trans h) (pairwise_sortDescending xs)

end Sorted

section Summary

variable {ds : List Duration} {s : List Float}

lemma exists_of_mem_sortDescending {x : Float} (h : x ∈ sortDescending (ds.map (·.millis))) :
    ∃ d ∈ ds, d.millis = x :=
  List.mem_map.mp ((sortDescending_perm _).mem_iff.mp h)

lemma length_sortDescending_millis (ds : List Duration) :
    (sortDescending (ds.map (·.millis))).length = ds.length := by
  rw [(sortDescending_perm _).length_eq, List.length_map]

lemma sortDescending_millis_ne_nil (h : ds ≠ []) : sortDescending (ds.map (·.millis)) ≠ [] := by
  rw [← List.length_pos_iff, length_sortDescending_millis]
  exact List.length_pos_iff.mpr h

lemma eq_sortDescending_millis (hproper : ∀ d ∈ ds, d.IsProper)
    (hperm : s.Perm (ds.map (·.millis))) (hsorted : s.Pairwise (fun a b => b ≤ a)) :
    s = sortDescending (ds.map (·.millis)) := by
  refine eq_sortDescending hperm (hsorted.imp_of_mem ?_)
  intro a b ha hb hba
  obtain ⟨d, hd, rfl⟩ := List.mem_map.mp (hperm.mem_iff.mp ha)
  obtain ⟨d', hd', rfl⟩ := List.mem_map.mp (hperm.mem_iff.mp hb)
  exact (orderKey_le_iff_le (hproper d' hd') (hproper d hd)).mpr hba

/-! ## Means -/

lemma one_le_size (tail : Tail) (n : ℕ) : 1 ≤ tail.size n := le_max_left _ _

lemma size_le (tail : Tail) {n : ℕ} (h : 0 < n) : tail.size n ≤ n := by
  simp only [Tail.size]
  omega

lemma mean_eq (h : s ≠ []) : mean s = sum s / nearestFloat s.length := by
  rw [mean, if_neg (by simpa using h)]

lemma length_take_size (h : s ≠ []) (tail : Tail) :
    (s.take (tail.size s.length)).length = tail.size s.length :=
  List.length_take_of_le (size_le tail (List.length_pos_iff.mpr h))

lemma take_size_ne_nil (h : s ≠ []) (tail : Tail) : s.take (tail.size s.length) ≠ [] := by
  rw [← List.length_pos_iff, length_take_size h]
  exact one_le_size tail _

lemma lowAverage_eq_mean (h : s ≠ []) (tail : Tail) :
    lowAverage s tail = mean (s.take (tail.size s.length)) := by
  rw [lowAverage, if_neg (by simpa using h)]

lemma lowAverage_eq (h : s ≠ []) (tail : Tail) :
    lowAverage s tail
      = sum (s.take (tail.size s.length)) / nearestFloat (tail.size s.length) := by
  rw [lowAverage_eq_mean h, mean_eq (take_size_ne_nil h tail), length_take_size h]

/-! ## The summary -/

/-- The summary of what was sorted. -/
lemma value_summarize (h : ds ≠ []) :
    (summarize ds).value = .ofDurations
      (.ofMillis (mean (sortDescending (ds.map (·.millis)))))
      (.ofMillis (lowAverage (sortDescending (ds.map (·.millis))) .onePercent))
      (.ofMillis (lowAverage (sortDescending (ds.map (·.millis))) .tenthPercent)) := by
  rw [summarize, if_neg (by simpa using h)]
  rfl

lemma summarize_congr {ds' : List Duration} (h : ds'.Perm ds) : summarize ds' = summarize ds := by
  simp only [summarize]
  rw [sortDescending_congr (h.map _), h.isEmpty_eq]

/-- **The summary of sorted frames.**  Whoever sorts the durations, the average is taken over all of
them and each low statistic over a part that is in bounds and of which no frame is faster than one
left out; and whatever order the durations came in, the summary is the same. -/
theorem summarize_of_sorted (hne : ds ≠ []) (hproper : ∀ d ∈ ds, d.IsProper)
    (hperm : s.Perm (ds.map (·.millis))) (hsorted : s.Pairwise (fun a b => b ≤ a)) :
    (summarize ds).value = .ofDurations
        (.ofMillis (sum s / nearestFloat ds.length))
        (.ofMillis (sum (s.take (Tail.onePercent.size ds.length))
          / nearestFloat (Tail.onePercent.size ds.length)))
        (.ofMillis (sum (s.take (Tail.tenthPercent.size ds.length))
          / nearestFloat (Tail.tenthPercent.size ds.length)))
      ∧ (∀ tail : Tail, 1 ≤ tail.size ds.length ∧ tail.size ds.length ≤ s.length
        ∧ ∀ a ∈ s.take (tail.size ds.length), ∀ b ∈ s.drop (tail.size ds.length), b ≤ a)
      ∧ ∀ ds' : List Duration, ds'.Perm ds → summarize ds' = summarize ds := by
  have heq := eq_sortDescending_millis hproper hperm hsorted
  have hlength : s.length = ds.length := by rw [heq, length_sortDescending_millis]
  have hs : s ≠ [] := by
    rw [heq]
    exact sortDescending_millis_ne_nil hne
  refine ⟨?_, fun tail => ⟨one_le_size tail _, ?_, ?_⟩, fun ds' h => summarize_congr h⟩
  · rw [value_summarize hne, ← heq, mean_eq hs, lowAverage_eq hs, lowAverage_eq hs, hlength]
  · rw [hlength]
    exact size_le tail (List.length_pos_iff.mpr hne)
  · rw [← List.take_append_drop (tail.size ds.length) s] at hsorted
    exact (List.pairwise_append.mp hsorted).2.2

theorem summarize_three_frames :
    (summarize [⟨16⟩, ⟨50⟩, ⟨16⟩]).value = ⟨82 / 3, 50, 50⟩
      ∧ summarize [⟨50⟩, ⟨16⟩, ⟨16⟩] = summarize [⟨16⟩, ⟨50⟩, ⟨16⟩] := by
  have hne : ([⟨16⟩, ⟨50⟩, ⟨16⟩] : List Duration) ≠ [] := by decide
  have hperm : [50, 16, 16].Perm (([⟨16⟩, ⟨50⟩, ⟨16⟩] : List Duration).map (·.millis)) :=
    .swap 16 50 [16]
  obtain ⟨hvalue, -, hcongr⟩ := summarize_of_sorted hne (by decide) hperm (by decide)
  exact ⟨hvalue.trans (by decide +kernel), hcongr _ (.swap _ _ _)⟩

end Summary

end FramePacing.Statistics
