import FramePacing.Display.Report
import FramePacing.Proofs.Decimal.Fixed
import FramePacing.Proofs.Duration.Proper

/-!
# The texts of rates

What is shown for a frame time is a number followed by the unit, or a placeholder followed by the
unit.  The two cannot be confused, because a number is written with a digit, and the number can be
told from the text.

* `ShowsRate.unique` — a text shows one number.
* `rateText_ne_noData` — a frame time above zero is never shown as what stands for no data.
* `exists_report` — with decimals that can be formatted there is a report on any summary.
-/

namespace FramePacing.Display

open Decimal (Denotes)

/-! ## Numbers with the unit -/

/-- That a text is a number with `places` decimals, followed by the unit, and the number is `q`. -/
def ShowsRate (text : String) (places : ℕ) (q : ℚ) : Prop :=
  ∃ digits, text = digits ++ unit ∧ Denotes digits places q

lemma append_unit_inj {s t : String} : s ++ unit = t ++ unit ↔ s = t := by
  refine ⟨fun h => ?_, congrArg (· ++ unit)⟩
  have hchars := congrArg String.toList h
  rw [String.toList_append, String.toList_append] at hchars
  exact String.toList_inj.mp (List.append_cancel_right hchars)

/-- **A text shows one number.** -/
theorem ShowsRate.unique {text : String} {places : ℕ} {q q' : ℚ} (h : ShowsRate text places q)
    (h' : ShowsRate text places q') : q = q' := by
  obtain ⟨digits, rfl, hdigits⟩ := h
  obtain ⟨digits', htext, hdigits'⟩ := h'
  rw [append_unit_inj] at htext
  exact hdigits.unique (htext ▸ hdigits')

/-! ## The placeholder -/

/-- A number is not written as what stands for no data, -/
lemma fixed_ne_noData (places : ℕ) (x : Float) : Decimal.fixed places x ≠ noData := by
  rw [Decimal.fixed]
  rcases Decimal.Reading.ofFloat x with _ | negative | ⟨negative, m⟩
  · show "NaN" ≠ "--"
    decide
  · show Decimal.signText negative ++ "inf" ≠ "--"
    cases negative <;> decide
  · obtain ⟨c, rest, hm, hdigit⟩ := (Decimal.denotes_fixed places m).exists_digit
    intro heq
    have hlist := congrArg String.toList heq
    rw [String.toList_append, hm] at hlist
    have hminus : c = '-' := by
      cases negative
      · exact (List.cons.inj hlist).1
      · exact (List.cons.inj (List.cons.inj hlist).2).1
    rw [hminus] at hdigit
    cases hdigit

/-- so a duration that is not zero is shown as a rate. -/
lemma rateText_ne_noData {d : Duration} (hd : d.IsProper) (hpos : 0 < d.millis) (decimals : ℕ) :
    rateText d.millis decimals ≠ .ok (noData ++ unit) := by
  rw [rateText, hd.rate?_eq hpos]
  dsimp only
  split_ifs
  · intro heq
    exact fixed_ne_noData _ _ (append_unit_inj.mp (Except.ok.inj heq))
  · exact fun heq => nomatch heq

/-! ## Reports -/

section Report

variable {decimals : ℕ}

lemma exists_rateText (h : decimals ≤ maxDecimals) (millis : Float) :
    ∃ text, rateText millis decimals = .ok text := by
  rw [rateText]
  split
  · exact ⟨_, if_pos h⟩
  · exact ⟨_, rfl⟩

/-- A report holds the texts of the three frame times. -/
lemma ofSummary_eq {s : Summary} {average onePercent tenthPercent : String}
    (haverage : rateText s.average decimals = .ok average)
    (honePercent : rateText s.onePercentLow decimals = .ok onePercent)
    (htenthPercent : rateText s.tenthPercentLow decimals = .ok tenthPercent) :
    Report.ofSummary s decimals = .ok ⟨average, onePercent, tenthPercent⟩ := by
  rw [Report.ofSummary, haverage, honePercent, htenthPercent]
  rfl

lemma exists_report (h : decimals ≤ maxDecimals) (s : Summary) :
    ∃ report, Report.ofSummary s decimals = .ok report := by
  obtain ⟨average, haverage⟩ := exists_rateText h s.average
  obtain ⟨onePercent, honePercent⟩ := exists_rateText h s.onePercentLow
  obtain ⟨tenthPercent, htenthPercent⟩ := exists_rateText h s.tenthPercentLow
  exact ⟨_, ofSummary_eq haverage honePercent htenthPercent⟩

end Report

end FramePacing.Display
