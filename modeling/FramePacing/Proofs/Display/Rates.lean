import FramePacing.Proofs.Bench.Operations
import FramePacing.Proofs.Display.Texts
import FramePacing.Proofs.Duration.Rate

/-!
# The rates that are shown

A frame time is rounded twice on its way to the page, to a float when the rate is taken and to the
decimals that are shown.  Both roundings respect the order, so the text of a longer frame time never
shows the larger number; and the second one is that of the exact value of the rate, so what is shown
is as near to it as the decimals allow.

`Readable` texts are those that show a number or say that there is none.  The one text that is
neither is that of a frame time which is `TooShort`: it is positive, so it has a rate, and the rate
is infinite.

* `rateText_is_nearest` — the number that is shown for a finite rate.
* `slower_shows_no_higher_rate` — the order of the numbers that are shown, also in a report.
* `rates_are_readable_iff` — which frame times have a readable text, in a report or in that of a
  bench after any run.
* `rate_of_least_frame_time` — the least frame time that there is has none.
-/

namespace FramePacing.Display

open Binary
open Duration (TooShort)
open Json (Numeral)

/-! ## The text of a frame time -/

/-- The number that is shown for a rate. -/
def shown (places : ℕ) (rate : Float) : ℚ := roundEven (value rate * 10 ^ places) / 10 ^ places

lemma shown_mono (places : ℕ) {x y : Float} (h : value x ≤ value y) :
    shown places x ≤ shown places y := by
  have hpow : (0 : ℚ) < 10 ^ places := pow_pos (by norm_num) _
  refine div_le_div_of_nonneg_right ?_ hpow.le
  exact_mod_cast roundEven_mono (mul_le_mul_of_nonneg_right h hpow.le)

section FrameTime

variable {millis : Float} {places : ℕ} (hplaces : places ≤ maxDecimals)
include hplaces

lemma rateText_of_pos (hmillis : millis.isFinite = true) (hpos : 0 < millis) :
    rateText millis places = .ok (Decimal.fixed places (1000 / millis) ++ unit) := by
  rw [rateText, Duration.rate?_of_pos hmillis hpos]
  exact if_pos hplaces

/-- **A finite rate is shown** as a number, -/
lemma exists_showsRate (hmillis : millis.isFinite = true) (hpos : 0 < millis)
    (hrate : (1000 / millis).isFinite = true) :
    ∃ text, rateText millis places = .ok text
      ∧ ShowsRate text places (shown places (1000 / millis)) :=
  ⟨_, rateText_of_pos hplaces hmillis hpos, _, rfl,
    Decimal.denotes_fixed_float places hrate (Duration.value_rate_pos hmillis hpos hrate)⟩

/-- and an infinite one is not. -/
lemma rateText_of_tooShort (h : TooShort millis) : rateText millis places = .ok "inffps" := by
  have hrate : ¬(1000 / millis).isFinite = true := fun hfinite =>
    (Duration.isFinite_rate_iff h.1 h.2.1).mp hfinite h
  have hreading : Decimal.Reading.ofFloat (1000 / millis) = .infinite false := by
    rw [Decimal.Reading.ofFloat, Duration.unpack_rate h.1 h.2.1 hrate]
    rfl
  rw [rateText_of_pos hplaces h.1 h.2.1, Decimal.fixed, hreading]
  rfl

end FrameTime

/-- **Displayed rates are correctly rounded decimals.**  The text of a frame time with a finite rate
is a numeral and the unit.  The numeral has as many digits behind the point as were asked for, and
no point if there were none; and it stands for the multiple of a unit in its last decimal that is
nearest to the exact value of the rate, the even one of two. -/
theorem rateText_is_nearest {millis rate : Float} {places : ℕ} (hmillis : millis.isFinite = true)
    (hpos : 0 < millis) (hsome : (Duration.ofMillis millis).rate? = some rate)
    (hrate : rate.isFinite = true) (hplaces : places ≤ maxDecimals) :
    ∃ (n : Numeral) (k : ℤ), rateText millis places = .ok (String.ofList n.text ++ unit)
      ∧ n.IsFixed places ∧ (n.fraction = none ↔ places = 0)
      ∧ n.value = k / 10 ^ places ∧ IsNearestInt (value rate * 10 ^ places) k := by
  obtain rfl := Duration.rate_eq hmillis hpos hsome
  obtain ⟨text, htext, digits, rfl, n, hn, hfixed, hvalue⟩ :=
    exists_showsRate hplaces hmillis hpos hrate
  refine ⟨n, roundEven (value (1000 / millis) * 10 ^ places), ?_, hfixed,
    hfixed.fraction_eq_none_iff, hvalue, isNearestInt_roundEven _⟩
  rw [hn, String.ofList_toList, htext]

/-- Without decimals, a rate of sixty-two and a half is a tie. -/
theorem rateText_is_nearest_at_a_tie :
    (16 : Float).isFinite = true ∧ (0 : Float) < 16
      ∧ (Duration.ofMillis 16).rate? = some 62.5 ∧ (62.5 : Float).isFinite = true
      ∧ rateText 16 0 = .ok "62fps"
      ∧ ∃ (n : Numeral) (k : ℤ), rateText 16 0 = .ok (String.ofList n.text ++ unit)
        ∧ n.IsFixed 0 ∧ (n.fraction = none ↔ 0 = 0) ∧ n.value = k / 10 ^ 0
        ∧ IsNearestInt (value 62.5 * 10 ^ 0) k := by
  have hsome : (Duration.ofMillis 16).rate? = some 62.5 := by decide +kernel
  exact ⟨by decide, by decide, hsome, by decide +kernel, by decide +kernel,
    rateText_is_nearest (by decide) (by decide) hsome (by decide +kernel) (Nat.zero_le _)⟩

/-! ## Slower frames -/

/-- **Slower frames never show a higher rate**, neither by themselves nor in a report, in which the
lows are no higher than the average. -/
theorem slower_shows_no_higher_rate {places : ℕ} (hplaces : places ≤ maxDecimals) :
    (∀ a b rate : Float, a.isFinite = true → b.isFinite = true → 0 < a → a ≤ b →
      (Duration.ofMillis a).rate? = some rate → rate.isFinite = true →
      ∃ (fast slow : String) (p q : ℚ), rateText a places = .ok fast
        ∧ rateText b places = .ok slow ∧ ShowsRate fast places p ∧ ShowsRate slow places q
        ∧ q ≤ p)
    ∧ ∀ (s : Summary) (rate : Float), s.average.isFinite = true → s.onePercentLow.isFinite = true →
      s.tenthPercentLow.isFinite = true → 0 < s.average → s.average ≤ s.onePercentLow →
      s.onePercentLow ≤ s.tenthPercentLow → s.averageRate? = some rate → rate.isFinite = true →
      ∃ (report : Report) (p q r : ℚ), Report.ofSummary s places = .ok report
        ∧ ShowsRate report.average places p ∧ ShowsRate report.onePercentLow places q
        ∧ ShowsRate report.tenthPercentLow places r ∧ q ≤ p ∧ r ≤ q := by
  constructor
  · intro a b rate ha hb hpos hab hsome hrate
    obtain rfl := Duration.rate_eq ha hpos hsome
    obtain ⟨hpos', hrate', hle⟩ := Duration.rate_anti ha hpos hb hab hrate
    obtain ⟨fast, hfast, hp⟩ := exists_showsRate hplaces ha hpos hrate
    obtain ⟨slow, hslow, hq⟩ := exists_showsRate hplaces hb hpos' hrate'
    exact ⟨fast, slow, _, _, hfast, hslow, hp, hq, shown_mono places hle⟩
  · intro s rate ha hb hc hpos hab hbc hsome hrate
    obtain rfl := Duration.rate_eq ha hpos hsome
    obtain ⟨hpos', hrate', hle⟩ := Duration.rate_anti ha hpos hb hab hrate
    obtain ⟨hpos'', hrate'', hle'⟩ := Duration.rate_anti hb hpos' hc hbc hrate'
    obtain ⟨average, haverage, hp⟩ := exists_showsRate hplaces ha hpos hrate
    obtain ⟨onePercent, honePercent, hq⟩ := exists_showsRate hplaces hb hpos' hrate'
    obtain ⟨tenthPercent, htenthPercent, hr⟩ := exists_showsRate hplaces hc hpos'' hrate''
    exact ⟨⟨average, onePercent, tenthPercent⟩, _, _, _,
      ofSummary_eq haverage honePercent htenthPercent, hp, hq, hr, shown_mono places hle,
      shown_mono places hle'⟩

/-- Frames of sixteen, twenty and a little more milliseconds: the last two show the same. -/
theorem slower_shows_no_higher_rate_of_three :
    3 ≤ maxDecimals
      ∧ Report.ofSummary ⟨16, 20, 20.000001⟩ 3 = .ok ⟨"62.500fps", "50.000fps", "50.000fps"⟩
      ∧ ∃ (report : Report) (p q r : ℚ), Report.ofSummary ⟨16, 20, 20.000001⟩ 3 = .ok report
        ∧ ShowsRate report.average 3 p ∧ ShowsRate report.onePercentLow 3 q
        ∧ ShowsRate report.tenthPercentLow 3 r ∧ q ≤ p ∧ r ≤ q :=
  ⟨by decide, by decide +kernel,
    (slower_shows_no_higher_rate (by decide)).2 ⟨16, 20, 20.000001⟩ 62.5 (by decide +kernel)
      (by decide +kernel) (by decide +kernel) (by decide +kernel) (by decide +kernel)
      (by decide +kernel) (by decide +kernel) (by decide +kernel)⟩

/-! ## Frame times without a readable text -/

/-- That a text shows a number, or says that there is none. -/
def Readable (text : String) (places : ℕ) : Prop :=
  text = noData ++ unit ∨ ∃ q, ShowsRate text places q

/-- What is told by the text of a frame time: it can be read unless the frame time is too short. -/
structure Tells (millis : Float) (places : ℕ) (text : String) : Prop where
  readable_iff : Readable text places ↔ ¬TooShort millis
  infinite : TooShort millis → text = "inffps"

/-- What is infinite is not written with a digit. -/
lemma not_readable_infinite (places : ℕ) : ¬Readable "inffps" places := by
  rintro (h | ⟨q, digits, hdigits, hdenotes⟩)
  · revert h
    decide
  · rw [show "inffps" = "inf" ++ unit from rfl, append_unit_inj] at hdigits
    rw [← hdigits] at hdenotes
    obtain ⟨c, rest, hchars, hdigit⟩ := hdenotes.exists_digit
    obtain rfl : 'i' = c := (List.cons.inj hchars).1
    cases hdigit

lemma exists_tells {places : ℕ} (hplaces : places ≤ maxDecimals) (millis : Float) :
    ∃ text, rateText millis places = .ok text ∧ Tells millis places text := by
  by_cases hshort : TooShort millis
  · exact ⟨"inffps", rateText_of_tooShort hplaces hshort,
      iff_of_false (not_readable_infinite places) (not_not.mpr hshort), fun _ => rfl⟩
  · have htells {text : String} (h : Readable text places) : Tells millis places text :=
      ⟨iff_of_true h hshort, fun h' => absurd h' hshort⟩
    rcases Duration.rate?_cases millis with ⟨hmillis, hpos, -⟩ | hnone
    · have hrate := (Duration.isFinite_rate_iff hmillis hpos).mpr hshort
      obtain ⟨text, htext, hshows⟩ := exists_showsRate hplaces hmillis hpos hrate
      exact ⟨text, htext, htells (.inr ⟨_, hshows⟩)⟩
    · refine ⟨noData ++ unit, ?_, htells (.inl rfl)⟩
      rw [rateText, hnone]

/-- What is told by the texts of a report. -/
structure Report.Tells (r : Report) (s : Summary) (places : ℕ) : Prop where
  average : Display.Tells s.average places r.average
  onePercentLow : Display.Tells s.onePercentLow places r.onePercentLow
  tenthPercentLow : Display.Tells s.tenthPercentLow places r.tenthPercentLow

lemma exists_report_tells {places : ℕ} (hplaces : places ≤ maxDecimals) (s : Summary) :
    ∃ report, Report.ofSummary s places = .ok report ∧ report.Tells s places := by
  obtain ⟨average, haverage, htells⟩ := exists_tells hplaces s.average
  obtain ⟨onePercent, honePercent, htells'⟩ := exists_tells hplaces s.onePercentLow
  obtain ⟨tenthPercent, htenthPercent, htells''⟩ := exists_tells hplaces s.tenthPercentLow
  exact ⟨_, ofSummary_eq haverage honePercent htenthPercent, htells, htells', htells''⟩

/-- **Rates are shown unless a frame time is too short.**

* A duration has no rate or a finite positive one if and only if it is not too short.
* In a report on any summary, the text of a frame time is `--fps` or a number and the unit if and
  only if the frame time is not too short; otherwise it is `inffps`.
* So it is in the report of a bench after any run, for the summary of the window as it is then. -/
theorem rates_are_readable_iff {places : ℕ} (hplaces : places ≤ maxDecimals) :
    (∀ millis : Float, (∀ rate, (Duration.ofMillis millis).rate? = some rate →
        rate.isFinite = true ∧ 0 < rate) ↔ ¬TooShort millis)
    ∧ (∀ s : Summary, ∃ report, Report.ofSummary s places = .ok report ∧ report.Tells s places)
    ∧ ∀ (page : Page) (settings : Settings) (ops : List Bench.Operation),
        settings.decimals.toNat = places →
        let b := ((Bench.ofSettings page settings).value.performAll ops).value.2
        ∃ report, b.report.value = .ok (Report.json report)
          ∧ Report.ofSummary b.summary.value places = .ok report
          ∧ report.Tells b.summary.value places := by
  refine ⟨Duration.rate?_isFinite_iff, exists_report_tells hplaces, ?_⟩
  intro page settings ops hdecimals b
  have hsettings : b.settings = settings := Bench.settings_performAll _ ops
  obtain ⟨report, hreport, htells⟩ := exists_report_tells hplaces b.summary.value
  refine ⟨report, ?_, hreport, htells⟩
  show (Report.ofSummary b.summary.value b.settings.decimals.toNat).map _ = _
  rw [hsettings, hdecimals, hreport]
  rfl

/-- A frame time with a rate, one without, and one that is too short; and a bench after two frames,
of which none is. -/
theorem rates_are_readable_but_one :
    3 ≤ maxDecimals
      ∧ Report.ofSummary ⟨16, 0, .ofBits 1⟩ 3 = .ok ⟨"62.500fps", "--fps", "inffps"⟩
      ∧ (∃ report, Report.ofSummary ⟨16, 0, .ofBits 1⟩ 3 = .ok report
        ∧ report.Tells ⟨16, 0, .ofBits 1⟩ 3)
      ∧ let b := ((Bench.ofSettings {} {}).value.performAll
          [.update ⟨0⟩, .update ⟨16⟩]).value.2
        b.report.value = .ok (Report.json ⟨"62.500fps", "62.500fps", "62.500fps"⟩)
          ∧ ∃ report, b.report.value = .ok (Report.json report)
            ∧ Report.ofSummary b.summary.value 3 = .ok report
            ∧ report.Tells b.summary.value 3 :=
  ⟨by decide, by decide +kernel, (rates_are_readable_iff (by decide)).2.1 ⟨16, 0, .ofBits 1⟩,
    by decide +kernel, (rates_are_readable_iff (by decide)).2.2 {} {} _ rfl⟩

/-- The least frame time is positive and has an infinite rate; two readings of a clock that are that
far apart are enough for a bench to report it. -/
theorem rate_of_least_frame_time :
    (∃ rate, (Duration.ofMillis (.ofBits 1)).rate? = some rate ∧ rate.isFinite = false)
      ∧ rateText (.ofBits 1) 3 = .ok "inffps"
      ∧ ((Bench.ofSettings {} {}).value.performAll
          [.update ⟨0⟩, .update ⟨.ofBits 1⟩]).value.2.report.value
        = .ok (Report.json ⟨"inffps", "inffps", "inffps"⟩) :=
  ⟨⟨_, rfl, by decide +kernel⟩, by decide +kernel, by decide +kernel⟩

end FramePacing.Display
