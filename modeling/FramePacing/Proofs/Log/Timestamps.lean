import FramePacing.Log.Clock
import FramePacing.Proofs.Binary.Whole
import FramePacing.Proofs.Duration.Total
import FramePacing.Proofs.Json.Digits

/-!
# Reading timestamps back

The stamp of a log entry is cut down to whole milliseconds, and these are written as a time of day.
A `TimeText` is such a time by its digits.  The digits can be found in the text again, because each
field ends before the first character that is no digit; and the numbers that they stand for make up
the milliseconds.  So nothing but what is behind the point, or out of range, is lost on the way.

* `wholeMillis_eq` — how a stamp is cut down, any float being a stamp.
* `TimeText.eq_of_text_eq` — a text is that of one time at most.
* `timestamps_read_back` — what is written for a stamp, and when two stamps look the same.
-/

/-! ## Digits -/

namespace FramePacing.Json.Digits

/-- The number that digits stand for. -/
def number (d : Digits) : ℕ := Nat.ofDigitChars 10 d.chars 0

/-- The digits of a natural number, with zeros in front if they are fewer than `width`. -/
def padded (width n : ℕ) : Digits where
  chars := (Nat.toDigits 10 n).leftpad width '0'
  nonempty := by simp [List.leftpad, Nat.toDigits_ne_nil]
  isDigit c hc := (List.mem_append.mp hc).elim (isDigit_replicate _ c) ((Digits.ofNat n).isDigit c)

variable {d e : Digits} {s t : List Char} {sep : Char} {width n : ℕ}

lemma number_padded (width n : ℕ) : (padded width n).number = n := by
  have hchars : (padded width n).chars
      = List.replicate (width - (Nat.toDigits 10 n).length) '0' ++ Nat.toDigits 10 n := rfl
  rw [number, hchars, Nat.ofDigitChars_append, Nat.ofDigitChars_replicate_zero]
  exact ofDigitChars_ofNat n

lemma length_padded (width n : ℕ) :
    (padded width n).chars.length = max width (Nat.toDigits 10 n).length :=
  List.length_leftpad ..

lemma length_padded_of_lt (hwidth : 0 < width) (h : n < 10 ^ width) :
    (padded width n).chars.length = width := by
  rw [length_padded]
  exact max_eq_left ((Nat.length_toDigits_le_iff (by decide) hwidth).mpr h)

lemma toList_padded (width n : ℕ) : (Decimal.padded width n).toList = (padded width n).chars :=
  String.toList_ofList

lemma eq_of_chars_eq (h : d.chars = e.chars) : d = e := by
  cases d
  cases e
  cases h
  rfl

/-- Digits end before a character that is none. -/
lemma eq_of_append_eq (hsep : sep.isDigit = false)
    (h : d.chars ++ sep :: s = e.chars ++ sep :: t) : d = e ∧ s = t := by
  have hstop (r : List Char) : ∀ c ∈ (sep :: r).head?, c.isDigit = false := by simpa using hsep
  have htake : d.chars = e.chars := by
    rw [← takeWhile_digits d (hstop s), h, takeWhile_digits e (hstop t)]
  have hdrop : sep :: s = sep :: t := by
    rw [← dropWhile_digits d (hstop s), h, dropWhile_digits e (hstop t)]
  exact ⟨eq_of_chars_eq htake, (List.cons.inj hdrop).2⟩

end FramePacing.Json.Digits

namespace FramePacing.Log

open Binary
open Json (Digits)
open Float.Model Float.Model.UnpackedFloat

/-! ## Cutting a stamp down -/

/-- A stamp in whole milliseconds: what is negative or not a number counts as zero, and what is too
large for 64 bits as the largest number that is not. -/
def truncated (t : Float) : ℕ :=
  if t.isNaN = true ∨ t < 0 then 0
  else if 18446744073709551616 ≤ t then 2 ^ 64 - 1
  else ⌊value t⌋₊

section Stamp

variable {t : Float} {s : Sign} {q : ℚ}

lemma isFinite_limit : (18446744073709551616 : Float).isFinite = true := by decide +kernel

lemma value_limit : value 18446744073709551616 = 2 ^ 64 := by decide +kernel

/-- A finite stamp is compared by its value. -/
lemma truncated_of_canonical (h : Canonical s q t.toModel.unpack) :
    truncated t = min (s.apply ⌊q⌋₊).toNat (2 ^ 64 - 1) := by
  have hq := h.nonneg
  have hnegative := lt_iff_value_lt h.isFinite Duration.isFinite_zero
  have hlarge := le_iff_value_le isFinite_limit h.isFinite
  rw [h.value_eq, Duration.value_zero] at hnegative
  rw [h.value_eq, value_limit] at hlarge
  simp only [truncated, Duration.isNaN_of_isFinite h.isFinite, Bool.false_eq_true, false_or,
    hnegative, hlarge, h.value_eq]
  cases s with
  | negative =>
    have hnone : ⌊-q⌋₊ = 0 := Nat.floor_of_nonpos (by linarith)
    have hsmall : ¬2 ^ 64 ≤ -q := by linarith [show (0 : ℚ) < 2 ^ 64 by norm_num]
    simp [signed, hnone, hsmall, Sign.apply]
  | positive =>
    rw [signed, if_neg hq.not_gt, Sign.apply, Int.toNat_natCast]
    split_ifs with hlimit
    · have hfloor : 2 ^ 64 ≤ ⌊q⌋₊ := Nat.le_floor (by exact_mod_cast hlimit)
      exact (min_eq_right (by omega)).symm
    · have hfloor : ⌊q⌋₊ < 2 ^ 64 := (Nat.floor_lt hq).mpr (by exact_mod_cast not_le.mp hlimit)
      exact (min_eq_left (by omega)).symm

/-- Any finite number is less than the infinite one. -/
lemma limit_le_of_infinite (h : t.toModel.unpack = .infinity .positive) :
    18446744073709551616 ≤ t := by
  obtain ⟨s, q, hlimit, -⟩ := exists_canonical isFinite_limit
  refine le_iff_compare.mpr ⟨.lt, ?_, by decide⟩
  rw [h]
  generalize (18446744073709551616 : Float).toModel.unpack = u at hlimit
  cases hlimit <;> rfl

/-- Stamps that are not finite are all out of range. -/
lemma wholeMillis_of_not_isFinite (h : ¬t.isFinite = true) : wholeMillis t = truncated t := by
  have hword : wholeMillis t = t.toModel.unpack.toUInt64.toNat := rfl
  have hnumber : t.isNaN = t.toModel.unpack.isNaN := rfl
  change ¬t.toModel.unpack.isFinite = true at h
  cases hunpack : t.toModel.unpack with
  | notANumber =>
    rw [hunpack] at hword hnumber
    rw [hword, truncated, if_pos (Or.inl (show t.isNaN = true from hnumber))]
    rfl
  | infinity s =>
    rw [hunpack] at hword hnumber
    cases s with
    | negative =>
      have hnegative : t < 0 := lt_iff_compare.mpr (by rw [hunpack]; rfl)
      rw [hword, truncated, if_pos (Or.inr hnegative)]
      rfl
    | positive =>
      have hpositive : ¬t < 0 := by
        rw [lt_iff_compare, hunpack]
        decide
      have hin : ¬(t.isNaN = true ∨ t < 0) := by
        rw [hnumber]
        exact not_or.mpr ⟨Bool.false_ne_true, hpositive⟩
      rw [hword, truncated, if_neg hin, if_pos (limit_le_of_infinite hunpack)]
      rfl
  | _ =>
    rw [hunpack] at h
    exact absurd rfl h

/-- **A stamp is cut down to whole milliseconds**, whatever float it is. -/
theorem wholeMillis_eq (t : Float) : wholeMillis t = truncated t := by
  by_cases hfinite : t.isFinite = true
  · obtain ⟨s, q, h, -⟩ := exists_canonical hfinite
    rw [truncated_of_canonical h]
    exact h.toNat_toUInt64
  · exact wholeMillis_of_not_isFinite hfinite

end Stamp

/-! ## Times of day -/

/-- A time as `HH:MM:SS.mmm`, with any number of hours. -/
structure TimeText where
  hours : Digits
  minutes : Digits
  seconds : Digits
  millis : Digits
  two_le_hours : 2 ≤ hours.chars.length
  length_minutes : minutes.chars.length = 2
  length_seconds : seconds.chars.length = 2
  length_millis : millis.chars.length = 3
deriving DecidableEq

namespace TimeText

def text (x : TimeText) : String :=
  String.ofList (x.hours.chars ++ ':' :: (x.minutes.chars ++ ':' ::
    (x.seconds.chars ++ '.' :: x.millis.chars)))

/-- The milliseconds of a time. -/
def total (x : TimeText) : ℕ :=
  ((x.hours.number * 60 + x.minutes.number) * 60 + x.seconds.number) * 1000 + x.millis.number

/-- **A text is that of one time.** -/
theorem eq_of_text_eq {x y : TimeText} (h : x.text = y.text) : x = y := by
  obtain ⟨hhours, h⟩ := Digits.eq_of_append_eq (by decide) (String.ofList_injective h)
  obtain ⟨hminutes, h⟩ := Digits.eq_of_append_eq (by decide) h
  obtain ⟨hseconds, hmillis⟩ := Digits.eq_of_append_eq (by decide) h
  cases x
  cases y
  cases hhours
  cases hminutes
  cases hseconds
  cases Digits.eq_of_chars_eq hmillis
  rfl

/-- The time that is shown for a number of milliseconds. -/
def ofMillis (n : ℕ) : TimeText where
  hours := .padded 2 (n / 1000 / 3600)
  minutes := .padded 2 (n / 1000 / 60 % 60)
  seconds := .padded 2 (n / 1000 % 60)
  millis := .padded 3 (n % 1000)
  two_le_hours := by
    rw [Digits.length_padded]
    exact le_max_left ..
  length_minutes := Digits.length_padded_of_lt (by decide) (by omega)
  length_seconds := Digits.length_padded_of_lt (by decide) (by omega)
  length_millis := Digits.length_padded_of_lt (by decide) (by omega)

lemma text_ofMillis (n : ℕ) : (ofMillis n).text = timeOfDay n := by
  rw [← String.toList_inj, text, timeOfDay]
  simp [Digits.toList_padded, ofMillis]

/-- **The fields make up the milliseconds again.** -/
theorem total_ofMillis (n : ℕ) : (ofMillis n).total = n := by
  simp only [total, ofMillis, Digits.number_padded]
  omega

end TimeText

/-- The text of a stamp. -/
lemma format_performance (t : Float) :
    Clock.performance.format t = (TimeText.ofMillis (truncated t)).text := by
  rw [Clock.format, wholeMillis_eq, TimeText.text_ofMillis]

/-- **Timestamps can be read back.**  The text of a stamp is that of one time and no other, with
minutes and seconds below sixty, and this time has as many milliseconds as the stamp is cut down to.
So two stamps have the same text if and only if they are cut down to the same. -/
theorem timestamps_read_back (t : Float) :
    ∃ x : TimeText, (∀ y : TimeText, Clock.performance.format t = y.text ↔ y = x)
      ∧ x.minutes.number < 60 ∧ x.seconds.number < 60 ∧ x.total = truncated t
      ∧ ∀ u : Float, Clock.performance.format t = Clock.performance.format u
          ↔ truncated t = truncated u := by
  refine ⟨.ofMillis (truncated t), ?_, ?_, ?_, TimeText.total_ofMillis _, ?_⟩
  · intro y
    rw [format_performance]
    constructor
    · intro h
      exact (TimeText.eq_of_text_eq h).symm
    · rintro rfl
      rfl
  · rw [TimeText.ofMillis, Digits.number_padded]
    exact Nat.mod_lt _ (by decide)
  · rw [TimeText.ofMillis, Digits.number_padded]
    exact Nat.mod_lt _ (by decide)
  · intro u
    rw [format_performance, format_performance]
    constructor
    · intro h
      rw [← TimeText.total_ofMillis (truncated t), TimeText.eq_of_text_eq h,
        TimeText.total_ofMillis]
    · intro h
      rw [h]

/-- The last millisecond before an hour is full, and the last one that there is. -/
example :
    Clock.performance.format 3599999.9 = "00:59:59.999"
      ∧ Clock.performance.format 1e300 = "5124095576030:25:51.615" := by
  decide +kernel

end FramePacing.Log
