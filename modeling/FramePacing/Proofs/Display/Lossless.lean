import FramePacing.Display.Report
import FramePacing.Proofs.Settings.Unambiguous

/-!
# The text of a report tells the report

A report is three strings, and any strings can be in it.  Its JSON text is always made, and it is
read by the rules for strings and objects alone: however it is read, it is an object of three
members with these strings, so no string can end early or bring in a member of its own.

* `exists_object` — the text is that of an object which says what is in the report.
* `json_is_lossless` — nothing else can be read in it, and different reports have different texts.
-/

namespace FramePacing.Display.Report

open Json (Letter)
open Settings (ObjectText Item Says)

/-- The names and strings in the text of a report. -/
def members (r : Report) : List (String × String) :=
  [("avg", r.average), ("one_percent_low", r.onePercentLow), ("tenth_percent_low", r.tenthPercentLow)]

lemma members_injective {r r' : Report} (h : r.members = r'.members) : r = r' := by
  cases r
  cases r'
  simp_all [members]

/-- The text of a report is that of an object which says what is in the report. -/
lemma exists_object (r : Report) : ∃ o : ObjectText, o.text = r.json ∧ Says o r.members :=
  Settings.exists_saying r.members

/-- **The text of a report is lossless.**  It is the text of an object, and every object with this
text has the three members of the report in this order, with just the strings that are in it.  So
two reports have the same text only if they are the same. -/
theorem json_is_lossless (r : Report) :
    (∃ o : ObjectText, o.text = r.json)
      ∧ (∀ o : ObjectText, o.text = r.json →
          Says o [("avg", r.average), ("one_percent_low", r.onePercentLow),
            ("tenth_percent_low", r.tenthPercentLow)])
      ∧ ∀ r' : Report, r.json = r'.json ↔ r = r' := by
  obtain ⟨o, hjson, hmembers⟩ := r.exists_object
  refine ⟨⟨o, hjson⟩, fun p hp => hmembers.of_text_eq (hjson.trans hp.symm), fun r' => ?_⟩
  constructor
  · intro h
    obtain ⟨o', hjson', hmembers'⟩ := r'.exists_object
    have htext : o.text = o'.text := by rw [hjson, h, hjson']
    exact members_injective (hmembers.unique hmembers' htext)
  · rintro rfl
    rfl

/-! ### A report full of marks -/

/-- A quotation mark and a backslash, what looks like a member, and a control character. -/
def marks : Report := ⟨"\"\\", "\",\"avg\":\"", "\x07é"⟩

/-- The object that is written for it. -/
def marksObject : ObjectText :=
  let mark : Letter := .escape '"' '"' rfl
  let value (letters : List Letter) : Item := .bare (.string letters)
  .bare [
    .bare "avg" (value [mark, .escape '\\' '\\' rfl]),
    .bare "one_percent_low" (value ([mark] ++ Letter.plainly [','] ++ [mark]
      ++ Letter.plainly "avg".toList ++ [mark] ++ Letter.plainly [':'] ++ [mark])),
    .bare "tenth_percent_low" (value (.code '0' '0' '0' '7' 7 rfl :: Letter.plainly ['é']))]

/-- It is read back, and it is not taken for a report with one string in the place of another. -/
theorem json_is_lossless_of_marks :
    marksObject.text = marks.json
      ∧ Says marksObject [("avg", "\"\\"), ("one_percent_low", "\",\"avg\":\""),
          ("tenth_percent_low", "\x07é")]
      ∧ marks.json ≠ Report.json ⟨"\",\"avg\":\"", "\"\\", "\x07é"⟩ := by
  have htext : marksObject.text = marks.json := by decide +kernel
  refine ⟨htext, (json_is_lossless marks).2.1 marksObject htext, ?_⟩
  rw [Ne, (json_is_lossless marks).2.2]
  decide

end FramePacing.Display.Report
