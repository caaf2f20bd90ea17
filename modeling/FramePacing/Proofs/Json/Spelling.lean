import FramePacing.Json.Writer
import FramePacing.Proofs.Json.Letters

/-!
# Strings as they are written

The writer spells each character of a string with one letter: a character that may not stand for
itself with an escape, any other with itself.  What is spelled so says the string again, so nothing
of a string is lost in writing it, and nothing in it can be taken for its end.

* `exists_letters` — the letters that a string is written with.
* `IsString` — a value that is a string, in whatever letters, and `quote_isString`: what is written
  for a string is one.
* `IsString.unique` — a value is one string at most.
-/

namespace FramePacing.Json

open Letter

/-! ## Spelling -/

/-- A control character has a number of two digits at most. -/
lemma hexNumber?_control {n : Nat} (h : n < 0x20) :
    hexNumber? '0' '0' (hexDigit (n / 16)) (hexDigit n) = some n := by
  have hall : ∀ n < 0x20, hexNumber? '0' '0' (hexDigit (n / 16)) (hexDigit n) = some n := by decide
  exact hall n h

/-- **Each character is spelled with one letter**, which says that character. -/
lemma exists_letter (c : Char) :
    ∃ l : Letter, l.text = escape c
      ∧ ∀ letters, decode? (l :: letters) = (decode? letters).map (c :: ·) := by
  unfold escape
  split
  · exact ⟨.escape '"' '"' rfl, rfl, fun _ => rfl⟩
  · exact ⟨.escape '\\' '\\' rfl, rfl, fun _ => rfl⟩
  · exact ⟨.escape 'b' '\x08' rfl, rfl, fun _ => rfl⟩
  · exact ⟨.escape 'f' '\x0c' rfl, rfl, fun _ => rfl⟩
  · exact ⟨.escape 'n' '\n' rfl, rfl, fun _ => rfl⟩
  · exact ⟨.escape 'r' '\r' rfl, rfl, fun _ => rfl⟩
  · exact ⟨.escape 't' '\t' rfl, rfl, fun _ => rfl⟩
  next hquote hbackslash _ _ _ _ _ =>
    split
    next hcontrol =>
      refine ⟨.code _ _ _ _ c.toNat (hexNumber?_control hcontrol), rfl, fun letters => ?_⟩
      have hlow : isLowSurrogate c.toNat = false := by simp [isLowSurrogate]; omega
      have hhigh : isHighSurrogate c.toNat = false := by simp [isHighSurrogate]; omega
      rw [decode?.eq_def]
      simp [hlow, hhigh, Char.ofNat_toNat]
    next hcontrol =>
      have hplain : isControl c = false := by simpa [isControl] using hcontrol
      exact ⟨.plain c ⟨hquote, hbackslash, hplain⟩, rfl, fun _ => rfl⟩

theorem exists_letters (s : List Char) :
    ∃ letters, texts letters = s.flatMap escape ∧ decode? letters = some s := by
  induction s with
  | nil => exact ⟨[], rfl, rfl⟩
  | cons c s ih =>
    obtain ⟨l, htext, hdecode⟩ := exists_letter c
    obtain ⟨letters, htexts, hletters⟩ := ih
    refine ⟨l :: letters, ?_, ?_⟩
    · rw [texts_cons, htext, htexts, List.flatMap_cons]
    · rw [hdecode, hletters]
      rfl

/-! ## Values -/

/-- The letters of a string end at one place, and what they say is decided by the text. -/
lemma decode?_of_texts_eq {letters letters' : List Letter} {s t : List Char}
    (h : texts letters ++ '"' :: s = texts letters' ++ '"' :: t) :
    decode? letters = decode? letters' ∧ s = t := by
  have hskip := skipString_letters letters s
  rw [h, skipString_letters] at hskip
  obtain rfl : t = s := Except.ok.inj hskip
  have hread := toOption_readString letters t
  rw [h, toOption_readString] at hread
  exact ⟨Option.map_injective (fun _ _ h => (Prod.mk.inj h).1) hread.symm, rfl⟩

/-- That a value is a string and says `s`. -/
def IsString (v s : List Char) : Prop :=
  ∃ letters, v = '"' :: (texts letters ++ ['"']) ∧ decode? letters = some s

/-- **What is written for a string says that string.** -/
theorem quote_isString (s : String) : IsString (quote s).toList s.toList := by
  obtain ⟨letters, htexts, hdecode⟩ := exists_letters s.toList
  refine ⟨letters, ?_, hdecode⟩
  rw [quote, String.toList_ofList, htexts, List.cons_append]

lemma IsString.unique {v s t : List Char} (h : IsString v s) (h' : IsString v t) : s = t := by
  obtain ⟨letters, rfl, hs⟩ := h
  obtain ⟨letters', htexts, ht⟩ := h'
  obtain ⟨hdecode, -⟩ := decode?_of_texts_eq (List.cons.inj htexts).2
  rw [hs, ht] at hdecode
  exact Option.some.inj hdecode

end FramePacing.Json
