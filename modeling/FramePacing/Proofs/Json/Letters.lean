import FramePacing.Json.Scan
import Mathlib.Tactic.Lemma

/-!
# Letters

The inside of a JSON string is a list of `Letter`s: characters that stand for themselves, escapes of
one letter and escapes by number.  One text can be written in many ways.  What a string says is
decided by `decode?`, on the letters and not on the characters: two numbers that are halves of a
surrogate pair make one character, and a half without the other makes none.

* `toOption_readString` — the reader decodes just so.
* `skipString_letters` — what only passes over a string does not mind a lone half.
-/

namespace FramePacing.Json

/-! ## Syntax -/

/-- One unit of a string as it is written. -/
inductive Letter where
  | plain (c : Char) (plain : c ≠ '"' ∧ c ≠ '\\' ∧ isControl c = false)
  | escape (letter c : Char) (stands : simpleEscape? letter = some c)
  | code (a b c d : Char) (n : Nat) (stands : hexNumber? a b c d = some n)
deriving DecidableEq

namespace Letter

def text : Letter → List Char
  | plain c _ => [c]
  | escape letter _ _ => ['\\', letter]
  | code a b c d _ _ => ['\\', 'u', a, b, c, d]

/-- The text of a string inside its quotation marks. -/
def texts (letters : List Letter) : List Char := letters.flatMap text

/-- The character that a surrogate pair stands for. -/
def paired (high low : Nat) : Char :=
  Char.ofNat (0x10000 + (high - 0xd800) * 0x400 + (low - 0xdc00))

/-- What a string says, unless it holds half of a surrogate pair. -/
def decode? : List Letter → Option (List Char)
  | [] => some []
  | plain c _ :: letters => (decode? letters).map (c :: ·)
  | escape _ c _ :: letters => (decode? letters).map (c :: ·)
  | code _ _ _ _ n _ :: letters =>
    if isLowSurrogate n then none
    else if isHighSurrogate n then
      match letters with
      | code _ _ _ _ m _ :: letters =>
        if isLowSurrogate m then (decode? letters).map (paired n m :: ·) else none
      | _ => none
    else (decode? letters).map (Char.ofNat n :: ·)

/-- The letters for a text in which nothing needs an escape. -/
def plainly (text : List Char) : List Letter :=
  text.filterMap fun c =>
    if h : c ≠ '"' ∧ c ≠ '\\' ∧ isControl c = false then some (plain c h) else none

end Letter

open Letter

variable {letters : List Letter} {rest : List Char}

@[simp] lemma texts_nil : texts [] = [] := rfl

lemma texts_cons (l : Letter) (letters : List Letter) :
    texts (l :: letters) = l.text ++ texts letters := rfl

/-! ## Answers

What is said of a reader is mostly what it reads if it reads anything; with which complaint it ends
otherwise is left open. -/

lemma eq_ok_of_toOption {α : Type} {x : Except Complaint α} {a : α} (h : x.toOption = some a) :
    x = .ok a := by
  cases x with
  | error e => cases h
  | ok b => cases h; rfl

lemma exists_error_of_toOption {α : Type} {x : Except Complaint α} (h : x.toOption = none) :
    ∃ e, x = .error e := by
  cases x with
  | error e => exact ⟨e, rfl⟩
  | ok b => cases h

/-- What is made of a value that was read, the text behind it being as before. -/
lemma toOption_map_value {α β : Type} {read : Except Complaint (α × List Char)} {value : Option α}
    (h : read.toOption = value.map (·, rest)) (f : α → β) :
    (read.map fun p => (f p.1, p.2)).toOption = (value.map f).map (·, rest) := by
  cases value with
  | none =>
    obtain ⟨e, he⟩ := exists_error_of_toOption h
    rw [he]
    rfl
  | some v =>
    rw [eq_ok_of_toOption h]
    rfl

/-! ## Reading -/

lemma readHexNumber_code {a b c d : Char} {n : Nat} (h : hexNumber? a b c d = some n) :
    readHexNumber (a :: b :: c :: d :: rest) = .ok (n, rest) := by
  rw [readHexNumber, h]

/-- An escape of one letter is not the start of an escape by number. -/
lemma ne_u_of_simpleEscape? {letter c : Char} (h : simpleEscape? letter = some c) :
    letter ≠ 'u' := by
  rintro rfl
  cases h

lemma readEscape_simple {letter c : Char} (h : simpleEscape? letter = some c) :
    readEscape (letter :: rest) = .ok (c, rest) := by
  have hne := ne_u_of_simpleEscape? h
  unfold readEscape
  split
  next heq => cases heq
  next heq => exact absurd (List.cons.inj heq).1 hne
  next heq =>
    obtain ⟨rfl, rfl⟩ := List.cons.inj heq
    rw [h]

/-- The second half of a pair has to be an escape by number itself. -/
lemma toOption_readPair (high : Nat) (letters : List Letter) (rest : List Char) :
    (readPair high (texts letters ++ '"' :: rest)).toOption =
      match letters with
      | .code _ _ _ _ m _ :: letters =>
        if isLowSurrogate m then some (paired high m, texts letters ++ '"' :: rest) else none
      | _ => none := by
  match letters with
  | [] => rfl
  | .plain c hc :: letters =>
    rw [texts_cons]
    change (readPair high (c :: (texts letters ++ '"' :: rest))).toOption = none
    unfold readPair
    split
    · rfl
    · rfl
    next heq => exact absurd (List.cons.inj heq).1 hc.2.1
    next heq => exact absurd (List.cons.inj heq).1 hc.2.1
    · rfl
  | .escape letter c hc :: letters =>
    rw [texts_cons]
    change (readPair high ('\\' :: letter :: (texts letters ++ '"' :: rest))).toOption = none
    have hne := ne_u_of_simpleEscape? hc
    unfold readPair
    split
    · rfl
    · rfl
    next heq => exact absurd (List.cons.inj (List.cons.inj heq).2).1 hne
    · rfl
    · rfl
  | .code a b c d m hm :: letters =>
    rw [texts_cons]
    change (readPair high ('\\' :: 'u' :: a :: b :: c :: d :: (texts letters ++ '"' :: rest))
      ).toOption = _
    rw [readPair, readHexNumber_code hm]
    dsimp only
    split <;> rfl

/-- An escape by number stands for a character, but for the first half of a pair more is read. -/
lemma toOption_readEscape_code {a b c d : Char} {n : Nat} (h : hexNumber? a b c d = some n)
    (letters : List Letter) (rest : List Char) :
    (readEscape ('u' :: a :: b :: c :: d :: (texts letters ++ '"' :: rest))).toOption =
      if isLowSurrogate n then none
      else if isHighSurrogate n then (readPair n (texts letters ++ '"' :: rest)).toOption
      else some (Char.ofNat n, texts letters ++ '"' :: rest) := by
  rw [readEscape, readCodePoint, readHexNumber_code h]
  dsimp only
  split
  · rfl
  · split <;> rfl

lemma readString_escape (s : List Char) :
    readString ('\\' :: s) =
      match readEscape s with
      | .error e => .error e
      | .ok (c, s) => (readString s).map fun p => (c :: p.1, p.2) := by
  rw [readString]
  split <;> rename_i h <;> rw [h]

lemma toOption_readString_escape {s t : List Char} {c : Char} {value : Option (List Char)}
    (hescape : (readEscape s).toOption = some (c, t))
    (h : (readString t).toOption = value.map (·, rest)) :
    (readString ('\\' :: s)).toOption = (value.map (c :: ·)).map (·, rest) := by
  rw [readString_escape, eq_ok_of_toOption hescape]
  exact toOption_map_value h (c :: ·)

lemma toOption_readString_of_escape_none {s : List Char} (h : (readEscape s).toOption = none) :
    (readString ('\\' :: s)).toOption = none := by
  obtain ⟨e, he⟩ := exists_error_of_toOption h
  rw [readString_escape, he]
  rfl

/-- **A string is read as what its letters say**, and not at all if they say nothing. -/
theorem toOption_readString (letters : List Letter) (rest : List Char) :
    (readString (texts letters ++ '"' :: rest)).toOption = (decode? letters).map (·, rest) := by
  fun_induction decode? letters with
  | case1 => rw [texts_nil, List.nil_append, readString]; rfl
  | case2 c hc letters ih =>
    rw [texts_cons]
    change (readString (c :: (texts letters ++ '"' :: rest))).toOption = _
    rw [readString.eq_4 _ _ hc.1 hc.2.1, if_neg (by simp [hc.2.2])]
    exact toOption_map_value ih (c :: ·)
  | case3 letter c hc letters ih =>
    exact toOption_readString_escape (congrArg Except.toOption (readEscape_simple hc)) ih
  | case4 a b c d n hn letters hlow =>
    have hescape := toOption_readEscape_code hn letters rest
    rw [if_pos hlow] at hescape
    exact toOption_readString_of_escape_none hescape
  | case5 a b c d n hn hlow hhigh a' b' c' d' m hm letters hm' ih =>
    have hescape := toOption_readEscape_code hn (code a' b' c' d' m hm :: letters) rest
    rw [if_neg hlow, if_pos hhigh, toOption_readPair] at hescape
    dsimp only at hescape
    rw [if_pos hm'] at hescape
    exact toOption_readString_escape hescape ih
  | case6 a b c d n hn hlow hhigh a' b' c' d' m hm letters hm' =>
    have hescape := toOption_readEscape_code hn (code a' b' c' d' m hm :: letters) rest
    rw [if_neg hlow, if_pos hhigh, toOption_readPair] at hescape
    dsimp only at hescape
    rw [if_neg hm'] at hescape
    exact toOption_readString_of_escape_none hescape
  | case7 a b c d n hn letters hlow hhigh hno =>
    have hescape := toOption_readEscape_code hn letters rest
    rw [if_neg hlow, if_pos hhigh, toOption_readPair] at hescape
    split at hescape
    · exact absurd rfl (hno _ _ _ _ _ _ _)
    · exact toOption_readString_of_escape_none hescape
  | case8 a b c d n hn letters hlow hhigh ih =>
    have hescape := toOption_readEscape_code hn letters rest
    rw [if_neg hlow, if_neg hhigh] at hescape
    exact toOption_readString_escape hescape ih

/-! ## Passing over -/

lemma skipEscape_simple {letter c : Char} (h : simpleEscape? letter = some c) :
    skipEscape (letter :: rest) = .ok rest := by
  have hne := ne_u_of_simpleEscape? h
  unfold skipEscape
  split
  next heq => cases heq
  next heq => exact absurd (List.cons.inj heq).1 hne
  next heq =>
    obtain ⟨rfl, rfl⟩ := List.cons.inj heq
    rw [h]

lemma skipString_escape (s : List Char) :
    skipString ('\\' :: s) =
      match skipEscape s with
      | .error e => .error e
      | .ok s => skipString s := by
  rw [skipString]
  split <;> rename_i h <;> rw [h]

/-- Every string is passed over, whether its letters say anything or not. -/
theorem skipString_letters (letters : List Letter) (rest : List Char) :
    skipString (texts letters ++ '"' :: rest) = .ok rest := by
  induction letters with
  | nil => rw [texts_nil, List.nil_append, skipString]
  | cons l letters ih =>
    rw [texts_cons]
    cases l with
    | plain c hc =>
      change skipString (c :: (texts letters ++ '"' :: rest)) = _
      rw [skipString.eq_4 _ _ hc.1 hc.2.1, if_neg (by simp [hc.2.2]), ih]
    | escape letter c hc =>
      change skipString ('\\' :: letter :: (texts letters ++ '"' :: rest)) = _
      rw [skipString_escape, skipEscape_simple hc]
      exact ih
    | code a b c d n hn =>
      change skipString ('\\' :: 'u' :: a :: b :: c :: d :: (texts letters ++ '"' :: rest)) = _
      rw [skipString_escape, skipEscape, readHexNumber_code hn]
      exact ih

/-! ## Writing without escapes -/

/-- Letters that stand for themselves say what is written. -/
lemma decode?_plainly {text : List Char}
    (h : ∀ c ∈ text, c ≠ '"' ∧ c ≠ '\\' ∧ isControl c = false) :
    decode? (plainly text) = some text := by
  induction text with
  | nil => rfl
  | cons c text ih =>
    rw [List.forall_mem_cons] at h
    rw [plainly, List.filterMap_cons, dif_pos h.1, decode?]
    exact congrArg (Option.map (c :: ·)) (ih h.2)

lemma texts_plainly {text : List Char}
    (h : ∀ c ∈ text, c ≠ '"' ∧ c ≠ '\\' ∧ isControl c = false) :
    texts (plainly text) = text := by
  induction text with
  | nil => rfl
  | cons c text ih =>
    rw [List.forall_mem_cons] at h
    rw [plainly, List.filterMap_cons, dif_pos h.1, texts_cons]
    exact congrArg (c :: ·) (ih h.2)

end FramePacing.Json
