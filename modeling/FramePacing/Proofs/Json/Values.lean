import FramePacing.Json.Found
import FramePacing.Proofs.Json.Letters
import FramePacing.Proofs.Json.Numeral

/-!
# Values

`Written` is the grammar of JSON: what texts are values, items inside a bracket, and sequences of
items.  The loop that passes over values knows no grammar.  It only keeps the list of brackets that
are still open, and so what it does at one place of the text depends on a whole history.  The proof
that it never loses its place is an induction on the grammar, and the statement for each part of it
is about any list of open brackets and any text behind: having passed over a value, the loop goes on
with the same brackets behind it (`Passes`).

* `skipValue_written` — the loop passes over a value exactly, however deeply it is nested.
* `toOption_readAmount` — what a value is read as, where a number is asked for, depends on the value
  alone.
-/

namespace FramePacing.Json

/-! ## Syntax -/

/-- Whether a text consists of blanks. -/
def Blank (s : List Char) : Prop := ∀ c ∈ s, isBlank c = true

instance (s : List Char) : Decidable (Blank s) :=
  List.decidableBAll (fun c => isBlank c = true) s

def Bracket.opening : Bracket → Char
  | .list => '['
  | .object => '\x7b'

/-- The parts of JSON text. -/
inductive Part where
  | value
  /-- What stands between commas. -/
  | item (inside : Bracket)
  /-- One item or more, with commas between them. -/
  | items (inside : Bracket)

/-- The texts of each part. -/
inductive Written : Part → List Char → Prop
  | nothing : Written .value ['n', 'u', 'l', 'l']
  | yes : Written .value ['t', 'r', 'u', 'e']
  | no : Written .value ['f', 'a', 'l', 's', 'e']
  | number (n : Numeral) : Written .value n.text
  | string (letters : List Letter) : Written .value ('"' :: (Letter.texts letters ++ ['"']))
  | empty (b : Bracket) {s : List Char} (hs : Blank s) :
      Written .value (b.opening :: (s ++ [b.closing]))
  | enclosed (b : Bracket) {s : List Char} (h : Written (.items b) s) :
      Written .value (b.opening :: (s ++ [b.closing]))
  | element {s v t : List Char} (hs : Blank s) (h : Written .value v) (ht : Blank t) :
      Written (.item .list) (s ++ (v ++ t))
  | member {s t u v w : List Char} (hs : Blank s) (key : List Letter) (ht : Blank t) (hu : Blank u)
      (h : Written .value v) (hw : Blank w) :
      Written (.item .object)
        (s ++ '"' :: (Letter.texts key ++ '"' :: (t ++ ':' :: (u ++ (v ++ w)))))
  | last {b : Bracket} {s : List Char} (h : Written (.item b) s) : Written (.items b) s
  | more {b : Bracket} {s t : List Char} (h : Written (.item b) s) (ht : Written (.items b) t) :
      Written (.items b) (s ++ ',' :: t)

/-! ## Blanks -/

variable {s t v rest : List Char} {outer : List Bracket} {inner : Bracket}

lemma Blank.nil : Blank [] := by
  intro c hc
  cases hc

lemma dropBlanks_append (hs : Blank s) : dropBlanks (s ++ rest) = dropBlanks rest :=
  List.dropWhile_append_of_pos hs

lemma dropBlanks_cons {c : Char} (h : isBlank c = false) : dropBlanks (c :: rest) = c :: rest :=
  List.dropWhile_cons_of_neg (by simp [h])

lemma skipStart_append (hs : Blank s) : skipStart outer (s ++ rest) = skipStart outer rest := by
  rw [skipStart, skipStart, dropBlanks_append hs]

lemma skipNext_append (hs : Blank s) :
    skipNext inner outer (s ++ rest) = skipNext inner outer rest := by
  rw [skipNext, skipNext, dropBlanks_append hs]

lemma readColon_append (hs : Blank s) : readColon (s ++ ':' :: rest) = .ok rest := by
  rw [readColon, dropBlanks_append hs, dropBlanks_cons (by decide)]
  rfl

/-! ## What a part starts with -/

/-- Whether a value may start with a character. -/
def startsValue (c : Char) : Bool :=
  c.isDigit || ['n', 't', 'f', '-', '"', '[', '\x7b'].contains c

lemma not_isBlank_of_startsValue {c : Char} (h : startsValue c = true) : isBlank c = false := by
  rw [← Bool.not_eq_true]
  intro hblank
  simp only [isBlank, Bool.or_eq_true, beq_iff_eq] at hblank
  obtain ((rfl | rfl) | rfl) | rfl := hblank <;> revert h <;> decide

lemma ne_closing_of_startsValue {c : Char} (h : startsValue c = true) (b : Bracket) :
    c ≠ b.closing := by
  rintro rfl
  cases b <;> revert h <;> decide

lemma Numeral.exists_cons (n : Numeral) :
    ∃ c t, n.text = c :: t ∧ (c.isDigit || c == '-') = true := by
  obtain ⟨c, t, hchars, hdigit⟩ := exists_cons_digits n.whole
  cases hnegative : n.negative with
  | true => exact ⟨'-', n.unsigned, by rw [Numeral.text, if_pos hnegative], by decide⟩
  | false =>
    refine ⟨c, t ++ (Numeral.fractionText n.fraction ++ Numeral.powerText n.power), ?_, ?_⟩
    · rw [Numeral.text, if_neg (by simp [hnegative]), Numeral.unsigned, hchars, List.cons_append]
    · simp [hdigit]

lemma Written.exists_cons (h : Written .value v) : ∃ c t, v = c :: t ∧ startsValue c = true := by
  cases h with
  | number n =>
    obtain ⟨c, t, htext, hc⟩ := n.exists_cons
    refine ⟨c, t, htext, ?_⟩
    rcases Bool.or_eq_true_iff.mp hc with hdigit | hminus
    · simp [startsValue, hdigit]
    · rw [beq_iff_eq.mp hminus]; decide
  | nothing => exact ⟨_, _, rfl, by decide⟩
  | yes => exact ⟨_, _, rfl, by decide⟩
  | no => exact ⟨_, _, rfl, by decide⟩
  | string letters => exact ⟨_, _, rfl, by decide⟩
  | empty b hs => exact ⟨_, _, rfl, by cases b <;> decide⟩
  | enclosed b hs => exact ⟨_, _, rfl, by cases b <;> decide⟩

/-- Nothing is left of a value by blanks that are dropped. -/
lemma Written.dropBlanks (h : Written .value v) :
    Json.dropBlanks (v ++ rest) = v ++ rest := by
  obtain ⟨c, t, rfl, hc⟩ := h.exists_cons
  exact dropBlanks_cons (not_isBlank_of_startsValue hc)

/-- An item does not look like the end of what it stands in. -/
lemma Written.item_ne_closing {b : Bracket} (h : Written (.item b) s) (rest : List Char) :
    ∃ c t, Json.dropBlanks (s ++ rest) = c :: t ∧ c ≠ b.closing := by
  cases h with
  | element hs hv ht =>
    obtain ⟨c, u, rfl, hc⟩ := hv.exists_cons
    rw [List.append_assoc, dropBlanks_append hs]
    exact ⟨c, _, dropBlanks_cons (not_isBlank_of_startsValue hc), ne_closing_of_startsValue hc _⟩
  | member hs key ht hu hv hw =>
    rw [List.append_assoc, dropBlanks_append hs]
    exact ⟨'"', _, dropBlanks_cons (by decide), by decide⟩

lemma Written.items_ne_closing {b : Bracket} (h : Written (.items b) s) (rest : List Char) :
    ∃ c t, Json.dropBlanks (s ++ rest) = c :: t ∧ c ≠ b.closing := by
  cases h with
  | last h => exact h.item_ne_closing rest
  | more h ht => rw [List.append_assoc]; exact h.item_ne_closing _

/-! ## Passing over -/

/-- The loop, from a step that has been made. -/
def goOn (step : Except Complaint (Awaited × List Char)) : Except Complaint (List Char) :=
  match step with
  | .error e => .error e
  | .ok (awaited, rest) => skipFrom awaited rest

lemma skipFrom_value : skipFrom (.value outer) s = goOn (skipStart outer s) := by
  rw [skipFrom]
  split <;> rename_i h <;> rw [h] <;> rfl

lemma skipFrom_first : skipFrom (.first inner outer) s = goOn (skipFirst inner outer s) := by
  rw [skipFrom]
  split <;> rename_i h <;> rw [h] <;> rfl

lemma skipFrom_next : skipFrom (.next (inner :: outer)) s = goOn (skipNext inner outer s) := by
  rw [skipFrom]
  split <;> rename_i h <;> rw [h] <;> rfl

/-- Behind a value inside a bracket, blanks do not count. -/
lemma skipFrom_next_append (hs : Blank s) :
    skipFrom (.next (inner :: outer)) (s ++ rest) = skipFrom (.next (inner :: outer)) rest := by
  rw [skipFrom_next, skipFrom_next, skipNext_append hs]

lemma skipFrom_next_closing :
    skipFrom (.next (inner :: outer)) (inner.closing :: rest) = skipFrom (.next outer) rest := by
  rw [skipFrom_next]
  cases inner <;> rfl

lemma skipFrom_next_comma :
    skipFrom (.next (inner :: outer)) (',' :: rest) = goOn (skipItem inner outer rest) := by
  rw [skipFrom_next]
  cases inner <;> rfl

/-- What stands behind an item. -/
def EndsItem (b : Bracket) (s : List Char) : Prop := ∃ t, s = ',' :: t ∨ s = b.closing :: t

lemma EndsItem.stops {b : Bracket} (h : EndsItem b s) : Stops s := by
  obtain ⟨t, rfl | rfl⟩ := h
  · exact stops_cons.mpr (by decide)
  · exact stops_cons.mpr (by cases b <;> decide)

lemma Stops.of_blank (hs : Blank s) (h : Stops rest) : Stops (s ++ rest) := by
  cases s with
  | nil => exact h
  | cons c s =>
    have hc := hs c List.mem_cons_self
    simp only [isBlank, Bool.or_eq_true, beq_iff_eq] at hc
    refine stops_cons.mpr ?_
    obtain ((rfl | rfl) | rfl) | rfl := hc <;> decide

/-- That the loop passes over a text, with any brackets open and any text behind. -/
def Passes : Part → List Char → Prop
  | .value, v => ∀ outer rest, Stops rest →
      skipFrom (.value outer) (v ++ rest) = skipFrom (.next outer) rest
  | .item b, s => ∀ outer rest, EndsItem b rest →
      goOn (skipItem b outer (s ++ rest)) = skipFrom (.next (b :: outer)) rest
  | .items b, s => ∀ outer rest,
      goOn (skipItem b outer (s ++ b.closing :: rest)) = skipFrom (.next outer) rest

lemma skipStart_bracket (b : Bracket) :
    skipStart outer (b.opening :: rest) = .ok (.first b outer, rest) := by
  cases b <;> rfl

lemma skipKey_letters (hs : Blank s) (key : List Letter) (ht : Blank t) :
    skipKey (s ++ '"' :: (Letter.texts key ++ '"' :: (t ++ ':' :: rest))) = .ok rest := by
  rw [skipKey, dropBlanks_append hs, dropBlanks_cons (by decide)]
  simp only [skipString_letters]
  exact readColon_append ht

lemma skipStart_scalar {c : Char} (hblank : isBlank c = false) (hlist : c ≠ '[')
    (hobject : c ≠ '\x7b') :
    skipStart outer (c :: s) = (skipScalar (c :: s)).map (.next outer, ·) := by
  rw [skipStart, dropBlanks_cons hblank]
  split
  next heq => cases heq
  next heq => exact absurd (List.cons.inj heq).1 hlist
  next heq => exact absurd (List.cons.inj heq).1 hobject
  · rfl

/-- A digit starts no word, no string and no sign. -/
lemma ne_of_isDigit {c d : Char} (h : c.isDigit = true) (hd : d.isDigit = false) : c ≠ d := by
  rintro rfl
  rw [h] at hd
  cases hd

lemma skipScalar_digit {c : Char} (h : c.isDigit = true) :
    skipScalar (c :: s) = skipUnsigned (c :: s) := by
  have hne {d : Char} {t : List Char} (hd : d.isDigit = false) : c :: s ≠ d :: t :=
    fun heq => ne_of_isDigit h hd (List.cons.inj heq).1
  unfold skipScalar
  split
  next heq => exact absurd heq (hne (by decide))
  next heq => exact absurd heq (hne (by decide))
  next heq => exact absurd heq (hne (by decide))
  next heq => exact absurd heq (hne (by decide))
  next heq => exact absurd heq (hne (by decide))
  · rw [if_pos (by simpa [startsWithDigit] using h)]

lemma skipScalar_numeral (n : Numeral) (h : Stops rest) :
    skipScalar (n.text ++ rest) = .ok rest := by
  have hskip := skipUnsigned_numeral n h
  rw [Numeral.text]
  cases n.negative with
  | true => exact hskip
  | false =>
    obtain ⟨c, t, hchars, hdigit⟩ := exists_cons_digits n.whole
    rw [if_neg Bool.false_ne_true]
    rw [Numeral.unsigned, hchars] at hskip ⊢
    exact (skipScalar_digit hdigit).trans hskip

lemma skipStart_numeral (n : Numeral) (h : Stops rest) :
    skipStart outer (n.text ++ rest) = .ok (.next outer, rest) := by
  obtain ⟨c, t, htext, hc⟩ := n.exists_cons
  have hskip := skipScalar_numeral n h
  rw [htext, List.cons_append] at hskip ⊢
  have hne {d : Char} (hd : (d.isDigit || d == '-') = false) : c ≠ d := by
    rintro rfl
    rw [hc] at hd
    cases hd
  have hblank : isBlank c = false := by
    simp [isBlank, hne (d := ' ') (by decide), hne (d := '\n') (by decide),
      hne (d := '\t') (by decide), hne (d := '\r') (by decide)]
  rw [skipStart_scalar hblank (hne (by decide)) (hne (by decide)), hskip]
  rfl

/-- **The loop passes over whatever the grammar derives.** -/
theorem Written.passes {p : Part} (h : Written p s) : Passes p s := by
  induction h with
  | nothing => intro outer rest _; rw [skipFrom_value]; rfl
  | yes => intro outer rest _; rw [skipFrom_value]; rfl
  | no => intro outer rest _; rw [skipFrom_value]; rfl
  | number n =>
    intro outer rest hrest
    rw [skipFrom_value, skipStart_numeral n hrest]
    rfl
  | string letters =>
    intro outer rest _
    rw [skipFrom_value, List.cons_append, List.append_assoc,
      skipStart_scalar (by decide) (by decide) (by decide)]
    change goOn ((skipString (Letter.texts letters ++ '"' :: rest)).map _) = _
    rw [skipString_letters]
    rfl
  | empty b hs =>
    intro outer rest _
    rw [skipFrom_value, List.cons_append, skipStart_bracket]
    change skipFrom (.first b outer) _ = _
    rw [skipFrom_first, skipFirst, List.append_assoc, dropBlanks_append hs]
    cases b <;> rfl
  | enclosed b h ih =>
    intro outer rest _
    rw [skipFrom_value, List.cons_append, skipStart_bracket]
    change skipFrom (.first b outer) _ = _
    obtain ⟨c, t, hdrop, hc⟩ := h.items_ne_closing ([b.closing] ++ rest)
    rw [skipFrom_first, skipFirst, List.append_assoc, hdrop]
    dsimp only
    rw [if_neg hc]
    exact ih outer rest
  | element hs h ht ih =>
    intro outer rest hrest
    rw [skipItem, List.append_assoc, skipStart_append hs, List.append_assoc, ← skipFrom_value,
      ih _ _ (.of_blank ht hrest.stops), skipFrom_next_append ht]
  | member hs key ht hu h hw ih =>
    intro outer rest hrest
    rw [skipItem]
    simp only [List.append_assoc, List.cons_append]
    rw [skipKey_letters hs key ht]
    change skipFrom (.value (.object :: outer)) _ = _
    rw [skipFrom_value, skipStart_append hu, ← skipFrom_value, ih _ _ (.of_blank hw hrest.stops),
      skipFrom_next_append hw]
  | last h ih =>
    intro outer rest
    rw [ih outer _ ⟨rest, .inr rfl⟩, skipFrom_next_closing]
  | more h ht ih iht =>
    intro outer rest
    rw [List.append_assoc, List.cons_append, ih outer _ ⟨_, .inl rfl⟩, skipFrom_next_comma,
      iht outer rest]

/-- **A value is passed over exactly**, with the blanks in front of it. -/
theorem skipValue_written (hs : Blank s) (h : Written .value v) (hrest : Stops rest) :
    skipValue (s ++ (v ++ rest)) = .ok rest := by
  rw [skipValue, skipFrom_value, skipStart_append hs, ← skipFrom_value, h.passes [] rest hrest,
    skipFrom]

/-! ## Reading a number -/

/-- The number that a value is, if it is one and in range. -/
def amount? (v : List Char) : Option Number :=
  if startsWithNumber v then (readNumber v).toOption.map Prod.fst else none

lemma startsWithNumber_numeral (n : Numeral) (rest : List Char) :
    startsWithNumber (n.text ++ rest) = true := by
  obtain ⟨c, t, htext, hc⟩ := n.exists_cons
  rw [htext]
  simpa [startsWithNumber, Bool.or_comm] using hc

lemma amount?_numeral (n : Numeral) : amount? n.text = n.number? := by
  have hnumber := startsWithNumber_numeral n []
  have hread := toOption_readNumber n Stops.nil
  rw [List.append_nil] at hnumber hread
  rw [amount?, if_pos hnumber, hread, Option.map_map]
  exact Option.map_id'

lemma readAmount_append (hs : Blank s) (expected : String) :
    readAmount expected (s ++ rest) = readAmount expected rest := by
  rw [readAmount, readAmount, dropBlanks_append hs]

lemma readAmount_numeral (n : Numeral) (expected : String) :
    readAmount expected (n.text ++ rest) = readNumber (n.text ++ rest) := by
  have hnumber := startsWithNumber_numeral n rest
  rw [readAmount, (Written.number n).dropBlanks]
  obtain ⟨c, t, htext, -⟩ := n.exists_cons
  rw [htext, List.cons_append] at hnumber ⊢
  exact if_pos hnumber

/-- Where a number is asked for, no other value is taken. -/
lemma toOption_readAmount_other (h : Written .value v)
    (hother : ∀ t, startsWithNumber (v ++ t) = false) (expected : String) :
    (readAmount expected (v ++ rest)).toOption = none := by
  have hnumber := hother rest
  rw [readAmount, h.dropBlanks]
  obtain ⟨c, t, rfl, -⟩ := h.exists_cons
  rw [List.cons_append] at hnumber ⊢
  change (if startsWithNumber _ then _ else _ : Except Complaint (Number × List Char)).toOption = _
  rw [if_neg (by simp [hnumber])]
  rfl

lemma amount?_other (h : startsWithNumber v = false) : amount? v = none := by
  rw [amount?, if_neg (by simp [h])]

/-- **Which number a value is read as depends on the value alone.** -/
theorem toOption_readAmount (h : Written .value v) (hrest : Stops rest) (expected : String) :
    (readAmount expected (v ++ rest)).toOption = (amount? v).map (·, rest) := by
  have other (hother : ∀ t, startsWithNumber (v ++ t) = false) :
      (readAmount expected (v ++ rest)).toOption = (amount? v).map (·, rest) := by
    have hnone := hother []
    rw [List.append_nil] at hnone
    rw [toOption_readAmount_other h hother, amount?_other hnone]
    rfl
  cases h with
  | number n => rw [readAmount_numeral, toOption_readNumber n hrest, amount?_numeral]
  | nothing => exact other fun _ => rfl
  | yes => exact other fun _ => rfl
  | no => exact other fun _ => rfl
  | string letters => exact other fun _ => rfl
  | empty b hs => cases b <;> exact other fun _ => rfl
  | enclosed b h => cases b <;> exact other fun _ => rfl

end FramePacing.Json
