import FramePacing.Proofs.Json.Spelling
import FramePacing.Proofs.Settings.Known
import Mathlib.Data.List.Forall2

/-!
# An object text tells its members

An `ObjectText` is given by its parts and not by its characters, so one text could be that of two
objects.  It is not: but for the blanks, its members can be found in it again from the front to the
back.  A string ends where the reader that passes over strings stops, and a value where the one that
passes over values does, and neither stops at two places.

* `Item.eq_of_text_eq`, `Member.eq_of_text_eq` — where a value ends, and where a member does.
* `meaning_of_text_eq` — what the members of a text mean.
* `exists_saying`, `Says.unique` — an object of strings as it is written, and what it can be read as.
-/

namespace FramePacing.Settings

open Json

variable {b : Bracket} {s rest rest' : List Char} {ms ns : List Member} {o p : ObjectText}

/-! ## From the front to the back -/

/-- What ends an item is not blank. -/
lemma dropBlanks_of_endsItem (h : EndsItem b s) : dropBlanks s = s := by
  obtain ⟨t, rfl | rfl⟩ := h
  · exact dropBlanks_cons (by decide)
  · exact dropBlanks_cons (by cases b <;> decide)

/-- A value ends at one place. -/
lemma Item.eq_of_text_eq {i j : Item} (hrest : EndsItem b rest) (hrest' : EndsItem b rest')
    (h : i.text ++ rest = j.text ++ rest') : i.value = j.value ∧ rest = rest' := by
  have hvalues : i.value ++ (i.after ++ rest) = j.value ++ (j.after ++ rest') := by
    rw [← i.dropBlanks_text, h, j.dropBlanks_text]
  have hskip := skipValue_written .nil i.written (.of_blank i.blank_after hrest.stops)
  have hskip' := skipValue_written .nil j.written (.of_blank j.blank_after hrest'.stops)
  rw [List.nil_append, hvalues] at hskip
  have hafter : i.after ++ rest = j.after ++ rest' := Except.ok.inj (hskip.symm.trans hskip')
  refine ⟨List.append_cancel_right (hafter ▸ hvalues), ?_⟩
  rw [← dropBlanks_of_endsItem hrest, ← dropBlanks_append i.blank_after, hafter,
    dropBlanks_append j.blank_after, dropBlanks_of_endsItem hrest']

lemma Member.dropBlanks_text (m : Member) (rest : List Char) :
    dropBlanks (m.text ++ rest)
      = '"' :: (Letter.texts m.key ++ '"' :: (m.after ++ ':' :: (m.item.text ++ rest))) := by
  rw [Member.text, List.append_assoc, dropBlanks_append m.blank_before, Member.keyed,
    List.cons_append, dropBlanks_cons (by decide)]
  simp

/-- A member ends at one place, whatever the blanks before it. -/
lemma Member.eq_of_text_eq {m n : Member} (hrest : EndsItem b rest) (hrest' : EndsItem b rest')
    (h : dropBlanks (m.text ++ rest) = dropBlanks (n.text ++ rest')) :
    m.meaning = n.meaning ∧ rest = rest' := by
  rw [m.dropBlanks_text, n.dropBlanks_text] at h
  obtain ⟨hname, hbehind⟩ := decode?_of_texts_eq (List.cons.inj h).2
  have hcolon : Json.readColon (m.after ++ ':' :: (m.item.text ++ rest))
      = .ok (m.item.text ++ rest) := readColon_append m.blank_after
  rw [hbehind, readColon_append n.blank_after] at hcolon
  obtain ⟨hvalue, hrest⟩ := Item.eq_of_text_eq hrest hrest' (Except.ok.inj hcolon).symm
  exact ⟨Prod.ext hname hvalue, hrest⟩

lemma Member.closing_cons (m : Member) (ms : List Member) (rest : List Char) :
    Member.closing (m :: ms) rest = ',' :: (m.text ++ Member.closing ms rest) := by
  simp [Member.closing]

/-- The members behind the first, up to the end of the object, … -/
lemma meaning_of_closing_eq (h : Member.closing ms rest = Member.closing ns rest') :
    ms.map Member.meaning = ns.map Member.meaning := by
  induction ms generalizing ns with
  | nil =>
    cases ns with
    | nil => rfl
    | cons n ns =>
      rw [Member.closing_cons] at h
      cases (List.cons.inj h).1
  | cons m ms ih =>
    cases ns with
    | nil =>
      rw [Member.closing_cons] at h
      cases (List.cons.inj h).1
    | cons n ns =>
      rw [Member.closing_cons, Member.closing_cons] at h
      obtain ⟨hmeaning, hrest⟩ := Member.eq_of_text_eq (Member.endsItem_closing ms rest)
        (Member.endsItem_closing ns rest') (congrArg dropBlanks (List.cons.inj h).2)
      rw [List.map_cons, List.map_cons, hmeaning, ih hrest]

lemma commaed_cons_closing (m : Member) (ms : List Member) (rest : List Char) :
    commaed ((m :: ms).map Member.text) ++ '\x7d' :: rest = m.text ++ Member.closing ms rest := by
  simp [commaed, Member.closing]

/-- … and all of them. -/
lemma meaning_of_commaed_eq
    (h : dropBlanks (commaed (ms.map Member.text) ++ '\x7d' :: rest)
      = dropBlanks (commaed (ns.map Member.text) ++ '\x7d' :: rest')) :
    ms.map Member.meaning = ns.map Member.meaning := by
  have hend (t : List Char) :
      dropBlanks (commaed ([].map Member.text) ++ '\x7d' :: t) = '\x7d' :: t :=
    dropBlanks_cons (by decide)
  cases ms with
  | nil =>
    cases ns with
    | nil => rfl
    | cons n ns =>
      rw [hend, commaed_cons_closing, n.dropBlanks_text] at h
      cases (List.cons.inj h).1
  | cons m ms =>
    cases ns with
    | nil =>
      rw [hend, commaed_cons_closing, m.dropBlanks_text] at h
      cases (List.cons.inj h).1
    | cons n ns =>
      rw [commaed_cons_closing, commaed_cons_closing] at h
      obtain ⟨hmeaning, hrest⟩ := Member.eq_of_text_eq (Member.endsItem_closing ms rest)
        (Member.endsItem_closing ns rest') h
      rw [List.map_cons, List.map_cons, hmeaning, meaning_of_closing_eq hrest]

/-- **What the members of an object mean can be told from its text.** -/
theorem meaning_of_text_eq (h : o.text = p.text) :
    o.parts.map Member.meaning = p.parts.map Member.meaning := by
  have hopen (e : ObjectText) : dropBlanks (e.chars .object Member.text)
      = '\x7b' :: (e.inside ++ (commaed (e.parts.map Member.text) ++ '\x7d' :: e.after)) := by
    rw [Enclosed.chars, dropBlanks_append e.blank_before]
    exact dropBlanks_cons (by decide)
  have hchars := congrArg dropBlanks (String.ofList_injective h)
  rw [hopen, hopen] at hchars
  have hinside := congrArg dropBlanks (List.cons.inj hchars).2
  rw [dropBlanks_append o.blank_inside, dropBlanks_append p.blank_inside] at hinside
  exact meaning_of_commaed_eq hinside

/-! ## Objects of strings -/

/-- That a member means a name with a string. -/
def MeansString (meaning : Option (List Char) × List Char) (member : String × String) : Prop :=
  meaning.1 = some member.1.toList ∧ IsString meaning.2 member.2.toList

/-- That the members of an object are these names with these strings, in this order. -/
def Says (o : ObjectText) (members : List (String × String)) : Prop :=
  List.Forall₂ MeansString (o.parts.map Member.meaning) members

variable {members members' : List (String × String)}

lemma MeansString.unique : Relator.RightUnique MeansString := by
  rintro meaning ⟨name, value⟩ ⟨name', value'⟩ ⟨hname, hvalue⟩ ⟨hname', hvalue'⟩
  have hnames := Option.some.inj (hname.symm.trans hname')
  have hvalues := hvalue.unique hvalue'
  rw [String.toList_inj] at hnames hvalues
  exact Prod.ext hnames hvalues

lemma Says.of_text_eq (ho : Says o members) (h : o.text = p.text) : Says p members := by
  rw [Says, ← meaning_of_text_eq h]
  exact ho

/-- **An object text says one thing.** -/
theorem Says.unique (ho : Says o members) (hp : Says p members') (h : o.text = p.text) :
    members = members' :=
  List.right_unique_forall₂' MeansString.unique (ho.of_text_eq h) hp

/-- A member is written with a name and a string. -/
lemma exists_meansString (member : String × String) :
    ∃ m : Member, m.text = (quote member.1 ++ ":" ++ quote member.2).toList
      ∧ MeansString m.meaning member := by
  obtain ⟨key, hkey, hname⟩ := quote_isString member.1
  obtain ⟨letters, hvalue, hletters⟩ := quote_isString member.2
  refine ⟨⟨[], key, [], .bare (.string letters), .nil, .nil⟩, ?_, hname, letters, rfl, hletters⟩
  rw [String.toList_append, String.toList_append, hkey, hvalue]
  simp [Member.text, Member.keyed, Item.bare, Item.text]

lemma exists_saying_parts (members : List (String × String)) :
    ∃ parts : List Member,
      parts.map Member.text = members.map (fun m => (quote m.1 ++ ":" ++ quote m.2).toList)
        ∧ List.Forall₂ MeansString (parts.map Member.meaning) members := by
  induction members with
  | nil => exact ⟨[], rfl, .nil⟩
  | cons member members ih =>
    obtain ⟨m, htext, hmeans⟩ := exists_meansString member
    obtain ⟨parts, htexts, hparts⟩ := ih
    exact ⟨m :: parts, by rw [List.map_cons, htext, htexts, List.map_cons], .cons hmeans hparts⟩

lemma toList_intercalate_comma (ts : List String) :
    (",".intercalate ts).toList = commaed (ts.map String.toList) := by
  induction ts with
  | nil => rfl
  | cons t ts ih =>
    cases ts with
    | nil => simp [commaed]
    | cons u ts =>
      rw [String.intercalate_cons_cons, String.toList_append, String.toList_append, ih]
      simp [commaed]

/-- **What is written for names with strings is an object that says them.** -/
theorem exists_saying (members : List (String × String)) :
    ∃ o : ObjectText, o.text = Json.object (members.map fun m => (m.1, quote m.2))
      ∧ Says o members := by
  obtain ⟨parts, htexts, hmembers⟩ := exists_saying_parts members
  refine ⟨.bare parts, ?_, hmembers⟩
  rw [← String.toList_inj, ObjectText.text, String.toList_ofList, Json.object,
    String.toList_append, String.toList_append, toList_intercalate_comma]
  simp [Enclosed.chars, Enclosed.bare, htexts, Bracket.opening, Bracket.closing, Function.comp_def]

end FramePacing.Settings
