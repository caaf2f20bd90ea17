import FramePacing.Proofs.Bench.Making
import FramePacing.Proofs.Settings.Bindings

/-!
# Objects and lists as settings

A list or an object is given by its parts, with the blanks at every place where blanks may stand:
`ListText` and `ObjectText`.  Nothing that JSON counts as one is left out.  What the reader makes of
such a text is what it makes of the bindings alone, and those are read off the parts.

* `exists_listText`, `exists_objectText` — all lists and all objects are of this form.
* `toOption_readMembers`, `toOption_readItems` — the loops take one part after the other.
* `ofJson_object_eq_ok_iff`, `ofJson_list_eq_ok_iff` — which settings a text holds.
-/

namespace FramePacing.Settings

open Json

/-! ## Texts -/

/-- A value with blanks around it. -/
structure Item where
  before : List Char
  value : List Char
  after : List Char
  blank_before : Blank before
  written : Written .value value
  blank_after : Blank after

def Item.text (i : Item) : List Char := i.before ++ (i.value ++ i.after)

/-- A member of an object, with blanks around its parts. -/
structure Member where
  before : List Char
  key : List Letter
  after : List Char
  item : Item
  blank_before : Blank before
  blank_after : Blank after

namespace Member

/-- The text from the key on. -/
def keyed (m : Member) : List Char :=
  '"' :: (Letter.texts m.key ++ '"' :: (m.after ++ ':' :: m.item.text))

def text (m : Member) : List Char := m.before ++ m.keyed

/-- What the key of a member says, however it is written. -/
def name? (m : Member) : Option (List Char) := Letter.decode? m.key

/-- The field that a member is for. -/
def field? (m : Member) : Option Field := m.name?.bind Field.ofName?

def binding? (m : Member) : Option Binding := m.field?.map (·, m.item.value)

end Member

/-- Texts with commas between them. -/
def commaed : List (List Char) → List Char
  | [] => []
  | t :: ts => t ++ ts.flatMap (',' :: ·)

/-- The parts of a list or an object, and the blanks before, inside and after its brackets. -/
structure Enclosed (Part : Type) where
  before : List Char
  inside : List Char
  parts : List Part
  after : List Char
  blank_before : Blank before
  blank_inside : Blank inside
  blank_after : Blank after

/-- The text of a list or an object. -/
def Enclosed.chars {Part : Type} (b : Bracket) (text : Part → List Char) (e : Enclosed Part) :
    List Char :=
  e.before ++ b.opening :: (e.inside ++ (commaed (e.parts.map text) ++ b.closing :: e.after))

/-- A list as a text. -/
abbrev ListText := Enclosed Item

/-- An object as a text. -/
abbrev ObjectText := Enclosed Member

def ListText.text (l : ListText) : String := String.ofList (l.chars .list Item.text)

def ObjectText.text (o : ObjectText) : String := String.ofList (o.chars .object Member.text)

/-! ### Without blanks -/

def Item.bare {v : List Char} (h : Written .value v) : Item := ⟨[], v, [], .nil, h, .nil⟩

/-- A member whose key needs no escapes. -/
def Member.bare (name : String) (i : Item) : Member :=
  ⟨[], Letter.plainly name.toList, [], i, .nil, .nil⟩

def Enclosed.bare {Part : Type} (parts : List Part) : Enclosed Part :=
  ⟨[], [], parts, [], .nil, .nil, .nil⟩

/-! ### Bindings -/

/-- The bindings that some members make, in order. -/
def bindings (members : List Member) : List Binding := members.filterMap Member.binding?

/-! ### No object is left out -/

section
variable {Part : Type} {text : Part → List Char} {b : Bracket} {s : List Char}

lemma exists_parts (hitem : ∀ s, Written (.item b) s → ∃ p, text p = s)
    (h : Written (.items b) s) : ∃ p parts, commaed ((p :: parts).map text) = s := by
  generalize hpart : Json.Part.items b = part at h
  induction h with
  | last h _ =>
    cases hpart
    obtain ⟨p, rfl⟩ := hitem _ h
    exact ⟨p, [], by simp [commaed]⟩
  | more h _ _ ih =>
    cases hpart
    obtain ⟨p, rfl⟩ := hitem _ h
    obtain ⟨q, parts, rfl⟩ := ih rfl
    exact ⟨p, q :: parts, by simp [commaed]⟩
  | _ => cases hpart

/-- Every value in brackets is the text of its parts. -/
lemma exists_enclosed (hitem : ∀ s, Written (.item b) s → ∃ p, text p = s)
    (h : Written .value (b.opening :: s)) :
    ∃ e : Enclosed Part, e.chars b text = b.opening :: s := by
  generalize hv : b.opening :: s = v at h
  cases h with
  | empty b' hs =>
    obtain rfl : b = b' := by cases b <;> cases b' <;> first | rfl | cases hv
    exact ⟨⟨[], _, [], [], .nil, hs, .nil⟩, by simp [Enclosed.chars, commaed]⟩
  | enclosed b' h =>
    obtain rfl : b = b' := by cases b <;> cases b' <;> first | rfl | cases hv
    obtain ⟨p, parts, rfl⟩ := exists_parts hitem h
    exact ⟨⟨[], [], p :: parts, [], .nil, .nil, .nil⟩, by simp [Enclosed.chars]⟩
  | number n =>
    obtain ⟨c, t, htext, hc⟩ := n.exists_cons
    rw [htext] at hv
    obtain rfl := (List.cons.inj hv).1
    cases b <;> cases hc
  | _ => cases b <;> cases hv

lemma exists_item (h : Written (.item .list) s) : ∃ i : Item, i.text = s := by
  cases h with
  | element hs h ht => exact ⟨⟨_, _, _, hs, h, ht⟩, rfl⟩

lemma exists_member (h : Written (.item .object) s) : ∃ m : Member, m.text = s := by
  cases h with
  | member hs key ht hu h hw => exact ⟨⟨_, key, _, ⟨_, _, _, hu, h, hw⟩, hs, ht⟩, rfl⟩

/-- Every JSON list, -/
theorem exists_listText (h : Written .value ('[' :: s)) :
    ∃ l : ListText, l.chars .list Item.text = '[' :: s :=
  exists_enclosed (b := .list) (fun _ => exists_item) h

/-- and every JSON object, is one of those that the statements below are about. -/
theorem exists_objectText (h : Written .value ('\x7b' :: s)) :
    ∃ o : ObjectText, o.chars .object Member.text = '\x7b' :: s :=
  exists_enclosed (b := .object) (fun _ => exists_member) h

end

/-! ## Members -/

variable {s rest : List Char} {d e : Draft} {first : Bool}

lemma readKey_append (hs : Blank s) : readKey first (s ++ rest) = readKey first rest := by
  rw [readKey, readKey, dropBlanks_append hs]

lemma readMembers_append (hs : Blank s) :
    readMembers first d (s ++ rest) = readMembers first d rest := by
  rw [readMembers, readMembers.eq_def first d rest, readKey_append hs]

/-- What is read of a member, its key being read. -/
def Draft.note? (d : Draft) (m : Member) : Option Draft :=
  m.name?.bind fun name =>
    match Field.ofName? name with
    | none => some d
    | some f => d.bind? (f, m.item.value)

lemma toOption_readString_key (m : Member) :
    ((readString (Letter.texts m.key ++ '"' :: rest)).map fun p => (some p.1, p.2)).toOption
      = m.name?.map (some ·, rest) := by
  have hstring := toOption_map_value (toOption_readString m.key rest) some
  rwa [Option.map_map] at hstring

lemma toOption_readKey_first (m : Member) (rest : List Char) :
    (readKey true (m.keyed ++ rest)).toOption
      = m.name?.map (some ·, m.after ++ ':' :: (m.item.text ++ rest)) := by
  rw [Member.keyed, readKey]
  simpa [dropBlanks_cons (show isBlank '"' = false by decide)] using toOption_readString_key m

lemma toOption_readKey_next (m : Member) (rest : List Char) :
    (readKey false (',' :: (m.text ++ rest))).toOption
      = m.name?.map (some ·, m.after ++ ':' :: (m.item.text ++ rest)) := by
  rw [Member.text, List.append_assoc, Member.keyed, readKey, dropBlanks_cons (by decide)]
  simpa [dropBlanks_append m.blank_before, dropBlanks_cons (show isBlank '"' = false by decide)]
    using toOption_readString_key m

lemma toOption_readMember (d : Draft) (name : List Char) (m : Member)
    (hrest : EndsItem .object rest) :
    (readMember d name (m.after ++ ':' :: (m.item.text ++ rest))).toOption
      = (match Field.ofName? name with
          | none => some d
          | some f => d.bind? (f, m.item.value)).map (·, m.item.after ++ rest) := by
  have hstops : Stops (m.item.after ++ rest) := .of_blank m.item.blank_after hrest.stops
  rw [readMember, readColon_append m.blank_after, Item.text, List.append_assoc, List.append_assoc]
  cases Field.ofName? name with
  | none =>
    dsimp only
    rw [skipValue_written m.item.blank_before m.item.written hstops]
    rfl
  | some f =>
    dsimp only
    rw [Draft.bind?, readField_append d f m.item.blank_before]
    cases d.has f with
    | true =>
      rw [if_pos rfl, if_pos rfl]
      unfold repeated
      split <;> rfl
    | false =>
      rw [if_neg Bool.false_ne_true, if_neg Bool.false_ne_true]
      exact toOption_readField d f m.item.written hstops

lemma toOption_readMembers_step {m : Member}
    (hkey : (readKey first s).toOption
      = m.name?.map (some ·, m.after ++ ':' :: (m.item.text ++ rest)))
    (hrest : EndsItem .object rest) :
    (readMembers first d s).toOption
      = (d.note? m).bind fun d => (readMembers false d rest).toOption := by
  rw [readMembers.eq_def, Draft.note?]
  cases hname : m.name? with
  | none =>
    rw [hname] at hkey
    obtain ⟨e, he⟩ := exists_error_of_toOption hkey
    rw [he]
    rfl
  | some name =>
    rw [hname] at hkey
    have hmember := toOption_readMember d name m hrest
    rw [eq_ok_of_toOption hkey, Option.bind_some]
    dsimp only
    generalize (match Field.ofName? name with
      | none => some d
      | some f => d.bind? (f, m.item.value)) = noted at hmember ⊢
    cases noted with
    | none =>
      obtain ⟨e, he⟩ := exists_error_of_toOption hmember
      rw [he]
      rfl
    | some d' =>
      rw [eq_ok_of_toOption hmember]
      dsimp only
      rw [readMembers_append m.item.blank_after]
      rfl

/-- The text of the members behind the first, up to the end of the object. -/
def Member.closing (members : List Member) (rest : List Char) : List Char :=
  (members.map Member.text).flatMap (',' :: ·) ++ '\x7d' :: rest

lemma Member.endsItem_closing (members : List Member) (rest : List Char) :
    EndsItem .object (Member.closing members rest) := by
  cases members with
  | nil => exact ⟨rest, .inr rfl⟩
  | cons m members => exact ⟨_, .inl rfl⟩

lemma toOption_readMembers_closing (members : List Member) (d : Draft) :
    (readMembers false d (Member.closing members rest)).toOption
      = (members.foldlM Draft.note? d).map (·, rest) := by
  induction members generalizing d with
  | nil => rw [readMembers]; rfl
  | cons m members ih =>
    have hkey := toOption_readKey_next m (Member.closing members rest)
    have hstep := toOption_readMembers_step (d := d) hkey (Member.endsItem_closing members rest)
    have htext : Member.closing (m :: members) rest
        = ',' :: (m.text ++ Member.closing members rest) := by
      simp [Member.closing]
    rw [htext, hstep, List.foldlM_cons, Option.bind_eq_bind]
    cases d.note? m with
    | none => rfl
    | some d => exact ih d

/-- **The members of an object are noted one after the other.** -/
theorem toOption_readMembers (hs : Blank s) (members : List Member) :
    (readMembers true d (s ++ (commaed (members.map Member.text) ++ '\x7d' :: rest))).toOption
      = (members.foldlM Draft.note? d).map (·, rest) := by
  rw [readMembers_append hs]
  cases members with
  | nil => rw [readMembers]; rfl
  | cons m members =>
    have hkey := toOption_readKey_first m (Member.closing members rest)
    have hstep := toOption_readMembers_step (d := d) hkey (Member.endsItem_closing members rest)
    rw [List.map_cons, commaed, List.append_assoc, Member.text, List.append_assoc,
      readMembers_append m.blank_before]
    refine hstep.trans ?_
    rw [List.foldlM_cons, Option.bind_eq_bind]
    cases d.note? m with
    | none => rfl
    | some d => exact toOption_readMembers_closing members d

/-- What is noted is what the members bind, if all keys say something. -/
lemma foldlM_note?_eq_some_iff {members : List Member} :
    members.foldlM Draft.note? d = some e
      ↔ (∀ m ∈ members, m.name?.isSome) ∧ (bindings members).foldlM Draft.bind? d = some e := by
  induction members generalizing d with
  | nil => simp [bindings]
  | cons m members ih =>
    rw [List.foldlM_cons, Draft.note?, List.forall_mem_cons, bindings, List.filterMap_cons,
      Member.binding?, Member.field?]
    cases hname : m.name? with
    | none => simp
    | some name =>
      cases hfield : Field.ofName? name with
      | none => simpa [hfield, bindings] using ih
      | some f =>
        cases hbind : d.bind? (f, m.item.value) with
        | none => simp [hfield, hbind]
        | some d' => simpa [hfield, hbind, bindings] using ih

/-! ## Items -/

lemma readItems_append {fields : List Field} (hs : Blank s) :
    readItems first d fields (s ++ rest) = readItems first d fields rest := by
  cases fields with
  | nil => rw [readItems, readItems, readListEnd, readListEnd, dropBlanks_append hs]
  | cons f fields =>
    rw [readItems, readItems.eq_def first d (f :: fields) rest, dropBlanks_append hs]
    simp only [readField_append d f hs]

/-- The text of the items behind the first, up to the end of the list. -/
def Item.closing (items : List Item) (rest : List Char) : List Char :=
  (items.map Item.text).flatMap (',' :: ·) ++ ']' :: rest

lemma Item.endsItem_closing (items : List Item) (rest : List Char) :
    EndsItem .list (Item.closing items rest) := by
  cases items with
  | nil => exact ⟨rest, .inr rfl⟩
  | cons i items => exact ⟨_, .inl rfl⟩

/-- Reads the value of a field, and the rest of the list behind it. -/
def readItem (d : Draft) (f : Field) (fields : List Field) (s : List Char) :
    Except Complaint (Draft × List Char) :=
  match readField d f s with
  | .error e => .error e
  | .ok (d, rest) => readItems false d fields rest

variable {f : Field} {fields : List Field}

lemma Item.dropBlanks_text (i : Item) :
    dropBlanks (i.text ++ rest) = i.value ++ (i.after ++ rest) := by
  rw [Item.text, List.append_assoc, dropBlanks_append i.blank_before, List.append_assoc,
    i.written.dropBlanks]

lemma readItems_first (i : Item) :
    readItems true d (f :: fields) (i.text ++ rest)
      = readItem d f fields (i.value ++ (i.after ++ rest)) := by
  obtain ⟨c, t, hvalue, hc⟩ := i.written.exists_cons
  rw [Item.text, List.append_assoc, readItems_append i.blank_before, List.append_assoc, hvalue,
    List.cons_append, readItems, dropBlanks_cons (not_isBlank_of_startsValue hc)]
  split
  next heq => cases heq
  next heq => exact absurd (List.cons.inj heq).1 (ne_closing_of_startsValue hc .list)
  · rfl

lemma readItems_next (i : Item) :
    readItems false d (f :: fields) (',' :: (i.text ++ rest))
      = readItem d f fields (i.value ++ (i.after ++ rest)) := by
  obtain ⟨c, t, hvalue, hc⟩ := i.written.exists_cons
  rw [readItems, dropBlanks_cons (by decide)]
  split
  next heq => cases heq
  next heq => exact absurd (List.cons.inj heq).1 (by decide)
  next heq =>
    obtain ⟨rfl, rfl⟩ := List.cons.inj heq
    rw [if_neg Bool.false_ne_true, if_pos rfl, i.dropBlanks_text, hvalue, List.cons_append]
    dsimp only
    split
    next heq => cases heq
    next heq => exact absurd (List.cons.inj heq).1 (ne_closing_of_startsValue hc .list)
    · rfl

/-- An item is bound to the next field, and the rest of the list follows. -/
lemma toOption_readItem (i : Item) (hnew : d.has f = false) (hrest : EndsItem .list rest) :
    (readItem d f fields (i.value ++ (i.after ++ rest))).toOption
      = (d.bind? (f, i.value)).bind fun d => (readItems false d fields rest).toOption := by
  have hread := toOption_readField d f i.written (.of_blank i.blank_after hrest.stops)
  rw [readItem, Draft.bind?, if_neg (by simp [hnew])]
  dsimp only
  cases hparse : (f.parse? i.value).map (d.set f) with
  | none =>
    rw [hparse] at hread
    obtain ⟨e, he⟩ := exists_error_of_toOption hread
    rw [he]
    rfl
  | some d' =>
    rw [hparse] at hread
    rw [eq_ok_of_toOption hread]
    dsimp only
    rw [readItems_append i.blank_after]
    rfl

/-- With a field bound, the fields behind it are as new as before. -/
lemma Draft.has_of_bind? {d' : Draft} {v : List Char} (hbind : d.bind? (f, v) = some d')
    {g : Field} (hg : d.has g = false) (hne : g ≠ f) : d'.has g = false := by
  rw [Draft.bind?] at hbind
  split at hbind
  · cases hbind
  · obtain ⟨x, -, rfl⟩ := Option.map_eq_some_iff.mp hbind
    rw [has_set_of_ne d x hne, hg]

/-- One item more is one binding more. -/
lemma toOption_readItem_zip {items : List Item} (i : Item) (hnodup : (f :: fields).Nodup)
    (hnew : ∀ g ∈ f :: fields, d.has g = false)
    (h : ∀ d : Draft, (∀ g ∈ fields, d.has g = false) →
      (readItems false d fields (Item.closing items rest)).toOption
        = ((fields.zip (items.map Item.value)).foldlM Draft.bind? d).map (·, rest)) :
    (readItem d f fields (i.value ++ (i.after ++ Item.closing items rest))).toOption
      = (((f :: fields).zip ((i :: items).map Item.value)).foldlM Draft.bind? d).map (·, rest) := by
  obtain ⟨hmem, hnodup⟩ := List.nodup_cons.mp hnodup
  obtain ⟨hf, hnew⟩ := List.forall_mem_cons.mp hnew
  rw [toOption_readItem i hf (Item.endsItem_closing items rest), List.map_cons,
    List.zip_cons_cons, List.foldlM_cons, Option.bind_eq_bind]
  cases hbind : d.bind? (f, i.value) with
  | none => rfl
  | some d' =>
    refine h d' fun g hg => Draft.has_of_bind? hbind (hnew g hg) ?_
    rintro rfl
    exact hmem hg

/-- The items of a list are bound to the fields in their order, as far as there are items. -/
lemma toOption_readItems_closing (items : List Item) (hlength : items.length ≤ fields.length)
    (hnodup : fields.Nodup) (hnew : ∀ g ∈ fields, d.has g = false) :
    (readItems false d fields (Item.closing items rest)).toOption
      = ((fields.zip (items.map Item.value)).foldlM Draft.bind? d).map (·, rest) := by
  induction items generalizing d fields with
  | nil => cases fields <;> rfl
  | cons i items ih =>
    cases fields with
    | nil => simp at hlength
    | cons f fields =>
      have htext : Item.closing (i :: items) rest
          = ',' :: (i.text ++ Item.closing items rest) := by
        simp [Item.closing]
      rw [htext, readItems_next]
      exact toOption_readItem_zip i hnodup hnew fun d hd =>
        ih (Nat.le_of_succ_le_succ hlength) hnodup.of_cons hd

/-- **A list binds its items to the fields in their order.** -/
theorem toOption_readItems (hs : Blank s) (items : List Item)
    (hlength : items.length ≤ fields.length) (hnodup : fields.Nodup)
    (hnew : ∀ g ∈ fields, d.has g = false) :
    (readItems true d fields (s ++ (commaed (items.map Item.text) ++ ']' :: rest))).toOption
      = ((fields.zip (items.map Item.value)).foldlM Draft.bind? d).map (·, rest) := by
  rw [readItems_append hs]
  cases items with
  | nil => cases fields <;> rfl
  | cons i items =>
    cases fields with
    | nil => simp at hlength
    | cons f fields =>
      rw [List.map_cons, commaed, List.append_assoc]
      refine (congrArg Except.toOption (readItems_first i)).trans ?_
      exact toOption_readItem_zip i hnodup hnew fun d hd =>
        toOption_readItems_closing items (Nat.le_of_succ_le_succ hlength) hnodup.of_cons hd

/-! ## Whole texts -/

variable {c : Settings} {text : String}

lemma ofJson_eq_ok_iff : ofJson text = .ok c ↔ read text.toList = .ok c ∧ c.IsValid := by
  rw [ofJson]
  cases hread : read text.toList with
  | error e => simp
  | ok c' =>
    dsimp only
    rw [validate]
    constructor
    · intro h
      cases hcomplaint : c'.complaint? with
      | some e => rw [hcomplaint] at h; cases h
      | none =>
        rw [hcomplaint] at h
        cases h
        exact ⟨rfl, complaint?_eq_none_iff.mp hcomplaint⟩
    · rintro ⟨h, hvalid⟩
      cases h
      rw [complaint?_eq_none_iff.mpr hvalid]

/-- With nothing but blanks behind it, what was read makes settings. -/
lemma read_eq_ok_iff {noted : Option Draft} (hread : (readDraft s).toOption = noted.map (·, rest))
    (hrest : Blank rest) : read s = .ok c ↔ ∃ d, noted = some d ∧ d.complete = c := by
  rw [read]
  cases noted with
  | none =>
    obtain ⟨e, he⟩ := exists_error_of_toOption hread
    simp [he]
  | some d =>
    have hdrop : dropBlanks (rest ++ []) = [] := dropBlanks_append hrest
    rw [List.append_nil] at hdrop
    rw [eq_ok_of_toOption hread]
    dsimp only
    rw [hdrop]
    simp

lemma toOption_readDraft_object (o : ObjectText) :
    (readDraft (o.chars .object Member.text)).toOption
      = (o.parts.foldlM Draft.note? {}).map (·, o.after) := by
  rw [Enclosed.chars, readDraft, dropBlanks_append o.blank_before]
  exact toOption_readMembers o.blank_inside o.parts

lemma toOption_readDraft_list (l : ListText) (hlength : l.parts.length ≤ 3) :
    (readDraft (l.chars .list Item.text)).toOption
      = ((Field.all.zip (l.parts.map Item.value)).foldlM Draft.bind? {}).map (·, l.after) := by
  rw [Enclosed.chars, readDraft, dropBlanks_append l.blank_before]
  exact toOption_readItems l.blank_inside l.parts hlength (by decide) (by decide)

/-- **Which settings an object holds.** -/
theorem ofJson_object_eq_ok_iff (o : ObjectText) :
    ofJson o.text = .ok c ↔
      (∀ m ∈ o.parts, m.name?.isSome)
        ∧ ∃ d, ({} : Draft).Takes (bindings o.parts) d ∧ d.complete = c ∧ c.IsValid := by
  rw [ofJson_eq_ok_iff, ObjectText.text, String.toList_ofList,
    read_eq_ok_iff (toOption_readDraft_object o) o.blank_after]
  simp only [foldlM_note?_eq_some_iff, foldlM_bind?_eq_some_iff]
  tauto

/-- **Which settings a list holds.** -/
theorem ofJson_list_eq_ok_iff (l : ListText) (hlength : l.parts.length ≤ 3) :
    ofJson l.text = .ok c ↔
      ∃ d, ({} : Draft).Takes (Field.all.zip (l.parts.map Item.value)) d
        ∧ d.complete = c ∧ c.IsValid := by
  rw [ofJson_eq_ok_iff, ListText.text, String.toList_ofList,
    read_eq_ok_iff (toOption_readDraft_list l hlength) l.blank_after]
  simp only [foldlM_bind?_eq_some_iff]
  tauto

end FramePacing.Settings
