import FramePacing.Proofs.Settings.Members
import Mathlib.Logic.Relation

/-!
# Only the members of known names matter

One and the same settings can be written as an object in many ways.  A `Change` is one step from one
way of writing to another: members change their places, a member of an unknown name comes or goes,
whatever its value, or the members are written anew, with other blanks and with other letters for
the same keys.  No number of changes makes a difference, because none of them touches what is bound
to the fields.

A key says something unless it holds half of a surrogate pair; a key that says nothing is not an
unknown name but an error.

* `Change.bindings_perm` — a change leaves the bindings, up to their order.
* `exists_error_of_repeated` — a field that is bound twice is refused.
* `only_known_members_matter` — all of it.
-/

namespace FramePacing.Settings

open Json

/-! ## Changes -/

/-- That the key of a member says something that is not the name of a field. -/
def Member.IsUnknown (m : Member) : Prop := ∃ name, m.name? = some name ∧ Field.ofName? name = none

/-- That two members bind the same name to the same value, however they are written. -/
def Member.Alike (m n : Member) : Prop := m.name? = n.name? ∧ m.item.value = n.item.value

/-- The ways to write an object anew that leave what it says of the fields. -/
inductive Change : List Member → List Member → Prop
  | reorder {ms ns : List Member} (h : ms.Perm ns) : Change ms ns
  | insert (ms ns : List Member) {m : Member} (h : m.IsUnknown) : Change (ms ++ ns) (ms ++ m :: ns)
  | remove (ms ns : List Member) {m : Member} (h : m.IsUnknown) : Change (ms ++ m :: ns) (ms ++ ns)
  | rewrite {ms ns : List Member} (h : List.Forall₂ Member.Alike ms ns) : Change ms ns

variable {ms ns : List Member} {m n : Member}

lemma Member.IsUnknown.binding? (h : m.IsUnknown) : m.binding? = none := by
  obtain ⟨name, hname, hfield⟩ := h
  rw [Member.binding?, Member.field?, hname, Option.bind_some, hfield]
  rfl

lemma Member.Alike.binding? (h : m.Alike n) : m.binding? = n.binding? := by
  rw [Member.binding?, Member.binding?, Member.field?, Member.field?, h.1, h.2]

lemma bindings_of_unknown (h : m.IsUnknown) : bindings (ms ++ m :: ns) = bindings (ms ++ ns) := by
  rw [bindings, bindings, List.filterMap_append, List.filterMap_cons_none h.binding?,
    List.filterMap_append]

lemma bindings_of_alike (h : List.Forall₂ Member.Alike ms ns) : bindings ms = bindings ns := by
  induction h with
  | nil => rfl
  | cons hmn _ ih => rw [bindings, bindings, List.filterMap_cons, List.filterMap_cons, hmn.binding?,
      ← bindings, ← bindings, ih]

lemma Change.bindings_perm (h : Change ms ns) : (bindings ms).Perm (bindings ns) := by
  cases h with
  | reorder h => exact h.filterMap _
  | insert ms ns h => exact .of_eq (bindings_of_unknown h).symm
  | remove ms ns h => exact .of_eq (bindings_of_unknown h)
  | rewrite h => exact .of_eq (bindings_of_alike h)

/-- A change leaves no key without anything to say. -/
lemma Change.named (h : Change ms ns) (hms : ∀ m ∈ ms, m.name?.isSome) :
    ∀ m ∈ ns, m.name?.isSome := by
  cases h with
  | reorder h => exact fun m hm => hms m (h.mem_iff.mpr hm)
  | insert ms ns h =>
    obtain ⟨name, hname, -⟩ := h
    intro m hm
    rcases List.mem_append.mp hm with hm | hm
    · exact hms m (List.mem_append_left _ hm)
    rcases List.mem_cons.mp hm with rfl | hm
    · rw [hname]; rfl
    · exact hms m (List.mem_append_right _ hm)
  | remove ms ns h =>
    intro m hm
    refine hms m ?_
    rw [List.mem_append] at hm ⊢
    exact hm.imp_right (List.mem_cons_of_mem _)
  | rewrite h =>
    induction h with
    | nil => exact hms
    | cons hmn _ ih =>
      obtain ⟨hm, hms⟩ := List.forall_mem_cons.mp hms
      exact List.forall_mem_cons.mpr ⟨hmn.1 ▸ hm, ih hms⟩

/-- No number of changes touches the bindings, -/
lemma bindings_perm_of_changes (h : Relation.ReflTransGen Change ms ns) :
    (bindings ms).Perm (bindings ns) := by
  induction h with
  | refl => exact .refl _
  | tail _ hchange ih => exact ih.trans hchange.bindings_perm

/-- nor a key's having something to say. -/
lemma named_of_changes (h : Relation.ReflTransGen Change ms ns) (hms : ∀ m ∈ ms, m.name?.isSome) :
    ∀ m ∈ ns, m.name?.isSome := by
  induction h with
  | refl => exact hms
  | tail _ hchange ih => exact hchange.named ih

/-! ## What an object says -/

variable {o p : ObjectText} {c : Settings}

lemma ofJson_of_changes (h : Relation.ReflTransGen Change o.parts p.parts)
    (ho : ofJson o.text = .ok c) : ofJson p.text = .ok c := by
  obtain ⟨hnamed, d, htakes, hcomplete⟩ := (ofJson_object_eq_ok_iff o).mp ho
  exact (ofJson_object_eq_ok_iff p).mpr
    ⟨named_of_changes h hnamed, d, htakes.perm (bindings_perm_of_changes h), hcomplete⟩

/-- Of accepted settings, a field has the value that is bound to it or its default. -/
lemma get_of_ofJson (ho : ofJson o.text = .ok c) :
    (∀ f v, (f, v) ∈ bindings o.parts → f.parse? v = some (c.get f))
      ∧ ∀ f ∉ (bindings o.parts).map Prod.fst, c.get f = ({} : Settings).get f := by
  obtain ⟨-, d, htakes, rfl, -⟩ := (ofJson_object_eq_ok_iff o).mp ho
  constructor
  · intro f v hv
    obtain ⟨x, hx, hget⟩ := htakes.bound f v hv
    rw [hx, Draft.get_complete, hget, Option.getD_some]
  · intro f hf
    rw [Draft.get_complete, htakes.other f hf, Draft.get_empty, Option.getD_none]

/-- A field that is bound twice is refused, whatever else the object holds. -/
lemma exists_error_of_repeated (h : ¬((bindings o.parts).map Prod.fst).Nodup) :
    ∃ e, ofJson o.text = .error e := by
  cases hread : ofJson o.text with
  | error e => exact ⟨e, rfl⟩
  | ok c =>
    obtain ⟨-, d, htakes, -⟩ := (ofJson_object_eq_ok_iff o).mp hread
    exact absurd htakes.nodup h

/-! ## What a list says -/

/-- What a member means: a name, if its key is one, and a value. -/
def Member.meaning (m : Member) : Option (List Char) × List Char := (m.name?, m.item.value)

/-- The members of the object that binds the first fields to the items of a list. -/
def ListText.asMembers (l : ListText) : List (Option (List Char) × List Char) :=
  (Field.all.zip (l.parts.map Item.value)).map fun b => (some b.1.name.toList, b.2)

lemma ofName?_name (f : Field) : Field.ofName? f.name.toList = some f := by
  cases f <;> decide +kernel

lemma bindings_of_meaning {bs : List Binding}
    (h : ms.map Member.meaning = bs.map fun b => (some b.1.name.toList, b.2)) :
    (∀ m ∈ ms, m.name?.isSome) ∧ bindings ms = bs := by
  induction ms generalizing bs with
  | nil =>
    cases bs with
    | nil => exact ⟨by simp, rfl⟩
    | cons b bs => cases h
  | cons m ms ih =>
    cases bs with
    | nil => cases h
    | cons b bs =>
      obtain ⟨hm, hms⟩ := List.cons.inj h
      obtain ⟨hname, hvalue⟩ := Prod.mk.inj hm
      obtain ⟨hnamed, hbindings⟩ := ih hms
      have hbinding : m.binding? = some b := by
        rw [Member.binding?, Member.field?, hname, Option.bind_some, ofName?_name, hvalue]
        rfl
      refine ⟨List.forall_mem_cons.mpr ⟨by rw [hname]; rfl, hnamed⟩, ?_⟩
      rw [bindings, List.filterMap_cons_some hbinding, ← bindings, hbindings]

/-- A list of up to three values is an object with these values for the first fields. -/
lemma ofJson_list_eq_ok_iff_object {l : ListText} (hlength : l.parts.length ≤ 3)
    (h : o.parts.map Member.meaning = l.asMembers) :
    ofJson l.text = .ok c ↔ ofJson o.text = .ok c := by
  obtain ⟨hnamed, hbindings⟩ := bindings_of_meaning h
  rw [ofJson_list_eq_ok_iff l hlength, ofJson_object_eq_ok_iff, hbindings]
  exact (and_iff_right hnamed).symm

/--
**Only the members of known names matter.**  An object that is accepted binds no field twice.  The
settings have the values that are bound and the defaults of the other fields, and no number of
changes to the way the object is written makes a difference.  A list of up to three values is read
as the object that binds the first fields to them, and an object in which a field is bound twice is
refused.
-/
theorem only_known_members_matter :
    (∀ (o : ObjectText) (c : Settings), ofJson o.text = .ok c →
        ((bindings o.parts).map Prod.fst).Nodup
        ∧ (∀ f v, (f, v) ∈ bindings o.parts → f.parse? v = some (c.get f))
        ∧ (∀ f ∉ (bindings o.parts).map Prod.fst, c.get f = ({} : Settings).get f)
        ∧ ∀ p : ObjectText, Relation.ReflTransGen Change o.parts p.parts → ofJson p.text = .ok c)
    ∧ (∀ (l : ListText) (o : ObjectText), l.parts.length ≤ 3 →
        o.parts.map Member.meaning = l.asMembers →
          ∀ c, ofJson l.text = .ok c ↔ ofJson o.text = .ok c)
    ∧ ∀ o : ObjectText, ¬((bindings o.parts).map Prod.fst).Nodup →
        ∃ e, ofJson o.text = .error e ∧ e.toError.kind = .validation := by
  refine ⟨?_, ?_, ?_⟩
  · intro o c ho
    obtain ⟨hbound, hother⟩ := get_of_ofJson ho
    obtain ⟨-, d, htakes, -⟩ := (ofJson_object_eq_ok_iff o).mp ho
    refine ⟨htakes.nodup, hbound, hother, ?_⟩
    intro p hchanges
    exact ofJson_of_changes hchanges ho
  · intro l o hlength hmeaning c
    exact ofJson_list_eq_ok_iff_object hlength hmeaning
  · intro o hrepeated
    obtain ⟨e, he⟩ := exists_error_of_repeated hrepeated
    exact ⟨e, he, rfl⟩

/-! ### One object, written twice -/

lemma written_nine : Written .value ['9'] :=
  .number ⟨false, ⟨['9'], by simp, by simp⟩, none, none, by decide⟩

/-- A list that holds a number which is out of range and half of a surrogate pair. -/
lemma written_note : Written .value "[9e999,\"\\udead\"]".toList := by
  have hnumber : Written .value ['9', 'e', '9', '9', '9'] :=
    .number ⟨false, ⟨['9'], by simp, by simp⟩, none,
      some ⟨'e', none, ⟨['9', '9', '9'], by simp, by simp⟩, .inl rfl⟩, by decide⟩
  have hstring := Written.string [.code 'd' 'e' 'a' 'd' 0xdead rfl]
  have hitems : Written (.items .list) _ :=
    .more (.element .nil hnumber .nil) (.last (.element .nil hstring .nil))
  exact Written.enclosed .list hitems

def annotated : ObjectText :=
  .bare [.bare "note" (.bare written_note), .bare "fps_decimals" (.bare written_nine)]

def rewritten : ObjectText where
  before := ['\n']
  inside := [' ']
  parts := [{
    before := []
    key := .code '0' '0' '6' '6' 0x66 rfl :: Letter.plainly "ps_decimals".toList
    after := [' ']
    item := ⟨[' '], ['9'], ['\t'], by decide, written_nine, by decide⟩
    blank_before := .nil
    blank_after := by decide }]
  after := []
  blank_before := by decide
  blank_inside := by decide
  blank_after := .nil

example : annotated.text = "\x7b\"note\":[9e999,\"\\udead\"],\"fps_decimals\":9\x7d" := by
  decide +kernel

example : rewritten.text = "\n\x7b \"\\u0066ps_decimals\" : 9\t\x7d" := by
  decide +kernel

/-- Neither the note nor the way the key is written makes a difference. -/
theorem only_known_members_matter_annotated :
    ofJson annotated.text = .ok ⟨2000, 1000, 9⟩
      ∧ ofJson rewritten.text = .ok ⟨2000, 1000, 9⟩
      ∧ ofJson (ListText.text (.bare [.bare written_nine])) = .ok ⟨9, 1000, 3⟩
      ∧ ∃ e, ofJson (ObjectText.text (.bare (annotated.parts ++ rewritten.parts))) = .error e
          ∧ e.toError.kind = .validation := by
  have hannotated : ofJson annotated.text = .ok ⟨2000, 1000, 9⟩ := by decide +kernel
  have hunknown : (Member.bare "note" (.bare written_note)).IsUnknown :=
    ⟨"note".toList, by decide +kernel, by decide +kernel⟩
  have halike : List.Forall₂ Member.Alike
      [Member.bare "fps_decimals" (.bare written_nine)] rewritten.parts :=
    .cons ⟨by decide +kernel, rfl⟩ .nil
  have hchanges : Relation.ReflTransGen Change annotated.parts rewritten.parts :=
    .tail (.tail .refl (.remove [] _ hunknown)) (.rewrite halike)
  have hobject : ofJson (ObjectText.text (.bare [.bare "sample_capacity" (.bare written_nine)]))
      = .ok ⟨9, 1000, 3⟩ := by decide +kernel
  refine ⟨hannotated, ?_, ?_, ?_⟩
  · exact (only_known_members_matter.1 annotated _ hannotated).2.2.2 rewritten hchanges
  · refine (only_known_members_matter.2.1 _ _ (by decide) ?_ _).mpr hobject
    decide +kernel
  · exact only_known_members_matter.2.2 _ (by decide +kernel)

end FramePacing.Settings
