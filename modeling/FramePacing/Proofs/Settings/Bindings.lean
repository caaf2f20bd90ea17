import FramePacing.Proofs.Json.Values
import FramePacing.Settings.Reader
import Mathlib.Data.List.Nodup

/-!
# Fields and the values bound to them

A settings text binds fields to values.  The reader takes the bindings one by one into a draft and
refuses a field that is bound already.  What comes of a whole list of bindings can be said without
an order: no field is bound twice, every value is one that its field can have, and the draft holds
these values and nothing else (`Draft.Takes`).

* `toOption_readField` — what a field can have depends on its value alone.
* `foldlM_bind?_eq_some_iff` — the bindings taken one by one, and all at once.
* `Draft.Takes.perm` — their order does not matter.
-/

namespace FramePacing.Settings

open Json

/-! ## Fields -/

/-- The values that a field can have. -/
@[reducible]
def Field.Value : Field → Type
  | .sampleCapacity => UInt64
  | .refreshInterval => Float
  | .decimals => UInt64

def get (c : Settings) : (f : Field) → f.Value
  | .sampleCapacity => c.sampleCapacity
  | .refreshInterval => c.refreshInterval
  | .decimals => c.decimals

namespace Draft

def get (d : Draft) : (f : Field) → Option f.Value
  | .sampleCapacity => d.sampleCapacity
  | .refreshInterval => d.refreshInterval
  | .decimals => d.decimals

def set (d : Draft) : (f : Field) → f.Value → Draft
  | .sampleCapacity, n => { d with sampleCapacity := some n }
  | .refreshInterval, x => { d with refreshInterval := some x }
  | .decimals, n => { d with decimals := some n }

variable {d e : Draft} {f g : Field}

@[simp]
lemma get_empty (f : Field) : ({} : Draft).get f = none := by
  cases f <;> rfl

@[simp]
lemma get_set_self (d : Draft) (f : Field) (x : f.Value) : (d.set f x).get f = some x := by
  cases f <;> rfl

lemma get_set_of_ne (d : Draft) (x : f.Value) (h : g ≠ f) : (d.set f x).get g = d.get g := by
  cases f <;> cases g <;> first | rfl | exact absurd rfl h

lemma has_eq (d : Draft) (f : Field) : d.has f = (d.get f).isSome := by
  cases f <;> rfl

lemma has_set_of_ne (d : Draft) (x : f.Value) (h : g ≠ f) : (d.set f x).has g = d.has g := by
  rw [has_eq, has_eq, get_set_of_ne d x h]

lemma ext_get (h : ∀ f, d.get f = e.get f) : d = e := by
  obtain ⟨n, x, k⟩ := d
  obtain ⟨n', x', k'⟩ := e
  obtain rfl : n = n' := h .sampleCapacity
  obtain rfl : x = x' := h .refreshInterval
  obtain rfl : k = k' := h .decimals
  rfl

/-- A field that has not been read takes its default. -/
lemma get_complete (d : Draft) (f : Field) :
    d.complete.get f = (d.get f).getD (({} : Settings).get f) := by
  cases f <;> rfl

end Draft

/-! ## Values -/

/-- The count that a value is. -/
def count? (v : List Char) : Option UInt64 :=
  match amount? v with
  | some (.integer n) => if n < 0 then none else some n.toNat.toUInt64
  | _ => none

/-- The number of milliseconds that a value is. -/
def millis? (v : List Char) : Option Float := (amount? v).map Number.toFloat

/-- What a value means for a field, if it is one that the field can have. -/
def Field.parse? : (f : Field) → List Char → Option f.Value
  | .sampleCapacity, v => count? v
  | .refreshInterval, v => millis? v
  | .decimals, v => count? v

variable {s v rest : List Char}

lemma toOption_readCount (h : Written .value v) (hrest : Stops rest) :
    (readCount (v ++ rest)).toOption = (count? v).map (·, rest) := by
  have hread := toOption_readAmount h hrest "usize"
  rw [readCount, count?]
  cases hv : amount? v with
  | none =>
    rw [hv] at hread
    obtain ⟨e, he⟩ := exists_error_of_toOption hread
    rw [he]
    rfl
  | some n =>
    rw [hv] at hread
    rw [eq_ok_of_toOption hread]
    cases n with
    | float x => rfl
    | integer n => dsimp only; split <;> rfl

lemma toOption_readMillis (h : Written .value v) (hrest : Stops rest) :
    (readMillis (v ++ rest)).toOption = (millis? v).map (·, rest) :=
  toOption_map_value (toOption_readAmount h hrest "f64") Number.toFloat

/-- **What a field can have depends on its value alone.** -/
theorem toOption_readField (d : Draft) (f : Field) (h : Written .value v) (hrest : Stops rest) :
    (readField d f (v ++ rest)).toOption = ((f.parse? v).map (d.set f)).map (·, rest) := by
  cases f with
  | sampleCapacity => exact toOption_map_value (toOption_readCount h hrest) (d.set .sampleCapacity)
  | refreshInterval =>
    exact toOption_map_value (toOption_readMillis h hrest) (d.set .refreshInterval)
  | decimals => exact toOption_map_value (toOption_readCount h hrest) (d.set .decimals)

lemma readField_append (d : Draft) (f : Field) (hs : Blank s) :
    readField d f (s ++ rest) = readField d f rest := by
  cases f with
  | sampleCapacity => rw [readField, readField, readCount, readAmount_append hs, ← readCount]
  | refreshInterval => rw [readField, readField, readMillis, readAmount_append hs, ← readMillis]
  | decimals => rw [readField, readField, readCount, readAmount_append hs, ← readCount]

/-! ## Bindings -/

/-- A field and the text of a value for it. -/
abbrev Binding := Field × List Char

/-- Takes a binding into a draft, unless the field is bound already. -/
def Draft.bind? (d : Draft) (b : Binding) : Option Draft :=
  if d.has b.1 then none else (b.1.parse? b.2).map (d.set b.1)

/-- That a draft `e` comes of `d` by bindings, in whatever order. -/
structure Draft.Takes (d : Draft) (bindings : List Binding) (e : Draft) : Prop where
  /-- No field is bound twice, -/
  nodup : (bindings.map Prod.fst).Nodup
  /-- and none is that was bound before. -/
  isNew : ∀ f ∈ bindings.map Prod.fst, d.has f = false
  bound : ∀ f v, (f, v) ∈ bindings → ∃ x, f.parse? v = some x ∧ e.get f = some x
  other : ∀ f ∉ bindings.map Prod.fst, e.get f = d.get f

variable {d e : Draft} {bindings others : List Binding}

lemma Draft.Takes.nil_iff : d.Takes [] e ↔ d = e := by
  constructor
  · intro h
    exact Draft.ext_get fun f => (h.other f List.not_mem_nil).symm
  · rintro rfl
    exact ⟨List.nodup_nil, by simp, by simp, fun _ _ => rfl⟩

/-- One binding more. -/
lemma Draft.Takes.cons_iff {f : Field} {v : List Char} :
    d.Takes ((f, v) :: bindings) e
      ↔ d.has f = false ∧ ∃ x, f.parse? v = some x ∧ (d.set f x).Takes bindings e := by
  constructor
  · intro h
    obtain ⟨hmem, hnodup⟩ := List.nodup_cons.mp h.nodup
    obtain ⟨x, hx, hget⟩ := h.bound f v List.mem_cons_self
    have hne {g : Field} (hg : g ∈ bindings.map Prod.fst) : g ≠ f := by
      rintro rfl
      exact hmem hg
    refine ⟨h.isNew f List.mem_cons_self, x, hx, hnodup, ?_, ?_, ?_⟩
    · intro g hg
      rw [has_set_of_ne d x (hne hg)]
      exact h.isNew g (List.mem_cons_of_mem _ hg)
    · intro g w hw
      exact h.bound g w (List.mem_cons_of_mem _ hw)
    · intro g hg
      by_cases hgf : g = f
      · subst hgf
        rw [hget, get_set_self]
      · rw [get_set_of_ne d x hgf]
        exact h.other g (by simp [hgf, hg])
  · rintro ⟨hnew, x, hx, h⟩
    have hmem : f ∉ bindings.map Prod.fst := by
      intro hf
      have := h.isNew f hf
      rw [has_eq, get_set_self] at this
      cases this
    refine ⟨List.nodup_cons.mpr ⟨hmem, h.nodup⟩, ?_, ?_, ?_⟩
    · intro g hg
      rw [List.map_cons, List.mem_cons] at hg
      rcases hg with rfl | hg
      · exact hnew
      · have hne : g ≠ f := fun heq => hmem (heq ▸ hg)
        rw [← has_set_of_ne d x hne]
        exact h.isNew g hg
    · intro g w hw
      rcases List.mem_cons.mp hw with heq | hw
      · cases heq
        refine ⟨x, hx, ?_⟩
        rw [h.other f hmem, get_set_self]
      · exact h.bound g w hw
    · intro g hg
      rw [List.map_cons, List.mem_cons, not_or] at hg
      rw [h.other g hg.2, get_set_of_ne d x hg.1]

/-- **Bindings taken one by one** come to what they say all at once. -/
theorem foldlM_bind?_eq_some_iff :
    bindings.foldlM Draft.bind? d = some e ↔ d.Takes bindings e := by
  induction bindings generalizing d with
  | nil => rw [Draft.Takes.nil_iff]; exact Option.some.injEq d e ▸ Iff.rfl
  | cons b bindings ih =>
    obtain ⟨f, v⟩ := b
    rw [Draft.Takes.cons_iff, List.foldlM_cons, Draft.bind?]
    cases hhas : d.has f with
    | true => simp
    | false =>
      cases hparse : f.parse? v with
      | none => simp
      | some x => simpa using ih

/-- The order of bindings does not matter. -/
lemma Draft.Takes.perm (h : d.Takes bindings e) (hperm : bindings.Perm others) :
    d.Takes others e := by
  have hkeys := hperm.map Prod.fst
  refine ⟨hkeys.nodup_iff.mp h.nodup, ?_, ?_, ?_⟩
  · intro f hf
    exact h.isNew f (hkeys.mem_iff.mpr hf)
  · intro f v hv
    exact h.bound f v (hperm.mem_iff.mpr hv)
  · intro f hf
    exact h.other f fun hmem => hf (hkeys.mem_iff.mp hmem)

end FramePacing.Settings
