import FramePacing.Log.Logged
import Mathlib.Data.List.Forall2
import Mathlib.Tactic.Lemma

/-!
# Operations that cannot be told apart

Two operations are `Related` if they log the same messages and their results are related.  Where an
operation answers and leaves a state behind, `SameAnswer` asks for equal answers and related states.

* `Related.bind`, `Related.bind_same` — a sequence of related operations is related.
* `inTurn` — a run of one operation over a list, with the answers, and what its steps hand on to it:
  that they are related, that they keep something, that their answers have a property.
-/

namespace FramePacing.Log.Logged

/-- Equal messages and related results. -/
structure Related {α β : Type} (R : α → β → Prop) (x : Logged α) (y : Logged β) : Prop where
  messages : x.messages = y.messages
  value : R x.value y.value

/-- Equal answers, and states that are related. -/
structure SameAnswer {α σ τ : Type} (R : σ → τ → Prop) (x : α × σ) (y : α × τ) : Prop where
  answer : x.1 = y.1
  state : R x.2 y.2

variable {α β γ δ ε σ τ : Type} {R : α → β → Prop} {S : γ → δ → Prop}

lemma Related.of_eq {x y : Logged α} (h : x = y) : Related Eq x y := ⟨by rw [h], by rw [h]⟩

lemma related_pure {a : α} {b : β} (h : R a b) : Related R (pure a) (pure b) := ⟨rfl, h⟩

/-- **Related operations in sequence are related**, if what follows is related for related
results. -/
lemma Related.bind {x : Logged α} {y : Logged β} (h : Related R x y) {f : α → Logged γ}
    {g : β → Logged δ} (hfg : ∀ a b, R a b → Related S (f a) (g b)) :
    Related S (x >>= f) (y >>= g) := by
  have hnext := hfg x.value y.value h.value
  refine ⟨?_, hnext.value⟩
  rw [messages_bind, messages_bind, h.messages, hnext.messages]

/-- What follows an answer may depend on it, since it is the same on both sides. -/
lemma Related.bind_same {x : Logged (α × σ)} {y : Logged (α × τ)} {P : σ → τ → Prop}
    (h : Related (SameAnswer P) x y) {f : α × σ → Logged γ} {g : α × τ → Logged δ}
    (hfg : ∀ a s t, P s t → Related S (f (a, s)) (g (a, t))) : Related S (x >>= f) (y >>= g) := by
  refine h.bind ?_
  rintro ⟨a, s⟩ ⟨_, t⟩ ⟨rfl, hst⟩
  exact hfg a s t hst

/-- The same message before related operations. -/
lemma Related.after_say {x : Logged α} {y : Logged β} (level : Level) (c : Component)
    (text : String) (h : Related R x y) :
    Related R (do say level c text; x) (do say level c text; y) :=
  (Related.of_eq (x := say level c text) rfl).bind fun _ _ _ => h

/-! ## Operations in turn -/

/-- Operations one after the other, each on the state that the one before it left, with their
answers. -/
def inTurn (step : σ → ε → Logged (α × σ)) (s : σ) : List ε → Logged (List α × σ)
  | [] => return ([], s)
  | e :: es => do
    let (answer, s) ← step s e
    let (answers, s) ← inTurn step s es
    return (answer :: answers, s)

/-- **Related steps make related runs**, with equal answers all along. -/
lemma Related.inTurn {f : σ → ε → Logged (α × σ)} {g : τ → ε → Logged (α × τ)} {P : σ → τ → Prop}
    (hstep : ∀ s t e, P s t → Related (SameAnswer P) (f s e) (g t e)) (es : List ε) {s : σ} {t : τ}
    (h : P s t) : Related (SameAnswer P) (inTurn f s es) (inTurn g t es) := by
  induction es generalizing s t with
  | nil => exact related_pure ⟨rfl, h⟩
  | cons e es ih =>
    exact (hstep s t e h).bind_same fun _ _ _ h' =>
      (ih h').bind_same fun _ _ _ h'' => related_pure ⟨rfl, h''⟩

/-- Operations that stand for others are run in their place. -/
lemma inTurn_map {ε' : Type} (f : σ → ε → Logged (α × σ)) (g : ε' → ε) (s : σ) (es : List ε') :
    inTurn f s (es.map g) = inTurn (fun s e => f s (g e)) s es := by
  induction es generalizing s with
  | nil => rfl
  | cons e es ih => simp only [List.map_cons, inTurn, ih]

/-- A run may be taken in two parts. -/
lemma value_inTurn_append (f : σ → ε → Logged (α × σ)) (s : σ) (es es' : List ε) :
    (inTurn f s (es ++ es')).value
      = ((inTurn f s es).value.1 ++ (inTurn f (inTurn f s es).value.2 es').value.1,
        (inTurn f (inTurn f s es).value.2 es').value.2) := by
  induction es generalizing s with
  | nil => rfl
  | cons e es ih =>
    simp only [List.cons_append, inTurn, value_bind, value_pure, ih]

/-- The last operation of a run finds the state that the others left. -/
lemma snd_inTurn_concat (f : σ → ε → Logged (α × σ)) (s : σ) (es : List ε) (e : ε) :
    (inTurn f s (es ++ [e])).value.2 = (f (inTurn f s es).value.2 e).value.2 := by
  rw [value_inTurn_append]
  rfl

/-- What every step leaves true, a run leaves true. -/
lemma holds_inTurn {f : σ → ε → Logged (α × σ)} {P : σ → Prop}
    (hstep : ∀ s e, P s → P (f s e).value.2) (es : List ε) {s : σ} (h : P s) :
    P (inTurn f s es).value.2 := by
  induction es generalizing s with
  | nil => exact h
  | cons e es ih => exact ih (hstep s e h)

/-- What every step keeps, a run keeps. -/
lemma kept_inTurn {f : σ → ε → Logged (α × σ)} (of : σ → γ)
    (hstep : ∀ s e, of (f s e).value.2 = of s) (s : σ) (es : List ε) :
    of (inTurn f s es).value.2 = of s :=
  holds_inTurn (P := fun t => of t = of s) (fun t e h => (hstep t e).trans h) es rfl

/-- All answers of a run have a property that each step's answer has, as long as the steps keep what
that takes. -/
lemma forall_mem_inTurn {f : σ → ε → Logged (α × σ)} {P : σ → Prop} {Q : α → Prop}
    (hstep : ∀ s e, P s → Q (f s e).value.1 ∧ P (f s e).value.2) (es : List ε) {s : σ} (h : P s) :
    ∀ answer ∈ (inTurn f s es).value.1, Q answer := by
  induction es generalizing s with
  | nil => exact List.forall_mem_nil _
  | cons e es ih =>
    obtain ⟨hanswer, hnext⟩ := hstep s e h
    exact List.forall_mem_cons.mpr ⟨hanswer, ih hnext⟩

/-- Runs over lists that match are answered alike, if steps that match are and keep the states
related. -/
lemma answers_inTurn_eq {ε' : Type} {f : σ → ε → Logged (α × σ)} {g : τ → ε' → Logged (α × τ)}
    {P : σ → τ → Prop} {E : ε → ε' → Prop}
    (hstep : ∀ s t e e', E e e' → P s t → SameAnswer P (f s e).value (g t e').value) {es : List ε}
    {es' : List ε'} (hes : List.Forall₂ E es es') {s : σ} {t : τ} (h : P s t) :
    (inTurn f s es).value.1 = (inTurn g t es').value.1 := by
  induction hes generalizing s t with
  | nil => rfl
  | @cons e e' es es' he _ ih =>
    obtain ⟨hanswer, hstate⟩ := hstep s t e e' he h
    exact congrArg₂ List.cons hanswer (ih hstate)

end FramePacing.Log.Logged
