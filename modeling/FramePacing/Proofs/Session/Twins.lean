import FramePacing.Proofs.Session.Operations

/-!
# Sessions that cannot be told apart

Two sessions are `Twins` if their profilers are and all else is equal.  A `Discreet` receiver takes
no notice of more than the view of a profiler and leaves it in order; listeners do.  Before such a
receiver, whatever is done with twins is answered alike, logged alike, and leaves twins behind.

* `Twins.perform`, `Twins.performAll` — so for every operation and every run.
* `twins_start`, `twins_reset` — a session is its own twin; one that was reset is the twin of a new
  one.
-/

namespace FramePacing

open Log Logged

/-! ## Discreet receivers -/

/-- Two replies that cannot be told apart. -/
structure Reply.Twins {ρ : Type} (n : ℕ) (x y : Reply ρ) : Prop where
  verdict : x.verdict = y.verdict
  profiler : x.profiler.Twins n y.profiler
  receiver : x.receiver = y.receiver

/-- A receiver that replies alike to summaries of twins. -/
class Discreet (ρ : Type) [Receiver ρ] : Prop where
  receive_twins : ∀ {n : ℕ} {p q : Profiler}, p.Twins n q → ∀ (summary : Summary) (r : ρ),
    Related (Reply.Twins n) (Receiver.receive summary p r) (Receiver.receive summary q r)

/-- A reaction cannot tell twins apart. -/
lemma Reaction.play_twins {σ : Type} {n : ℕ} (r : Reaction σ) {p q : Profiler}
    (h : p.Twins n q) : Related (Reply.Twins n) (r.play p) (r.play q) := by
  induction r generalizing p q with
  | answer verdict state => exact related_pure ⟨rfl, h, rfl⟩
  | log m next ih => exact (ih h).after_say _ _ _
  | call c next ih =>
    refine (h.call c).bind fun p' q' h' => ?_
    rw [h'.view_eq]
    exact ih q'.view h'

instance {σ : Type} : Discreet (Listener σ) where
  receive_twins h summary l := by
    simp only [Receiver.receive]
    rw [h.view_eq]
    refine ((l.react summary _ l.state).play_twins h).bind fun x y hxy => ?_
    refine related_pure ⟨hxy.verdict, hxy.profiler, ?_⟩
    rw [hxy.receiver]

/-! ## Twin sessions -/

namespace Session

variable {ρ : Type}

/-- Two sessions with a rule, and with profilers of a capacity, that cannot be told apart. -/
structure Twins (n : ℕ) (rule : Cadence.Rule) (s t : Session ρ) : Prop where
  profiler : s.profiler.Twins n t.profiler
  rule_eq : s.cadence.rule = rule
  cadence : s.cadence = t.cadence
  receiver : s.receiver = t.receiver
  latest : s.latest = t.latest

variable {n : ℕ} {rule : Cadence.Rule} {s t : Session ρ}

lemma Twins.reset (h : Twins n rule s t) : Related (Twins n rule) s.reset t.reset :=
  h.profiler.reset.bind fun _ _ hprofiler =>
    related_pure ⟨hprofiler, h.rule_eq, by rw [h.cadence], h.receiver, rfl⟩

variable [Receiver ρ] [Discreet ρ]

lemma Twins.handOver (h : Twins n rule s t) :
    Related (SameAnswer (Twins n rule)) s.handOver t.handOver := by
  simp only [Session.handOver, Profiler.handOver]
  rw [h.profiler.summary_eq, h.receiver]
  simp only [bind_assoc, pure_bind]
  refine (Related.of_eq rfl).bind fun summary _ hsummary => ?_
  cases hsummary
  refine (Discreet.receive_twins h.profiler summary t.receiver).bind fun x y hxy => ?_
  refine related_pure ⟨?_, hxy.profiler, h.rule_eq, h.cadence, hxy.receiver, h.latest⟩
  rw [hxy.verdict]

lemma Twins.publish (h : Twins n rule s t) :
    Related (SameAnswer (Twins n rule)) s.publish t.publish := by
  refine h.handOver.bind_same fun result s' t' h' => ?_
  -- a refusal is logged, a fault is passed on, and what was accepted is kept and logged
  rcases result with (e | f) | summary
  · exact Related.after_say _ _ _ (related_pure ⟨rfl, h'⟩)
  · exact related_pure ⟨rfl, h'⟩
  · exact Related.after_say _ _ _
      (related_pure ⟨rfl, h'.profiler, h'.rule_eq, h'.cadence, h'.receiver, rfl⟩)

lemma Twins.countFrame (h : Twins n rule s t) (d : Duration) :
    Related (SameAnswer (Twins n rule)) (s.countFrame d) (t.countFrame d) := by
  have hticked : Twins n rule { s with cadence := (t.cadence.tick d).2 }
      { t with cadence := (t.cadence.tick d).2 } := by
    refine ⟨h.profiler, ?_, rfl, h.receiver, h.latest⟩
    rw [Cadence.rule_tick, ← h.cadence, h.rule_eq]
  simp only [Session.countFrame]
  -- both sides count with the same cadence, so a refresh is due on both or on neither
  rw [h.cadence]
  split_ifs
  · exact hticked.publish
  · exact related_pure ⟨rfl, hticked⟩

lemma Twins.onFrame (h : Twins n rule s t) (now : Timestamp) :
    Related (SameAnswer (Twins n rule)) (s.onFrame now) (t.onFrame now) := by
  simp only [Session.onFrame]
  rw [h.profiler.gap?_eq now]
  refine (h.profiler.update now).bind fun p q hprofiler => ?_
  have hnoted : Twins n rule { s with profiler := p } { t with profiler := q } :=
    ⟨hprofiler, h.rule_eq, h.cadence, h.receiver, h.latest⟩
  -- the gap is measured before the profiler takes note of the frame, so it is that of `s` and `t`
  cases t.profiler.gap? now with
  | none => exact related_pure ⟨rfl, hnoted⟩
  | some d =>
    dsimp only
    split_ifs
    · exact hnoted.countFrame d
    · exact related_pure ⟨rfl, hnoted⟩

lemma Twins.refresh (h : Twins n rule s t) :
    Related (SameAnswer (Twins n rule)) s.refresh t.refresh := by
  have hrestarted : Twins n rule { s with cadence := s.cadence.restart }
      { t with cadence := t.cadence.restart } :=
    ⟨h.profiler, h.rule_eq, by rw [h.cadence], h.receiver, h.latest⟩
  refine hrestarted.publish.bind_same fun result s' t' h' => related_pure ⟨?_, h'⟩
  rw [h'.latest]

/-- **Twins answer alike** to whatever is done with them, and stay twins. -/
theorem Twins.perform (h : Twins n rule s t) (op : Operation ρ) :
    Related (SameAnswer (Twins n rule)) (s.perform op) (t.perform op) := by
  cases op with
  | event e =>
    cases e with
    | frame now => exact (h.onFrame now).bind_same fun _ _ _ h' => related_pure ⟨rfl, h'⟩
    | refresh => exact h.refresh.bind_same fun _ _ _ h' => related_pure ⟨rfl, h'⟩
    | reset => exact h.reset.bind fun _ _ h' => related_pure ⟨rfl, h'⟩
  | call c =>
    exact (h.profiler.call c).bind fun _ _ h' =>
      related_pure ⟨rfl, h', h.rule_eq, h.cadence, h.receiver, h.latest⟩
  | handOver => exact h.handOver.bind_same fun _ _ _ h' => related_pure ⟨rfl, h'⟩
  | adjust f =>
    exact related_pure ⟨rfl, h.profiler, h.rule_eq, h.cadence, by rw [h.receiver], h.latest⟩

theorem Twins.performAll (h : Twins n rule s t) (ops : List (Operation ρ)) :
    Related (SameAnswer (Twins n rule)) (s.performAll ops) (t.performAll ops) :=
  Related.inTurn (fun _ _ op h => Twins.perform h op) ops h

/-! ## New sessions -/

omit [Receiver ρ] [Discreet ρ]

lemma twins_start (capacity : ℕ) (c : Cadence) (r : ρ) :
    Twins (max capacity 1) c.rule (start (.ofCapacity capacity) c r).value
      (start (.ofCapacity capacity) c r).value :=
  ⟨Profiler.twins_ofCapacity capacity, rfl, rfl, rfl, rfl⟩

/-- **A session that was reset** cannot be told from a new one with its receiver. -/
theorem twins_reset {capacity : ℕ} (h : Twins (max capacity 1) rule s s) :
    Twins (max capacity 1) rule s.reset.value
      (start (.ofCapacity capacity) (.ofRule rule) s.receiver).value := by
  refine ⟨Profiler.twins_reset h.profiler, h.rule_eq, ?_, rfl, rfl⟩
  show s.cadence.restart = .ofRule rule
  rw [← h.rule_eq]
  rfl

end Session

end FramePacing
