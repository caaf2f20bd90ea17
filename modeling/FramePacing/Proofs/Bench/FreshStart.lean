import FramePacing.Proofs.Bench.Twins

/-!
# A reset is a fresh start

After a reset nothing of what was recorded before can be seen again: not the durations that are left
in the slots of the window, not the frame time counted so far, not the last reading, not the summary
that was kept.  A `Sight` is what can be seen of a session or of a bench.

* `sessions_alike`, `benches_alike` — a reset session or bench, and a new one, go on alike.
* `reset_is_fresh_start` — what that means: equal answers, equal messages, equal sights.
-/

namespace FramePacing

open Log Logged

/-! ## Sights -/

/-- What can be seen of a session and its receiver. -/
structure Session.Sight (ρ : Type) where
  count : ℕ
  profiler : Profiler.View
  summary : Logged Summary
  latest : Option Summary
  receiver : ρ

def Session.sight {ρ : Type} (s : Session ρ) : Session.Sight ρ where
  count := s.profiler.window.size
  profiler := s.profiler.view
  summary := s.profiler.summary
  latest := s.latest
  receiver := s.receiver

lemma Session.Twins.sight_eq {ρ : Type} {n : ℕ} {rule : Cadence.Rule} {s t : Session ρ}
    (h : Session.Twins n rule s t) : s.sight = t.sight := by
  simp only [Session.sight]
  rw [h.profiler.size_eq, h.profiler.view_eq, h.profiler.summary_eq, h.latest, h.receiver]

/-- What can be seen of a bench and its page. -/
structure Bench.Sight where
  count : ℕ
  profiler : Profiler.View
  summary : Logged Summary
  latest : Option Summary
  report : Logged (Except Fault String)
  attached : Bool
  page : Page

def Bench.sight (b : Bench) : Bench.Sight where
  count := b.session.profiler.window.size
  profiler := b.session.profiler.view
  summary := b.summary
  latest := b.latest
  report := b.report
  attached := b.isAttached
  page := b.page

lemma Bench.Twins.sight_eq {settings : Settings} {b c : Bench} (h : Bench.Twins settings b c) :
    b.sight = c.sight := by
  simp only [Bench.sight, Bench.summary, Bench.latest, Bench.isAttached]
  rw [h.session.profiler.size_eq, h.session.profiler.view_eq, h.session.profiler.summary_eq,
    h.session.latest, h.report_eq, h.session.receiver, h.page_eq]

/-! ## Resets -/

lemma sessions_alike {σ : Type} (capacity : ℕ) (c : Cadence) (l : Listener σ)
    (past future : List (Session.Operation (Listener σ))) :
    let s := ((Session.start (.ofCapacity capacity) c l).value.performAll past).value.2
    let fresh := (Session.start (.ofCapacity capacity) (.ofRule c.rule) s.receiver).value
    Related (SameAnswer (Session.Twins (max capacity 1) c.rule))
      (s.reset.value.performAll future) (fresh.performAll future) := by
  intro s fresh
  have hself : Session.Twins (max capacity 1) c.rule s s :=
    ((Session.twins_start capacity c l).performAll past).value.state
  exact (Session.twins_reset hself).performAll future

lemma benches_alike (page : Page) (settings : Settings) (past future : List Bench.Operation) :
    let b := ((Bench.ofSettings page settings).value.performAll past).value.2
    let fresh := (Bench.ofSettings b.page settings).value.mapScreen fun screen =>
      { screen with attached := b.isAttached }
    Related (SameAnswer (Bench.Twins settings))
      (b.reset.value.performAll future) (fresh.performAll future) := by
  intro b fresh
  have hself : Bench.Twins settings b b := Bench.twins_performAll page settings past
  -- a new bench takes its decimals from the settings, and `b` still has those it was made with
  have hscreen : b.session.receiver = fresh.session.receiver := by
    have hdecimals : b.session.receiver.decimals = settings.decimals.toNat :=
      Bench.decimals_performAll _ past
    show b.session.receiver = ⟨b.session.receiver.page, settings.decimals.toNat, _⟩
    rw [← hdecimals]
    rfl
  have hfresh : Bench.Twins settings b.reset.value fresh := by
    refine ⟨?_, hself.left, rfl⟩
    have hsession := Session.twins_reset hself.session
    rw [hscreen] at hsession
    exact hsession
  exact hfresh.performAll future

/-- **A reset is a fresh start.**  Take any session before any listener, or any bench on any page,
after anything that was done with it.  Whatever is done with it after a reset is answered as if it
were done with a new one, with the same settings and the same receiver as it stands; the same is
logged, and the same is seen afterwards. -/
theorem reset_is_fresh_start :
    (∀ (σ : Type) (capacity : ℕ) (c : Cadence) (l : Listener σ)
        (past future : List (Session.Operation (Listener σ))),
      let s := ((Session.start (.ofCapacity capacity) c l).value.performAll past).value.2
      let fresh := (Session.start (.ofCapacity capacity) (.ofRule c.rule) s.receiver).value
      let x := s.reset.value.performAll future
      let y := fresh.performAll future
      x.value.1 = y.value.1 ∧ x.messages = y.messages ∧ x.value.2.sight = y.value.2.sight)
    ∧ (∀ (page : Page) (settings : Settings) (past future : List Bench.Operation),
      let b := ((Bench.ofSettings page settings).value.performAll past).value.2
      let fresh := (Bench.ofSettings b.page settings).value.mapScreen fun screen =>
        { screen with attached := b.isAttached }
      let x := b.reset.value.performAll future
      let y := fresh.performAll future
      x.value.1 = y.value.1 ∧ x.messages = y.messages ∧ x.value.2.sight = y.value.2.sight) := by
  constructor
  · intro σ capacity c l past future s fresh x y
    have h := sessions_alike capacity c l past future
    exact ⟨h.value.answer, h.messages, h.value.state.sight_eq⟩
  · intro page settings past future b fresh x y
    have h := benches_alike page settings past future
    exact ⟨h.value.answer, h.messages, h.value.state.sight_eq⟩

end FramePacing
