import FramePacing.Proofs.Bench.Operations

/-!
# Benches that cannot be told apart

A screen takes no notice of the profiler at all, so what holds of sessions before a discreet
receiver holds of benches.  `Twins` are benches with the same settings whose sessions are twins; a
bench is its own twin as long as it is in order, which it is after every run.

* `Twins.perform`, `Twins.performAll` — twins answer alike to whatever is done with them.
* `twins_performAll` — a bench that was made with some settings is in order after every run.
* `twins_reset` — a bench that was reset is the twin of a new one on its page.
-/

namespace FramePacing

open Log Logged

instance : Discreet Screen where
  receive_twins h summary r :=
    (Related.of_eq rfl).bind fun _ _ hreply => by
      cases hreply
      exact related_pure ⟨rfl, h, rfl⟩

namespace Bench

/-- Two benches that were made with some settings and cannot be told apart. -/
structure Twins (settings : Settings) (b c : Bench) : Prop where
  session : Session.Twins (max settings.sampleCapacity.toNat 1)
    (Cadence.ofInterval settings.refreshInterval).rule b.session c.session
  left : b.settings = settings
  right : c.settings = settings

namespace Twins

variable {settings : Settings} {b c : Bench}

lemma page_eq (h : Twins settings b c) : b.page = c.page := by
  rw [page, page, h.session.receiver]

lemma report_eq (h : Twins settings b c) : b.report = c.report := by
  rw [Bench.report, Bench.report, Bench.summary, Bench.summary, h.session.profiler.summary_eq,
    h.left, h.right]

/-! ## Changes of the screen -/

lemma mapScreen (h : Twins settings b c) (f : Screen → Screen) :
    Twins settings (b.mapScreen f) (c.mapScreen f) where
  session := ⟨h.session.profiler, h.session.rule_eq, h.session.cadence,
    congrArg f h.session.receiver, h.session.latest⟩
  left := h.left
  right := h.right

lemma onPage (h : Twins settings b c) (page : Page) :
    Twins settings (b.onPage page) (c.onPage page) :=
  h.mapScreen fun screen => { screen with page }

/-! ## Operations -/

lemma update (h : Twins settings b c) (now : Timestamp) :
    Related (SameAnswer (Twins settings)) (b.update now) (c.update now) :=
  (h.session.onFrame now).bind_same fun _ _ _ h' => related_pure ⟨rfl, h', h.left, h.right⟩

lemma tick (h : Twins settings b c) : Related (SameAnswer (Twins settings)) b.tick c.tick := by
  simp only [Bench.tick]
  rw [h.page_eq]
  rcases c.page.readClock with ⟨missing | now, page⟩
  · exact related_pure ⟨rfl, h⟩
  · exact ((h.onPage page).update ⟨now⟩).bind_same fun _ _ _ h' => related_pure ⟨rfl, h'⟩

lemma attach (h : Twins settings b c) : Related (SameAnswer (Twins settings)) b.attach c.attach :=
  (h.mapScreen (·.attach)).session.refresh.bind_same fun _ _ _ h' =>
    related_pure ⟨rfl, h', h.left, h.right⟩

lemma reset (h : Twins settings b c) : Related (Twins settings) b.reset c.reset :=
  h.session.reset.bind fun _ _ h' => related_pure ⟨h', h.left, h.right⟩

/-- **Twins answer alike** to whatever is done with them, and stay twins. -/
theorem perform (h : Twins settings b c) (op : Operation) :
    Related (SameAnswer (Twins settings)) (b.perform op) (c.perform op) := by
  cases op with
  | update now => exact (h.update now).bind_same fun _ _ _ h' => related_pure ⟨rfl, h'⟩
  | tick => exact h.tick.bind_same fun _ _ _ h' => related_pure ⟨rfl, h'⟩
  | attach => exact h.attach.bind_same fun _ _ _ h' => related_pure ⟨rfl, h'⟩
  | detach => exact related_pure ⟨rfl, h.mapScreen (·.detach)⟩
  | reset => exact h.reset.bind fun _ _ h' => related_pure ⟨rfl, h'⟩
  | summary =>
    refine (Related.of_eq h.session.profiler.summary_eq).bind fun x y hxy => ?_
    exact related_pure ⟨congrArg Outcome.summary hxy, h⟩
  | latest => exact related_pure ⟨congrArg Outcome.latest h.session.latest, h⟩
  | report =>
    refine (Related.of_eq h.report_eq).bind fun x y hxy => ?_
    exact related_pure ⟨congrArg Outcome.report hxy, h⟩
  | onPage change =>
    refine related_pure ⟨rfl, ?_⟩
    rw [h.page_eq]
    exact h.onPage _
  | call call =>
    exact (h.session.profiler.call call).bind fun _ _ h' =>
      related_pure ⟨rfl, ⟨h', h.session.rule_eq, h.session.cadence, h.session.receiver,
        h.session.latest⟩, h.left, h.right⟩

theorem performAll (h : Twins settings b c) (ops : List Operation) :
    Related (SameAnswer (Twins settings)) (b.performAll ops) (c.performAll ops) :=
  Related.inTurn (fun _ _ op h => h.perform op) ops h

end Twins

/-! ## New benches -/

lemma twins_ofSettings (page : Page) (settings : Settings) :
    Twins settings (ofSettings page settings).value (ofSettings page settings).value :=
  ⟨Session.twins_start _ _ _, rfl, rfl⟩

/-- A bench that was made with some settings is in order after every run. -/
lemma twins_performAll (page : Page) (settings : Settings) (ops : List Operation) :
    let b := ((ofSettings page settings).value.performAll ops).value.2
    Twins settings b b := by
  intro b
  have h := ((twins_ofSettings page settings).performAll ops).value.state
  exact h

end Bench

end FramePacing
