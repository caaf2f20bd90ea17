import FramePacing.Proofs.Bench.Shown

/-!
# The display cannot influence the measurement

What a bench measures is decided by the times that it is told and by its resets: `measured` reads
them off a run.  Attaching the display restarts the cadence and may fail on the page, so it changes
when summaries are published and what is answered to a frame; it changes nothing of the window.

A bench that is never attached does not touch its page and does not notice it either: what it
answers to a frame is `Session.isDue`, which knows nothing of the page.

* `profiler_performAll` — the profiler of a bench is called as if there were nothing else.
* `value_onFrame_of_detached` — what a frame does before a screen that is not attached.
* `answers_eq_of_detached` — without the display, runs on different pages are answered alike.
* `measurement_ignores_display` — the measurement is the same with and without the display.
-/

namespace FramePacing

open Log Logged

namespace Bench

/-! ## What is measured -/

/-- The call of the profiler that comes with an operation; a tick makes one if the clock can be
read. -/
def call? (b : Bench) : Operation → Option Profiler.Call
  | .update now => some (.update now)
  | .tick => b.page.readClock.1.toOption.map fun now => .update ⟨now⟩
  | .reset => some .reset
  | .call c => some c
  | _ => none

/-- The calls that come with a run, in order. -/
def measured (b : Bench) : List Operation → List Profiler.Call
  | [] => []
  | op :: ops => (b.call? op).toList ++ (b.perform op).value.2.measured ops

/-- What a bench tells of its measurement. -/
structure Measurement where
  count : ℕ
  capacity : ℕ
  summary : Logged Summary
  report : Logged (Except Fault String)

def measurement (b : Bench) : Measurement where
  count := b.session.profiler.window.size
  capacity := b.session.profiler.window.capacity
  summary := b.summary
  report := b.report

section Measured

variable {b c : Bench}

/-- The measurement is read off the profiler alone. -/
lemma measurement_congr (hprofiler : b.session.profiler = c.session.profiler)
    (hsettings : b.settings = c.settings) : b.measurement = c.measurement := by
  simp only [measurement, Bench.report, summary]
  rw [hprofiler, hsettings]

/-- **An operation reaches the profiler as its call** and in no other way. -/
lemma profiler_perform (b : Bench) (op : Operation) :
    (b.perform op).value.2.session.profiler
      = (b.session.profiler.run (b.call? op).toList).value := by
  cases op with
  | update now => exact profiler_update b now
  | tick =>
    rw [call?]
    simp only [perform, tick]
    rcases b.page.readClock with ⟨missing | now, page⟩
    · rfl
    · exact profiler_update (b.onPage page) ⟨now⟩
  | attach => exact Session.profiler_publish_of_aloof (fun _ _ _ => rfl) _
  | _ => rfl

/-- So the profiler is in the state that its calls lead to. -/
theorem profiler_performAll (b : Bench) (ops : List Operation) :
    (b.performAll ops).value.2.session.profiler
      = (b.session.profiler.run (b.measured ops)).value := by
  induction ops generalizing b with
  | nil => rfl
  | cons op ops ih =>
    have hstep : (b.performAll (op :: ops)).value.2
        = ((b.perform op).value.2.performAll ops).value.2 := rfl
    rw [hstep, ih, profiler_perform, measured, Profiler.value_run_append]

/-- The calls of a beginning of a run are a beginning of its calls. -/
lemma isPrefix_measured_take (b : Bench) (ops : List Operation) (i : ℕ) :
    b.measured (ops.take i) <+: b.measured ops := by
  induction ops generalizing b i with
  | nil => simp
  | cons op ops ih =>
    cases i with
    | zero => exact List.nil_prefix
    | succ i =>
      rw [List.take_succ_cons, measured, measured]
      exact (List.prefix_append_right_inj _).mpr (ih _ i)

end Measured

end Bench

/-! ## Before a screen that is not attached -/

section Detached

/-- A screen that is not attached accepts every summary and stays as it is. -/
lemma Session.reply_of_detached {s : Session Screen} (h : s.receiver.attached = false) :
    s.reply = ⟨.ok (), s.profiler, s.receiver⟩ := by
  simp only [reply, Receiver.receive, Screen.take, h]
  rfl

/-- So publishing is accepted, and changes nothing but what was published. -/
lemma Session.value_publish_of_detached {s : Session Screen} (h : s.receiver.attached = false) :
    s.publish.value = (.ok true, { s with latest := some s.profiler.summary.value }) := by
  refine Prod.ext ?_ ?_
  · rw [answer_publish, reply_of_detached h]
  · rw [snd_publish, reply_of_detached h]
    rfl

/-- **A frame before such a screen** is answered by whether a refresh is due; then the summary of
the window is kept, and nothing of the screen is changed. -/
lemma Session.value_onFrame_of_detached {s : Session Screen} (h : s.receiver.attached = false)
    (now : Timestamp) : (s.onFrame now).value =
      (.ok (s.isDue now),
        { s.record now with
          cadence := ((s.recorded? now).map fun d => (s.cadence.tick d).2).getD s.cadence
          latest := if s.isDue now then some (s.record now).profiler.summary.value
            else s.latest }) := by
  have hattached : (s.record now).receiver.attached = false := h
  rw [value_onFrame, isDue]
  cases s.recorded? now with
  | none => rfl
  | some d =>
    dsimp only [Option.any_some, Option.map_some, Option.getD_some]
    rw [value_countFrame]
    cases hdue : (s.cadence.count d).isDue with
    | false => simp [Cadence.tick, hdue, record]
    | true =>
      simp only [Cadence.tick, hdue, record, if_true]
      exact value_publish_of_detached h

namespace Bench

/-- Operations that are the same, apart from how they change the page.  Attaching is none of them,
nor is a tick, which reads the clock of the page. -/
inductive Operation.SameButPage : Operation → Operation → Prop where
  | same {op : Operation} (hattach : op ≠ .attach) (htick : op ≠ .tick) : SameButPage op op
  | onPage (change change' : Page → Page) : SameButPage (.onPage change) (.onPage change')

/-- Benches that are the same apart from their screens, neither of which is attached. -/
structure AlikeButScreen (b c : Bench) : Prop where
  left : b.isAttached = false
  right : ∃ screen : Screen, screen.attached = false ∧ c = b.mapScreen fun _ => screen

variable {b c : Bench}

lemma attached_receive (summary : Summary) (p : Profiler) (s : Screen) :
    (Receiver.receive summary p s).value.receiver.attached = s.attached := by
  simp only [Receiver.receive, Screen.take]
  split_ifs <;> rfl

/-- Only attaching attaches. -/
lemma not_isAttached_perform (h : b.isAttached = false) {op : Operation} (hop : op ≠ .attach) :
    (b.perform op).value.2.isAttached = false := by
  cases op with
  | attach => exact absurd rfl hop
  | update now => exact (kept_update attached_receive b now).trans h
  | tick => exact (kept_tick attached_receive (fun _ _ => rfl) b).trans h
  | detach => rfl
  | _ => exact h

lemma not_isAttached_performAll (h : b.isAttached = false) {ops : List Operation}
    (hops : .attach ∉ ops) : (b.performAll ops).value.2.isAttached = false := by
  induction ops generalizing b with
  | nil => exact h
  | cons op ops ih =>
    rw [List.mem_cons, not_or] at hops
    exact ih (not_isAttached_perform h (Ne.symm hops.1)) hops.2

/-- Nothing is shown while the display is detached. -/
lemma not_shows (h : b.isAttached = false) {op : Operation} (hop : op ≠ .attach) :
    b.shows op = false := by
  cases op with
  | attach => exact absurd rfl hop
  | tick => cases hclock : b.page.readClock.1 <;> simp [shows, h, hclock]
  | _ => simp [shows, h]

/-- A frame is answered alike on different pages. -/
lemma AlikeButScreen.update (h : AlikeButScreen b c) (now : Timestamp) :
    SameAnswer AlikeButScreen (b.update now).value (c.update now).value := by
  obtain ⟨hleft, screen, hright, rfl⟩ := h
  have hvalue (b : Bench) : (b.update now).value
      = ((b.session.onFrame now).value.1,
          { b with session := (b.session.onFrame now).value.2 }) := rfl
  have hscreen : (b.mapScreen fun _ => screen).session.receiver.attached = false := hright
  rw [hvalue, hvalue, Session.value_onFrame_of_detached hleft,
    Session.value_onFrame_of_detached hscreen]
  exact ⟨rfl, hleft, screen, hright, rfl⟩

/-- **One operation on different pages** has one answer, and leaves the benches alike. -/
lemma AlikeButScreen.perform (h : AlikeButScreen b c) {op op' : Operation}
    (hop : op.SameButPage op') :
    SameAnswer AlikeButScreen (b.perform op).value (c.perform op').value := by
  have hleft := h.left
  obtain ⟨screen, hright, hc⟩ := h.right
  cases hop with
  | onPage change change' =>
    exact ⟨rfl, hleft, { screen with page := change' screen.page }, hright, by rw [hc]; rfl⟩
  | same hattach htick =>
    cases op with
    | attach => exact absurd rfl hattach
    | tick => exact absurd rfl htick
    | update now =>
      obtain ⟨hanswer, hstate⟩ := h.update now
      refine ⟨?_, hstate⟩
      show Outcome.frame ((b.update now).value.1.mapError .fault) = _
      rw [hanswer]
      rfl
    | detach =>
      rw [hc]
      exact ⟨rfl, rfl, screen.detach, rfl, rfl⟩
    | onPage change =>
      rw [hc]
      exact ⟨rfl, hleft, { screen with page := change screen.page }, hright, rfl⟩
    | _ =>
      rw [hc]
      exact ⟨rfl, hleft, screen, hright, rfl⟩

/-- Without the display, runs on different pages are answered alike. -/
lemma answers_eq_of_detached (h : AlikeButScreen b c) {ops ops' : List Operation}
    (hops : List.Forall₂ Operation.SameButPage ops ops') :
    (b.performAll ops).value.1 = (c.performAll ops').value.1 :=
  answers_inTurn_eq (fun _ _ _ _ hop h => h.perform hop) hops h

end Bench

end Detached

/-! ## Any two runs -/

namespace Bench

/-- **The display cannot influence the measurement.**  Take benches that were made with the same
settings, on any pages, with decimals that can be formatted.

* If two runs measure the same, then so far as they have measured the same number of times they tell
  the same, whatever else was done with the display and the pages; and there is a report.
* A bench that was never attached writes to no element.
* Nor is it told from its answers what page it is on, unless it reads the clock there. -/
theorem measurement_ignores_display (settings : Settings)
    (hfew : settings.decimals.toNat ≤ Display.maxDecimals) :
    let made (page : Page) := (ofSettings page settings).value
    let after (page : Page) (ops : List Operation) := ((made page).performAll ops).value.2
    (∀ page page' ops ops', (made page).measured ops = (made page').measured ops' →
        ∀ i j, ((made page).measured (ops.take i)).length
            = ((made page').measured (ops'.take j)).length →
          (after page (ops.take i)).measurement = (after page' (ops'.take j)).measurement
            ∧ ∃ text, (after page (ops.take i)).report.value = .ok text)
      ∧ (∀ page past op, .attach ∉ past → op ≠ .attach → (∀ change, op ≠ .onPage change) →
          ((after page past).perform op).value.2.page.elements = (after page past).page.elements)
      ∧ (∀ page page' ops ops', List.Forall₂ Operation.SameButPage ops ops' →
          ((made page).performAll ops).value.1 = ((made page').performAll ops').value.1) := by
  intro made after
  refine ⟨fun page page' ops ops' hmeasured i j hlength => ⟨?_, ?_⟩, ?_, ?_⟩
  · have hsame : (made page).measured (ops.take i) = (made page').measured (ops'.take j) := by
      refine List.IsPrefix.eq_of_length ?_ hlength
      exact List.prefix_of_prefix_length_le (isPrefix_measured_take _ ops i)
        (hmeasured ▸ isPrefix_measured_take _ ops' j) hlength.le
    refine measurement_congr ?_ ?_
    · rw [profiler_performAll, profiler_performAll, hsame]
      rfl
    · rw [settings_performAll, settings_performAll]
      rfl
  · have hsettings : (after page (ops.take i)).settings = settings := settings_performAll _ _
    obtain ⟨report, hreport⟩ :=
      Display.exists_report hfew (after page (ops.take i)).summary.value
    refine ⟨report.json, ?_⟩
    show (Display.Report.ofSummary _ (after page (ops.take i)).settings.decimals.toNat).map _ = _
    rw [hsettings, hreport]
    rfl
  · intro page past op hpast hop hchange
    have hdetached : (after page past).isAttached = false := not_isAttached_performAll rfl hpast
    exact elements_perform_of_not_shows (not_shows hdetached hop) hchange
  · intro page page' ops ops' hops
    have halike : AlikeButScreen (made page) (made page') :=
      ⟨rfl, { page := page', decimals := settings.decimals.toNat }, rfl, rfl⟩
    exact answers_eq_of_detached halike hops

/-- The same two frames, shown on one page while the other page has no document. -/
theorem measurement_ignores_display_of_two_frames :
    let page : Page :=
      { hasWindow := true
        hasDocument := true
        elements := [("avg_frame_time", "")] }
    let shown := ((ofSettings page {}).value.performAll
      [.update ⟨0⟩, .attach, .update ⟨16⟩, .latest, .attach]).value.2
    let hidden := ((ofSettings {} {}).value.performAll [.update ⟨0⟩, .update ⟨16⟩]).value.2
    shown.page.elements = [("avg_frame_time", "62.500fps")]
      ∧ shown.latest ≠ hidden.latest
      ∧ shown.measurement = hidden.measurement := by
  intro page shown hidden
  obtain ⟨hsame, -⟩ := measurement_ignores_display {} (by decide)
  obtain ⟨hmeasurement, -⟩ := hsame page {}
    [.update ⟨0⟩, .attach, .update ⟨16⟩, .latest, .attach] [.update ⟨0⟩, .update ⟨16⟩]
    (by decide +kernel) 5 2 (by decide +kernel)
  exact ⟨by decide +kernel, by decide +kernel, hmeasurement⟩

end Bench

end FramePacing
