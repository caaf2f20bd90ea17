import FramePacing.Proofs.Bench.Twins
import FramePacing.Proofs.Display.Texts
import FramePacing.Proofs.Statistics.Sorting

/-!
# When a bench can fault

The one thing that ends an operation in the middle is a number that is to be shown with more decimal
places than can be formatted.  Settings are accepted with any number of decimals, so a bench that
was made from accepted settings may fault later, with the first summary that it shows or reports.

* `Formattable.fault?_performAll` — with no more than `Display.maxDecimals` decimals no run has a
  fault.
* `report_faults` — with more of them, a report on two frames is one.
* `runs_are_safe_iff` — so every run of accepted settings is safe if and only if there are no more:
  then no operation ends in a fault, and no index, slice or sum is out of range.
* `accepted_settings_can_fault` — settings that are accepted and are not safe.
-/

namespace FramePacing

open Log Logged

/-! ## Indices -/

/-- Nothing that is computed with a window is out of range: the remainders have a divisor, writing
and reading stay inside the slots, indices fit into words, and tails are no longer than the list
that they are cut from. -/
structure Window.Safe (w : Window) : Prop where
  capacity_pos : 0 < w.capacity
  write : w.cursor < w.slots.size
  read : ∀ i < w.size, w.slotOf i < w.slots.size
  size_le : w.size ≤ w.cursor + w.capacity
  sum_lt : w.cursor + w.capacity < 2 ^ 64
  index_lt : ∀ i < w.size, w.start + i < 2 ^ 64
  tail_le : ∀ tail : Tail, 0 < w.size → tail.size w.size ≤ w.size

lemma Window.WellFormed.safe {w : Window} (h : w.WellFormed) (hroom : w.capacity ≤ 2 ^ 60) :
    w.Safe := by
  have hcursor := h.cursor_lt
  have hsize := h.size_le
  have hpos : 0 < w.capacity := by omega
  have hstart : w.start < w.capacity := Nat.mod_lt _ hpos
  exact
    { capacity_pos := hpos
      write := by rw [h.size_slots]; exact hcursor
      read := fun i _ => by rw [h.size_slots]; exact Nat.mod_lt _ hpos
      size_le := by omega
      sum_lt := by omega
      index_lt := fun i hi => by omega
      tail_le := fun tail hsome => Statistics.size_le tail hsome }

/-! ## Where there is no fault -/

section Steady

/-- A receiver none of whose replies is a fault. -/
def Steady {ρ : Type} [Receiver ρ] (r : ρ) : Prop :=
  ∀ summary p f, (Receiver.receive summary p r).value.verdict ≠ .error (.fault f)

lemma Screen.steady {screen : Screen} (h : screen.decimals ≤ Display.maxDecimals) :
    Steady screen := by
  intro summary p f
  have hpresent : (Display.present summary screen.decimals screen.page).value.1
      ≠ .error (.fault f) := by
    obtain ⟨report, hreport⟩ := Display.exists_report h summary
    rw [Display.present, hreport]
    split_ifs <;> simp
  show (screen.take summary).value.1 ≠ _
  rw [Screen.take]
  split_ifs
  · exact hpresent
  · simp

variable {ρ : Type} [Receiver ρ] {s : Session ρ}

lemma Session.exists_publish (h : Steady s.receiver) :
    ∃ accepted, s.publish.value.1 = .ok accepted := by
  have hreply : ∀ f, s.reply.verdict ≠ .error (.fault f) := h _ _
  rw [answer_publish]
  rcases hverdict : s.reply.verdict with (e | f) | u
  · exact ⟨false, rfl⟩
  · exact absurd hverdict (hreply f)
  · exact ⟨true, rfl⟩

lemma Session.exists_onFrame (h : Steady s.receiver) (now : Timestamp) :
    ∃ published, (s.onFrame now).value.1 = .ok published := by
  obtain ⟨counted, hframe | hframe⟩ := s.onFrame_cases now
  · exact ⟨false, by rw [hframe]⟩
  · rw [hframe]
    exact Session.exists_publish h

lemma Session.exists_refresh (h : Steady s.receiver) :
    ∃ summary, s.refresh.value.1 = .ok summary := by
  obtain ⟨accepted, haccepted⟩ :=
    Session.exists_publish (s := { s with cadence := s.cadence.restart }) h
  exact ⟨s.refresh.value.2.latest.getD .zero, by rw [fst_refresh, haccepted]; rfl⟩

end Steady

namespace Bench

/-- The fault that an answer is, if it is one. -/
def Outcome.fault? : Outcome → Option Fault
  | .frame (.error (.fault f)) => some f
  | .attached (.error f) => some f
  | .report (.error f) => some f
  | _ => none

/-- The decimals of a bench can be formatted, those of its screen and those of its reports. -/
structure Formattable (b : Bench) : Prop where
  screen : b.session.receiver.decimals ≤ Display.maxDecimals
  report : b.settings.decimals.toNat ≤ Display.maxDecimals

namespace Formattable

variable {b : Bench}

lemma exists_update (h : b.Formattable) (now : Timestamp) :
    ∃ published, (b.update now).value.1 = .ok published :=
  Session.exists_onFrame (Screen.steady h.screen) now

lemma fault?_perform (h : b.Formattable) (op : Operation) :
    (b.perform op).value.1.fault? = none := by
  cases op with
  | update now =>
    obtain ⟨published, hpublished⟩ := h.exists_update now
    simp [perform, hpublished, Except.mapError, Outcome.fault?]
  | tick =>
    simp only [perform, tick]
    rcases b.page.readClock with ⟨missing | now, page⟩
    · rfl
    · have honPage : (b.onPage page).Formattable := ⟨h.screen, h.report⟩
      obtain ⟨published, hpublished⟩ := honPage.exists_update ⟨now⟩
      simp [hpublished, Except.mapError, Outcome.fault?]
  | attach =>
    obtain ⟨summary, hsummary⟩ :=
      Session.exists_refresh (s := (b.mapScreen (·.attach)).session)
        (Screen.steady h.screen)
    simp [perform, attach, hsummary, Except.map, Outcome.fault?]
  | report =>
    obtain ⟨report, hreport⟩ := Display.exists_report h.report b.summary.value
    simp [perform, Bench.report, hreport, Except.map, Outcome.fault?]
  | _ => rfl

lemma perform (h : b.Formattable) (op : Operation) : (b.perform op).value.2.Formattable where
  screen := by
    rw [decimals_perform]
    exact h.screen
  report := by
    rw [settings_perform]
    exact h.report

/-- **No run has a fault** as long as the decimals can be formatted. -/
theorem fault?_performAll (h : b.Formattable) (ops : List Operation) :
    ∀ outcome ∈ (b.performAll ops).value.1, outcome.fault? = none := by
  have hstep : ∀ (b : Bench) (op : Operation), b.Formattable →
      (b.perform op).value.1.fault? = none ∧ (b.perform op).value.2.Formattable :=
    fun _ op h => ⟨h.fault?_perform op, h.perform op⟩
  exact forall_mem_inTurn hstep ops h

end Formattable

/-! ## Where there is one -/

/-- A summary with a rate to show is a fault if the decimals cannot be formatted. -/
lemma ofSummary_faults {decimals : ℕ} (h : Display.maxDecimals < decimals) {s : Summary}
    {rate : Float} (hrate : (Duration.ofMillis s.average).rate? = some rate) :
    Display.Report.ofSummary s decimals = .error .precision := by
  have htext : Display.rateText s.average decimals = .error .precision := by
    rw [Display.rateText, hrate]
    exact if_neg (Nat.not_le_of_lt h)
  rw [Display.Report.ofSummary, htext]
  rfl

/-- Two frames, and a report on them. -/
def twoFrames : List Operation := [.update ⟨0⟩, .update ⟨16⟩, .report]

/-- The window after two frames holds the time between them, whatever its capacity. -/
lemma durations_after_two_frames (page : Page) (settings : Settings) :
    (((ofSettings page settings).value.update ⟨0⟩).value.2.update
      ⟨16⟩).value.2.session.profiler.window.toList = [⟨16⟩] := by
  have hprofiler : (((ofSettings page settings).value.update ⟨0⟩).value.2.update
      ⟨16⟩).value.2.session.profiler
      = ((Profiler.ofCapacity settings.sampleCapacity.toNat).run
          [.update ⟨0⟩, .update ⟨16⟩]).value := by
    rw [profiler_update, profiler_update]
    rfl
  have hgaps : Profiler.gaps (Profiler.readings [.update ⟨0⟩, .update ⟨16⟩]) = [⟨16⟩] := by
    decide +kernel
  rw [hprofiler, Profiler.toList_window_run, hgaps, List.rtake, List.length_singleton,
    Nat.sub_eq_zero_of_le (le_max_right _ _), List.drop_zero]

/-- A report on two frames is a fault if the decimals cannot be formatted. -/
lemma report_faults (page : Page) {settings : Settings}
    (h : Display.maxDecimals < settings.decimals.toNat) :
    .report (.error .precision)
      ∈ ((ofSettings page settings).value.performAll twoFrames).value.1 := by
  set b := (ofSettings page settings).value
  set after := ((b.update ⟨0⟩).value.2.update ⟨16⟩).value.2
  have hsummary : after.summary.value = ⟨16, 16, 16⟩ := by
    show (Statistics.summarize after.session.profiler.window.toList).value = _
    rw [durations_after_two_frames]
    decide +kernel
  have hrate : (Duration.ofMillis after.summary.value.average).rate? = some 62.5 := by
    rw [hsummary]
    decide +kernel
  have hreport : after.report.value = .error .precision := by
    show (Display.Report.ofSummary after.summary.value settings.decimals.toNat).map _ = _
    rw [ofSummary_faults h hrate]
    rfl
  have houtcomes : (b.performAll twoFrames).value.1
      = [.frame ((b.update ⟨0⟩).value.1.mapError .fault),
          .frame (((b.update ⟨0⟩).value.2.update ⟨16⟩).value.1.mapError .fault),
          .report after.report.value] := rfl
  rw [houtcomes, hreport]
  simp

/-! ## Accepted settings -/

/-- A bench that is made from a JSON text is made with the settings in it. -/
lemma exists_ofSettings {page : Page} {text : String} {b : Logged Bench}
    (haccepted : ofJson page text = .ok b) :
    ∃ settings, Settings.ofJson text = .ok settings ∧ ofSettings page settings = b := by
  rw [ofJson] at haccepted
  cases hread : Settings.ofJson text with
  | error e =>
    rw [hread] at haccepted
    cases haccepted
  | ok settings =>
    rw [hread] at haccepted
    exact ⟨settings, rfl, Except.ok.inj haccepted⟩

/-- **When accepted settings are safe.**  Take any bench that is made from settings in a JSON text,
with a window that can be allocated.  All that can be done with it, on any page, ends without a
fault and with every index, slice and sum in range, if and only if there are no more decimals than
can be formatted. -/
theorem runs_are_safe_iff {page : Page} {text : String} {b : Logged Bench}
    (haccepted : ofJson page text = .ok b)
    (hroom : b.value.settings.sampleCapacity.toNat ≤ 2 ^ 60) :
    (∀ ops : List Operation,
      (∀ outcome ∈ (b.value.performAll ops).value.1, outcome.fault? = none)
        ∧ (b.value.performAll ops).value.2.session.profiler.window.Safe)
      ↔ b.value.settings.decimals.toNat ≤ Display.maxDecimals := by
  obtain ⟨settings, -, rfl⟩ := exists_ofSettings haccepted
  constructor
  · intro hsafe
    by_contra hmany
    have hfault := (hsafe twoFrames).1 _ (report_faults page (Nat.lt_of_not_le hmany))
    cases hfault
  · intro hfew ops
    refine ⟨Formattable.fault?_performAll ⟨hfew, hfew⟩ ops, ?_⟩
    have hself := (twins_performAll page settings ops).session.profiler
    refine hself.left.safe ?_
    rw [hself.capacity_eq]
    exact max_le hroom (by norm_num)

/-- The most decimals that can be formatted are safe. -/
theorem runs_are_safe_with_most_decimals :
    ∃ b, ofJson {} "[240,16,65535]" = .ok b
      ∧ b.value.settings.sampleCapacity.toNat ≤ 2 ^ 60
      ∧ ∀ ops : List Operation,
        (∀ outcome ∈ (b.value.performAll ops).value.1, outcome.fault? = none)
          ∧ (b.value.performAll ops).value.2.session.profiler.window.Safe := by
  have haccepted : ofJson {} "[240,16,65535]"
      = .ok (ofSettings {} { sampleCapacity := 240, refreshInterval := 16, decimals := 65535 }) :=
    rfl
  exact ⟨_, haccepted, by decide, (runs_are_safe_iff haccepted (by decide)).mpr (by decide)⟩

/-- One decimal more is accepted, and is a fault in the render loop: on a page with a document, with
the display attached, in the second frame, for which a refresh is due. -/
theorem accepted_settings_can_fault :
    ∃ b, ofJson {} "[240,16,65536]" = .ok b
      ∧ (b.value.performAll [
          .onPage fun page => { page with hasWindow := true, hasDocument := true },
          .attach, .update ⟨0⟩, .update ⟨16⟩]).value.1.map Outcome.fault?
        = [none, none, none, some .precision] :=
  ⟨_, rfl, by decide +kernel⟩

end Bench

end FramePacing
