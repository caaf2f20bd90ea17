import FramePacing.Proofs.Bench.Faults
import FramePacing.Proofs.Session.InStep

/-!
# What is shown on the page

A page belongs to whoever changes it; a bench writes to it only when it shows a summary.  `shows`
says which operations do that: attaching the display, and a frame for which a refresh is due while
it is attached.  Then each of the three elements that is there gets the rate of its own frame time,
all of one summary, whichever of the others are missing.  If the document is out of reach or a rate
cannot be formatted, nothing is written at all.

* `text?_writeTexts_of_mem`, `text?_writeTexts_of_not_mem` — writing texts changes the elements with
  their ids and no others.
* `shown_present`, `page_present_of_not` — a summary is shown as a whole or not at all.
* `page_perform_of_shows`, `elements_perform_of_not_shows` — which operations show one.
* `page_shows_one_summary` — the page after any operation of any run.
-/

namespace FramePacing

open Log

namespace Display

/-! ## Writing texts -/

section Write

variable {fields : List (String × String)}

lemma text?_writeText (p : Page) (id text other : String) :
    (writeText p id text).value.text? other
      = if other = id then (p.text? id).map fun _ => text else p.text? other := by
  rw [writeText]
  split_ifs with hpresent hid hid
  · rw [hid]
    exact p.text?_setText_self id text
  · exact p.text?_setText_of_ne text hid
  · rw [Option.not_isSome_iff_eq_none] at hpresent
    show p.text? other = _
    rw [hid, hpresent]
    rfl
  · rfl

/-- The elements whose ids are not written to stay as they are, … -/
lemma text?_writeTexts_of_not_mem {id : String} (h : id ∉ fields.map Prod.fst) (p : Page) :
    (writeTexts p fields).value.text? id = p.text? id := by
  induction fields generalizing p with
  | nil => rfl
  | cons field fields ih =>
    rw [List.map_cons, List.mem_cons, not_or] at h
    show (writeTexts (writeText p field.1 field.2).value fields).value.text? id = _
    rw [ih h.2, text?_writeText, if_neg h.1]

/-- … and each of the others that is there shows its own text, whichever are missing. -/
lemma text?_writeTexts_of_mem (hids : (fields.map Prod.fst).Nodup) {field : String × String}
    (h : field ∈ fields) (p : Page) :
    (writeTexts p fields).value.text? field.1 = (p.text? field.1).map fun _ => field.2 := by
  induction fields generalizing p with
  | nil => cases h
  | cons first fields ih =>
    rw [List.map_cons, List.nodup_cons] at hids
    show (writeTexts (writeText p first.1 first.2).value fields).value.text? field.1 = _
    rcases List.mem_cons.mp h with rfl | hrest
    · rw [text?_writeTexts_of_not_mem hids.1, text?_writeText, if_pos rfl]
    · have hne : field.1 ≠ first.1 := by
        intro heq
        exact hids.1 (heq ▸ List.mem_map_of_mem hrest)
      rw [ih hids.2 hrest, text?_writeText, if_neg hne]

end Write

/-! ## Showing a summary -/

/-- The elements of the page that show a summary, with the frame times that they show. -/
def statistics (s : Summary) : List (String × Float) := [
  ("avg_frame_time", s.average),
  ("one_percent_frame_time", s.onePercentLow),
  ("tenth_percent_frame_time", s.tenthPercentLow)]

/-- All rates of a summary can be formatted. -/
def Formats (s : Summary) (decimals : ℕ) : Prop :=
  ∀ field ∈ statistics s, ∃ text, rateText field.2 decimals = .ok text

/-- The texts of the elements of a page before and after a summary is shown: what is there of the
three elements shows the rate of its own frame time, and all else is as it was. -/
structure Shown (s : Summary) (decimals : ℕ) (before after : Page) : Prop where
  own : ∀ field ∈ statistics s, ∃ text, rateText field.2 decimals = .ok text
    ∧ after.text? field.1 = (before.text? field.1).map fun _ => text
  others : ∀ id ∉ (statistics s).map Prod.fst, after.text? id = before.text? id

section Present

variable {s : Summary} {decimals : ℕ} {p : Page}

lemma formats_of_le (h : decimals ≤ maxDecimals) (s : Summary) : Formats s decimals :=
  fun field _ => exists_rateText h field.2

/-- A report holds the rates of all three frame times, … -/
lemma ofSummary_of_formats (h : Formats s decimals) :
    ∃ average onePercent tenthPercent,
      rateText s.average decimals = .ok average
      ∧ rateText s.onePercentLow decimals = .ok onePercent
      ∧ rateText s.tenthPercentLow decimals = .ok tenthPercent
      ∧ Report.ofSummary s decimals = .ok ⟨average, onePercent, tenthPercent⟩ := by
  obtain ⟨average, haverage⟩ := h ("avg_frame_time", s.average) (by simp [statistics])
  obtain ⟨onePercent, honePercent⟩ :=
    h ("one_percent_frame_time", s.onePercentLow) (by simp [statistics])
  obtain ⟨tenthPercent, htenthPercent⟩ :=
    h ("tenth_percent_frame_time", s.tenthPercentLow) (by simp [statistics])
  exact ⟨average, onePercent, tenthPercent, haverage, honePercent, htenthPercent,
    ofSummary_eq haverage honePercent htenthPercent⟩

/-- … and there is none if one of them cannot be formatted. -/
lemma exists_fault_of_not_formats (h : ¬Formats s decimals) :
    ∃ f, Report.ofSummary s decimals = .error f := by
  rw [Report.ofSummary]
  rcases haverage : rateText s.average decimals with f | average
  · exact ⟨f, rfl⟩
  rcases honePercent : rateText s.onePercentLow decimals with f | onePercent
  · exact ⟨f, rfl⟩
  rcases htenthPercent : rateText s.tenthPercentLow decimals with f | tenthPercent
  · exact ⟨f, rfl⟩
  refine absurd ?_ h
  simp [Formats, statistics, haverage, honePercent, htenthPercent]

/-- **A summary is shown as a whole**, … -/
lemma shown_present (hdocument : p.showsDocument = true) (h : Formats s decimals) :
    Shown s decimals p (present s decimals p).value.2 := by
  obtain ⟨average, onePercent, tenthPercent, haverage, honePercent, htenthPercent, hreport⟩ :=
    ofSummary_of_formats h
  have hpresent : (present s decimals p).value.2
      = (writeTexts p (fields ⟨average, onePercent, tenthPercent⟩)).value := by
    rw [present, if_pos hdocument, hreport]
    rfl
  have hids : ((fields ⟨average, onePercent, tenthPercent⟩).map Prod.fst).Nodup := by
    simp [fields]
  have hwritten : ∀ field ∈ fields ⟨average, onePercent, tenthPercent⟩,
      (writeTexts p (fields ⟨average, onePercent, tenthPercent⟩)).value.text? field.1
        = (p.text? field.1).map fun _ => field.2 :=
    fun _ hfield => text?_writeTexts_of_mem hids hfield p
  rw [hpresent]
  refine ⟨?_, fun id hid => text?_writeTexts_of_not_mem hid p⟩
  simp only [fields, List.forall_mem_cons] at hwritten
  simp only [statistics, List.forall_mem_cons]
  exact ⟨⟨average, haverage, hwritten.1⟩, ⟨onePercent, honePercent, hwritten.2.1⟩,
    ⟨tenthPercent, htenthPercent, hwritten.2.2.1⟩, List.forall_mem_nil _⟩

/-- … or not at all. -/
lemma page_present_of_not (h : ¬(p.showsDocument = true ∧ Formats s decimals)) :
    (present s decimals p).value.2 = p := by
  rw [present]
  split_ifs with hdocument
  · obtain ⟨f, hfault⟩ := exists_fault_of_not_formats fun hformats => h ⟨hdocument, hformats⟩
    rw [hfault]
    rfl
  · rfl

end Present

end Display

/-! ## Which operations show one -/

namespace Bench

/-- An operation shows the summary of the window, if the page and the decimals allow it. -/
def shows (b : Bench) : Operation → Bool
  | .attach => true
  | .update now => b.isAttached && b.session.isDue now
  | .tick =>
    match b.page.readClock.1 with
    | .ok now => b.isAttached && b.session.isDue ⟨now⟩
    | .error _ => false
  | _ => false

variable {b : Bench} {op : Operation}

/-- A screen shows a summary if it is attached. -/
lemma page_receive (summary : Summary) (p : Profiler) (s : Screen) :
    (Receiver.receive summary p s).value.receiver.page
      = if s.attached then (Display.present summary s.decimals s.page).value.2 else s.page := by
  simp only [Receiver.receive, Screen.take]
  split_ifs <;> rfl

/-- With a frame for which a refresh is due, the summary of the window is shown. -/
lemma page_update (b : Bench) (now : Timestamp) :
    (b.update now).value.2.page = if b.isAttached && b.session.isDue now
      then (Display.present (b.update now).value.2.summary.value b.session.receiver.decimals
        b.page).value.2
      else b.page := by
  have hreceiver :
      (b.update now).value.2.page = (b.session.onFrame now).value.2.receiver.page := rfl
  have hsummary : (b.update now).value.2.summary = (b.session.record now).profiler.summary := by
    rw [summary, profiler_update]
    rfl
  rw [hreceiver, hsummary, Session.isDue]
  cases hd : b.session.recorded? now with
  | none =>
    rw [Session.value_onFrame, hd]
    simp only [Option.any_none, Bool.and_false]
    rfl
  | some d =>
    rw [Session.receiver_onFrame hd, Option.any_some]
    cases hdue : (b.session.cadence.tick d).1 with
    | false =>
      rw [Bool.and_false]
      rfl
    | true =>
      rw [Bool.and_true, if_pos rfl]
      exact page_receive _ _ _

lemma page_attach (b : Bench) : b.attach.value.2.page
    = (Display.present b.attach.value.2.summary.value b.session.receiver.decimals
      b.page).value.2 := by
  set screen := b.session.receiver.attach
  have hsession : b.attach.value.2.session
      = ({ b.session with receiver := screen, cadence := b.session.cadence.restart } :
          Session Screen).publish.value.2 := rfl
  have hprofiler : b.attach.value.2.session.profiler = b.session.profiler :=
    Session.profiler_publish_of_aloof (fun _ _ _ => rfl) _
  rw [page, hsession, Session.snd_publish, summary, hprofiler]
  exact (page_receive _ b.session.profiler screen).trans (if_pos rfl)

/-- A reading of the clock changes nothing but the clock. -/
lemma readClock_snd (p : Page) :
    p.readClock.2.elements = p.elements ∧ p.readClock.2.showsDocument = p.showsDocument := by
  rw [Page.readClock]
  split_ifs <;> exact ⟨rfl, rfl⟩

/-- **The operations that show a summary** show that of the window which they leave, … -/
lemma page_perform_of_shows (h : b.shows op = true) :
    ∃ p : Page, p.elements = b.page.elements ∧ p.showsDocument = b.page.showsDocument
      ∧ (b.perform op).value.2.page = (Display.present (b.perform op).value.2.summary.value
        b.session.receiver.decimals p).value.2 := by
  cases op with
  | attach => exact ⟨b.page, rfl, rfl, page_attach b⟩
  | update now => exact ⟨b.page, rfl, rfl, (page_update b now).trans (if_pos h)⟩
  | tick =>
    obtain ⟨helements, hdocument⟩ := readClock_snd b.page
    refine ⟨b.page.readClock.2, helements, hdocument, ?_⟩
    rw [shows] at h
    simp only [perform, tick]
    rcases hclock : b.page.readClock with ⟨missing | now, page⟩
    · rw [hclock] at h
      cases h
    · rw [hclock] at h
      exact (page_update (b.onPage page) ⟨now⟩).trans (if_pos h)
  | _ => cases h

/-- … and no other writes to the page. -/
lemma elements_perform_of_not_shows (h : b.shows op = false) (hop : ∀ change, op ≠ .onPage change) :
    (b.perform op).value.2.page.elements = b.page.elements := by
  cases op with
  | attach => cases h
  | update now =>
    refine congrArg Page.elements ((page_update b now).trans (if_neg ?_))
    exact Bool.eq_false_iff.mp h
  | tick =>
    obtain ⟨helements, -⟩ := readClock_snd b.page
    rw [shows] at h
    simp only [perform, tick]
    rcases hclock : b.page.readClock with ⟨missing | now, page⟩
    · rfl
    · rw [hclock] at h helements
      rw [← helements]
      refine congrArg Page.elements ((page_update (b.onPage page) ⟨now⟩).trans (if_neg ?_))
      exact Bool.eq_false_iff.mp h
  | onPage change => exact absurd rfl (hop change)
  | _ => rfl

/-! ## Any run -/

/-- **The page shows one summary or is left alone.**  Take any operation after any run of a bench,
with changes of the page in between.  If it shows a summary, the document is there and the rates can
be formatted, then all that is there of the three elements shows the rate of its own frame time in
the summary of the window as it is then, and every other element is as it was.  In every other case
no element is written to. -/
theorem page_shows_one_summary (page : Page) (settings : Settings) (past : List Operation)
    (op : Operation) (hop : ∀ change, op ≠ .onPage change) :
    let b := ((ofSettings page settings).value.performAll past).value.2
    let after := (b.perform op).value.2
    let decimals := settings.decimals.toNat
    let written := b.shows op = true ∧ b.page.showsDocument = true
      ∧ Display.Formats after.summary.value decimals
    (written → Display.Shown after.summary.value decimals b.page after.page)
      ∧ (¬written → after.page.elements = b.page.elements) := by
  intro b after decimals written
  have hdecimals : b.session.receiver.decimals = decimals := decimals_performAll _ past
  cases hshows : b.shows op with
  | false =>
    have helements : after.page.elements = b.page.elements :=
      elements_perform_of_not_shows hshows hop
    refine ⟨fun hwritten => ?_, fun _ => helements⟩
    exact absurd (hshows.symm.trans hwritten.1) Bool.false_ne_true
  | true =>
    obtain ⟨p, helements, hdocument, hpage⟩ := page_perform_of_shows hshows
    rw [hdecimals] at hpage
    constructor
    · rintro ⟨-, hb, hformats⟩
      obtain ⟨hown, hothers⟩ := Display.shown_present (hdocument.trans hb) hformats
      rw [← hpage] at hown hothers
      simp only [Page.text?, helements] at hown hothers
      exact ⟨hown, hothers⟩
    · intro hnot
      have hunwritten : ¬(p.showsDocument = true ∧ Display.Formats after.summary.value decimals) :=
        fun h => hnot ⟨hshows, hdocument.symm.trans h.1, h.2⟩
      rw [hpage, Display.page_present_of_not hunwritten, helements]

/-- With the second frame a refresh is due; of the three elements one is missing. -/
theorem page_shows_one_summary_of_two_frames :
    let page : Page :=
      { hasWindow := true
        hasDocument := true
        elements := [("avg_frame_time", ""), ("tenth_percent_frame_time", "")] }
    let b := ((ofSettings page { refreshInterval := 16 }).value.performAll
      [.attach, .update ⟨0⟩]).value.2
    let after := (b.perform (.update ⟨16⟩)).value.2
    Display.Shown after.summary.value 3 b.page after.page
      ∧ after.page.elements
        = [("avg_frame_time", "62.500fps"), ("tenth_percent_frame_time", "62.500fps")] := by
  intro page b after
  have hshows : b.shows (.update ⟨16⟩) = true := by decide +kernel
  have hdocument : b.page.showsDocument = true := by decide +kernel
  have hformats : Display.Formats after.summary.value 3 := Display.formats_of_le (by decide) _
  have hpage := page_shows_one_summary page { refreshInterval := 16 } [.attach, .update ⟨0⟩]
    (.update ⟨16⟩) (fun _ h => nomatch h)
  exact ⟨hpage.1 ⟨hshows, hdocument, hformats⟩, by decide +kernel⟩

end Bench

end FramePacing
