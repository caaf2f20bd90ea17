import FramePacing.Proofs.Bench.Shown

/-!
# What a bench warns of

There are three warnings.  The profiler gives one about a frame whose time is not finite.  Showing a
summary gives one for each of the three elements that is missing on the page.  The session gives one
when it publishes and the document is out of reach.  `foreseen` says of an operation which of these
it is to give, and in which order; it looks at the state before the operation and at nothing that
the operation logs.

A warning is given where the failure happens and is not repeated further up.  So the warnings of a
run are those foreseen for its operations, one after the other, and a frame for which a refresh is
due reports failure if and only if the warning about that was given.

* `publish_screen` — what publishing to a screen warns of and how it is answered.
* `onFrame_eq`, `onFrame_screen` — a frame is that, after it was noted and if it is due.
* `warnings_perform`, `warnings_performAll` — what an operation and what a run warns of.
* `warnings_are_foreseen` — the warnings of any run, and the answer to a frame that is due.
-/

namespace FramePacing

open Log

/-! ## Warnings -/

namespace Log.Logged

variable {α β : Type}

/-- The warnings among the messages. -/
def warnings (x : Logged α) : List Message := x.messages.filter fun m => m.level = .warn

@[simp] lemma warnings_pure (a : α) : (pure a : Logged α).warnings = [] := rfl

@[simp] lemma warnings_bind (x : Logged α) (f : α → Logged β) :
    (x >>= f).warnings = x.warnings ++ (f x.value).warnings := List.filter_append _ _

@[simp] lemma warnings_map (f : α → β) (x : Logged α) : (f <$> x).warnings = x.warnings := by
  rw [← bind_pure_comp, warnings_bind]
  exact List.append_nil _

@[simp] lemma warnings_say (level : Level) (c : Component) (text : String) :
    (say level c text).warnings = if level = .warn then [⟨level, c, text⟩] else [] := by
  cases level <;> rfl

end Log.Logged

open Logged

/-- The profiler ignored a time. -/
def Profiler.ignored (now : Timestamp) : Message :=
  ⟨.warn, component, "ignoring non-finite timestamp " ++ Decimal.plainText now.millis⟩

/-- There is no element with an id. -/
def Display.notFound (id : String) : Message :=
  ⟨.warn, component, "Stats element '" ++ id ++ "' not found in DOM"⟩

/-- A summary was refused. -/
def Session.refreshFailed (e : Error) : Message :=
  ⟨.warn, component, "Display refresh failed: " ++ e.message⟩

/-! ## Where they are given -/

namespace Profiler

lemma warnings_update (p : Profiler) (now : Timestamp) :
    (p.update now).warnings = if now.isValid then [] else [ignored now] := by
  rw [update]
  split_ifs <;> rfl

lemma warnings_summary (p : Profiler) : p.summary.warnings = [] := by
  rw [summary, Statistics.summarize]
  split_ifs <;> rfl

end Profiler

namespace Display

/-- The three elements of the page, in the order in which they are written. -/
def elementIds : List String := ["avg_frame_time", "one_percent_frame_time",
  "tenth_percent_frame_time"]

lemma text?_isNone_writeText (p : Page) (id text other : String) :
    ((writeText p id text).value.text? other).isNone = (p.text? other).isNone := by
  rw [text?_writeText]
  split_ifs with hid
  · rw [hid, Option.isNone_map]
  · rfl

/-- Each element that is missing is warned of, whichever of the others are there. -/
lemma warnings_writeTexts (p : Page) (fields : List (String × String)) :
    (writeTexts p fields).warnings
      = ((fields.map Prod.fst).filter fun id => (p.text? id).isNone).map notFound := by
  induction fields generalizing p with
  | nil => rfl
  | cons field fields ih =>
    have hfirst : (writeText p field.1 field.2).warnings
        = if (p.text? field.1).isNone then [notFound field.1] else [] := by
      rw [writeText]
      cases p.text? field.1 <;> rfl
    rw [writeTexts, warnings_bind, hfirst, ih]
    simp only [text?_isNone_writeText]
    rw [List.map_cons, List.filter_cons]
    split_ifs <;> rfl

/-- The elements that are missing on a page. -/
def missingIds (p : Page) : List String := elementIds.filter fun id => (p.text? id).isNone

/-- What publishing to a page is to warn of. -/
def foreseen (p : Page) : List Message :=
  if p.showsDocument then (missingIds p).map notFound
  else [Session.refreshFailed Page.Missing.document.toError]

lemma foreseen_congr {p q : Page} (helements : p.elements = q.elements)
    (hdocument : p.showsDocument = q.showsDocument) : foreseen p = foreseen q := by
  simp only [foreseen, missingIds, Page.text?, helements, hdocument]

variable {decimals : ℕ}

/-- With decimals that can be formatted a page with a document takes every summary, and warns of the
elements that are missing; without one it refuses. -/
lemma present_eq (h : decimals ≤ maxDecimals) (summary : Summary) (p : Page) :
    (present summary decimals p).value.1
        = (if p.showsDocument then .ok () else .error (.error Page.Missing.document.toError))
      ∧ (present summary decimals p).warnings
        = if p.showsDocument then (missingIds p).map notFound else [] := by
  obtain ⟨report, hreport⟩ := exists_report h summary
  rw [present, hreport]
  split_ifs
  · exact ⟨rfl, by simp [warnings_writeTexts, fields, missingIds, elementIds]⟩
  · exact ⟨rfl, rfl⟩

end Display

/-! ### Publishing -/

namespace Session

/-- The session warns of a refusal, after whatever the receiver warned of. -/
lemma warnings_publish {ρ : Type} [Receiver ρ] (s : Session ρ) : s.publish.warnings
    = (Receiver.receive s.profiler.summary.value s.profiler s.receiver).warnings
      ++ match s.reply.verdict with
        | .error (.error e) => [refreshFailed e]
        | _ => [] := by
  have hhandOver : s.handOver.warnings
      = (Receiver.receive s.profiler.summary.value s.profiler s.receiver).warnings := by
    simp [handOver, Profiler.handOver, Profiler.warnings_summary]
  rw [publish, warnings_bind, hhandOver, value_handOver]
  rcases s.reply.verdict with (e | f) | u <;> rfl

/-- The session after a frame was noted and counted. -/
def noted {ρ : Type} (s : Session ρ) (now : Timestamp) : Session ρ :=
  { s.record now with
    cadence := match s.recorded? now with
      | some d => (s.cadence.tick d).2
      | none => s.cadence }

/-- **A frame** is noted and counted, and then there is a publish if that is due. -/
lemma onFrame_eq {ρ : Type} [Receiver ρ] (s : Session ρ) (now : Timestamp) :
    s.onFrame now = (do
      let _ ← s.profiler.update now
      if s.isDue now then (s.noted now).publish else return (.ok false, s.noted now)) := by
  have hbind : ∀ f : Profiler → Logged (Except Fault Bool × Session ρ),
      (s.profiler.update now >>= f)
        = s.profiler.update now >>= fun _ => f (s.profiler.update now).value := fun _ => rfl
  rw [isDue, noted, recorded?, onFrame, hbind]
  refine bind_congr fun _ => ?_
  cases hvalid : now.isValid with
  | false =>
    rw [if_neg Bool.false_ne_true]
    cases s.profiler.gap? now <;> rfl
  | true =>
    rw [if_pos rfl]
    cases s.profiler.gap? now with
    | none => rfl
    | some d =>
      simp only [if_true, countFrame, Option.any_some]
      rfl

section Screens

variable {s : Session Screen} (h : s.receiver.decimals ≤ Display.maxDecimals)
include h

/-- Publishing to a screen fails if and only if it is attached and the document is out of reach;
then that is warned of, and otherwise the missing elements are, if it is attached. -/
lemma publish_screen : s.publish.value.1
      = .ok !(s.receiver.attached && !s.receiver.page.showsDocument)
    ∧ s.publish.warnings
      = if s.receiver.attached then Display.foreseen s.receiver.page else [] := by
  obtain ⟨hverdict, hwarnings⟩ := Display.present_eq h s.profiler.summary.value s.receiver.page
  rw [answer_publish, warnings_publish, reply]
  simp only [Receiver.receive, Screen.take]
  split_ifs with hattached
  · simp only [warnings_bind, value_bind, value_pure, warnings_pure, hverdict, hwarnings, hattached,
      Display.foreseen]
    cases s.receiver.page.showsDocument <;> simp
  · simp [hattached]

/-- **A frame on a screen** is answered by what publishing answers if a refresh is due; it warns of
its time if that is not finite, and of what publishing warns of. -/
lemma onFrame_screen (now : Timestamp) : (s.onFrame now).value.1
      = .ok (s.isDue now && !(s.receiver.attached && !s.receiver.page.showsDocument))
    ∧ (s.onFrame now).warnings
      = (if now.isValid then [] else [Profiler.ignored now])
        ++ if s.receiver.attached && s.isDue now then Display.foreseen s.receiver.page else [] := by
  obtain ⟨hanswer, hwarnings⟩ := publish_screen (s := s.noted now) h
  rw [onFrame_eq]
  cases hdue : s.isDue now with
  | false => simp [Profiler.warnings_update]
  | true =>
    rw [if_pos rfl, value_bind, warnings_bind, hanswer, hwarnings, Profiler.warnings_update]
    simp only [Bool.true_and, Bool.and_true]
    exact ⟨rfl, rfl⟩

end Screens

end Session

/-! ## Operations -/

namespace Bench

variable {b : Bench} {op : Operation} {now : Timestamp}

/-- The time of the frame that an operation takes note of. -/
def frame? (b : Bench) : Operation → Option Timestamp
  | .update now => some now
  | .tick => b.page.readClock.1.toOption.map Timestamp.mk
  | _ => none

/-- The time that the profiler is told with an operation. -/
def told? (b : Bench) : Operation → Option Timestamp
  | .call (.update now) => some now
  | op => b.frame? op

/-- What an operation is to warn of: of a time that is not finite, and of what is missing on the
page if a summary is to be shown. -/
def foreseen (b : Bench) (op : Operation) : List Message :=
  ((b.told? op).toList.filter fun now => !now.isValid).map Profiler.ignored
    ++ if b.shows op then Display.foreseen b.page else []

/-- What all operations of a run are to warn of, in order. -/
def allForeseen (b : Bench) : List Operation → List Message
  | [] => []
  | op :: ops => b.foreseen op ++ (b.perform op).value.2.allForeseen ops

section Operations

variable (h : b.session.receiver.decimals ≤ Display.maxDecimals)
include h

lemma update_screen (now : Timestamp) : (b.update now).value.1
      = .ok (b.session.isDue now && !(b.isAttached && !b.page.showsDocument))
    ∧ (b.update now).warnings = b.foreseen (.update now) := by
  obtain ⟨hanswer, hwarnings⟩ := Session.onFrame_screen h now
  refine ⟨hanswer, ?_⟩
  have hignored : (if now.isValid then [] else [Profiler.ignored now])
      = ((b.told? (.update now)).toList.filter fun now => !now.isValid).map Profiler.ignored := by
    simp only [told?, frame?, Option.toList_some, List.filter_singleton]
    cases now.isValid <;> rfl
  simp only [update, warnings_bind, warnings_pure, List.append_nil, hwarnings, hignored]
  rfl

/-- **An operation warns** of what is foreseen. -/
lemma warnings_perform (op : Operation) : (b.perform op).warnings = b.foreseen op := by
  cases op with
  | update now =>
    simp only [perform, warnings_bind, warnings_pure, List.append_nil, (update_screen h now).2]
  | tick =>
    obtain ⟨helements, hdocument⟩ := readClock_snd b.page
    rcases hclock : b.page.readClock with ⟨missing | now, page⟩
    · simp [perform, tick, foreseen, told?, frame?, shows, hclock, Except.toOption]
    · rw [hclock] at helements hdocument
      have hpage := Display.foreseen_congr helements hdocument
      have hframe := (update_screen (b := b.onPage page) h ⟨now⟩).2
      have hforeseen : (b.onPage page).foreseen (.update ⟨now⟩) = b.foreseen .tick := by
        simp only [foreseen, told?, frame?, shows, hclock, ← hpage]
        rfl
      simp only [perform, tick, hclock, warnings_bind, warnings_pure, List.append_nil, hframe,
        hforeseen]
  | attach =>
    have hpublish := (Session.publish_screen (s := { (b.mapScreen (·.attach)).session with
      cadence := b.session.cadence.restart }) h).2
    simp only [perform, attach, Session.refresh, warnings_bind, warnings_pure, List.append_nil]
    exact hpublish.trans (if_pos rfl)
  | call c =>
    cases c with
    | update now =>
      simp only [perform, Profiler.call, warnings_bind, warnings_pure, List.append_nil,
        Profiler.warnings_update, foreseen, told?, shows, Option.toList_some, List.filter_singleton]
      cases now.isValid <;> rfl
    | reset => rfl
  | summary =>
    simp only [perform, summary, warnings_bind, warnings_pure, Profiler.warnings_summary]
    rfl
  | report =>
    simp only [perform, report, summary, warnings_bind, warnings_pure, Profiler.warnings_summary]
    rfl
  | _ => rfl

/-- **A run warns** of what is foreseen for its operations, one after the other. -/
lemma warnings_performAll (ops : List Operation) :
    (b.performAll ops).warnings = b.allForeseen ops := by
  induction ops generalizing b with
  | nil => rfl
  | cons op ops ih =>
    have hnext := ih (b := (b.perform op).value.2) ((decimals_perform b op).trans_le h)
    rw [performAll] at hnext
    simp only [performAll, inTurn, warnings_bind, warnings_pure, List.append_nil, hnext,
      warnings_perform h]
    rfl

/-- A frame with which a refresh is due fails if and only if the display is attached and the
document is out of reach. -/
lemma answer_of_isDue (hframe : b.frame? op = some now) (hdue : b.session.isDue now = true) :
    (b.perform op).value.1 = .frame (.ok !(b.isAttached && !b.page.showsDocument)) := by
  cases op with
  | update time =>
    obtain rfl : time = now := Option.some.inj hframe
    have hanswer := (update_screen h time).1
    rw [hdue, Bool.true_and] at hanswer
    simp only [perform, value_bind, value_pure, hanswer]
    rfl
  | tick =>
    obtain ⟨-, hdocument⟩ := readClock_snd b.page
    rw [frame?] at hframe
    rcases hclock : b.page.readClock with ⟨missing | time, page⟩
    · rw [hclock] at hframe
      cases hframe
    · rw [hclock] at hframe hdocument
      obtain rfl : ⟨time⟩ = now := Option.some.inj hframe
      have hanswer := (update_screen (b := b.onPage page) h ⟨time⟩).1
      have hdue' : (b.onPage page).session.isDue ⟨time⟩ = true := hdue
      rw [hdue', Bool.true_and] at hanswer
      simp only [perform, tick, hclock, value_bind, value_pure, hanswer]
      rw [← hdocument]
      rfl
  | _ => cases hframe

end Operations

/-- The frame with which a refresh is due has a finite time, so nothing but what is missing on the
page is warned of. -/
lemma foreseen_of_isDue (hframe : b.frame? op = some now) (hdue : b.session.isDue now = true) :
    b.foreseen op = if b.isAttached then Display.foreseen b.page else [] := by
  have hvalid : now.isValid = true := by
    rw [Session.isDue, Option.any_eq_true] at hdue
    obtain ⟨d, hd, -⟩ := hdue
    exact (Session.eq_since_of_recorded? hd).1
  cases op with
  | update time =>
    obtain rfl : time = now := Option.some.inj hframe
    simp [foreseen, told?, frame?, shows, hvalid, hdue]
  | tick =>
    rw [frame?] at hframe
    rcases hclock : b.page.readClock with ⟨missing | time, page⟩
    · rw [hclock] at hframe
      cases hframe
    · rw [hclock] at hframe
      obtain rfl : ⟨time⟩ = now := Option.some.inj hframe
      simp [foreseen, told?, frame?, shows, hclock, Except.toOption, hvalid, hdue]
  | _ => cases hframe

lemma count_notFound (e : Error) (ids : List String) :
    (ids.map Display.notFound).count (Session.refreshFailed e) = 0 := by
  simp [List.count_eq_zero, Display.notFound, Session.refreshFailed, Display.component,
    Session.component]

/-- **No failure is silent and none is told twice.**  Take any run of a bench whose decimals can be
formatted, with changes of the page in between.  Its warnings are exactly those foreseen for its
operations, in order: one of each time that is not finite; and with each summary that is to be
shown, one of each of the three elements that is missing if the document is there, and one of the
failed refresh if it is not.  A frame with which a refresh is due is answered with failure if that
frame was warned of a failed refresh, once, and with success if it was not. -/
theorem warnings_are_foreseen (page : Page) (settings : Settings)
    (hdecimals : settings.decimals.toNat ≤ Display.maxDecimals) :
    let start := ofSettings page settings
    (∀ ops, (do let b ← start; b.performAll ops).warnings = start.value.allForeseen ops)
    ∧ ∀ past op now,
      let b := (start.value.performAll past).value.2
      let x := b.perform op
      let failures := x.warnings.count (Session.refreshFailed Page.Missing.document.toError)
      b.frame? op = some now → b.session.isDue now = true →
        (x.value.1 = .frame (.ok false) ∧ failures = 1)
        ∨ (x.value.1 = .frame (.ok true) ∧ failures = 0) := by
  intro start
  refine ⟨fun ops => ?_, ?_⟩
  · have hstart : start.warnings = [] := rfl
    rw [warnings_bind, hstart, List.nil_append, warnings_performAll hdecimals]
  · intro past op now b x failures hframe hdue
    have hscreen : b.session.receiver.decimals ≤ Display.maxDecimals :=
      (decimals_performAll start.value past).trans_le hdecimals
    have hwarnings : x.warnings = if b.isAttached then Display.foreseen b.page else [] :=
      (warnings_perform hscreen op).trans (foreseen_of_isDue hframe hdue)
    have hanswer : x.value.1 = .frame (.ok !(b.isAttached && !b.page.showsDocument)) :=
      answer_of_isDue hscreen hframe hdue
    simp only [failures, hwarnings, hanswer, Display.foreseen]
    cases b.isAttached with
    | false => exact Or.inr ⟨rfl, rfl⟩
    | true =>
      cases b.page.showsDocument with
      | false => exact Or.inl ⟨rfl, List.count_singleton_self⟩
      | true => exact Or.inr ⟨rfl, count_notFound _ _⟩

/-- A display is attached to a page with one of the three elements; then the document goes, a frame
comes without a time, and one with which a refresh is due. -/
theorem warnings_are_foreseen_of_a_page_that_goes :
    let page : Page :=
      { hasWindow := true, hasDocument := true, elements := [("avg_frame_time", "")] }
    let ops : List Operation := [.attach, .update ⟨0⟩,
      .onPage fun page => { page with hasDocument := false }, .update ⟨0 / 0⟩, .update ⟨1000⟩]
    (do let b ← ofSettings page {}; b.performAll ops).warnings = [
        ⟨.warn, ⟨.presentation, "DomStatsDisplay"⟩,
          "Stats element 'one_percent_frame_time' not found in DOM"⟩,
        ⟨.warn, ⟨.presentation, "DomStatsDisplay"⟩,
          "Stats element 'tenth_percent_frame_time' not found in DOM"⟩,
        ⟨.warn, ⟨.domain, "PercentileProfiler"⟩, "ignoring non-finite timestamp NaN"⟩,
        ⟨.warn, ⟨.application, "BenchSession"⟩,
          "Display refresh failed: Browser API Error: Document not available"⟩]
      ∧ (((ofSettings page {}).value.performAll (ops.take 4)).value.2.perform
          (.update ⟨1000⟩)).value.1 = .frame (.ok false) := by
  intro page ops
  have hdecimals : ({} : Settings).decimals.toNat ≤ Display.maxDecimals := by decide
  obtain ⟨hwarnings, hframes⟩ := warnings_are_foreseen page {} hdecimals
  have hlast := hframes (ops.take 4) (.update ⟨1000⟩) ⟨1000⟩ rfl (by decide +kernel)
  refine ⟨(hwarnings ops).trans (by decide +kernel), ?_⟩
  rcases hlast with ⟨hanswer, -⟩ | ⟨-, hnone⟩
  · exact hanswer
  · exact absurd hnone (by decide +kernel)

end Bench

end FramePacing
