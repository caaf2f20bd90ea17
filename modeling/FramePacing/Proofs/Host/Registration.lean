import FramePacing.Host
import Mathlib.Data.List.Basic
import Mathlib.Tactic.Lemma

/-!
# The first logger that is registered stays

A host starts without a logger.  `openLog` registers one, for a level that is asked for by name, and
logs that it was called; a name that is no level's registers nothing.  Once there is a logger, all
further calls of `openLog` only log: the level of the first one decides for good what is printed.

* `perform_openLog_of_unknown` — an unknown name changes nothing.
* `console_perform`, `printed_perform` — what one call registers and prints, whatever came before.
* `printed_of_registered`, `printed_of_no_choice` — what a run prints with a logger and without one.
* `first_choice_decides` — both, for every run of a host that starts without one.
-/

namespace FramePacing

open Log (Clock Console ConsoleLine Entry Level Logged Message)

/-! ## Levels by name -/

/-- The same text but for the case of ASCII letters. -/
def AlikeButCase (a b : String) : Prop := a.map Char.toLower = b.map Char.toLower

instance (a b : String) : Decidable (AlikeButCase a b) :=
  inferInstanceAs (Decidable (a.map Char.toLower = b.map Char.toLower))

/-- What an entry is printed as. -/
def Log.Entry.shown (e : Entry) : ConsoleLine := ⟨e.message.level, e.line .performance⟩

namespace Host

/-! ## Calls -/

/-- What is done to a host. -/
inductive Call where
  | openLog (level : Option String)
  | log (m : Message)
  /-- Registering the performance clock. -/
  | start
  /-- A change of the page from outside. -/
  | onPage (change : Page → Page)

namespace Call

/-- The level for which a call asks with success; the least one if it leaves that open. -/
def choice? : Call → Option Level
  | openLog none => some .debug
  | openLog (some text) => Level.all.find? fun level => AlikeButCase text level.name
  | _ => none

/-- The message that every successful call of `openLog` logs. -/
def opened : Message := ⟨.info, ⟨.presentation, "Initialize"⟩, "Frame bench initialized"⟩

/-- What is logged with a call. -/
def message? : Call → Option Message
  | openLog level => (openLog level).choice?.map fun _ => opened
  | log m => some m
  | _ => none

end Call

/-- The answer to a call, what is printed with it, and the host that it leaves. -/
def perform (h : Host) : Call → Except String Unit × List ConsoleLine × Host
  | .openLog level => settle (h.openLog level)
  | .log m => (.ok (), h.deliver m)
  | .start => (.ok (), [], h.start)
  | .onPage change => (.ok (), [], h.withPage (change h.page))

/-- The host after a run. -/
def reached (h : Host) : List Call → Host
  | [] => h
  | c :: calls => (h.perform c).2.2.reached calls

/-- All that a run prints. -/
def printed (h : Host) : List Call → List ConsoleLine
  | [] => []
  | c :: calls => (h.perform c).2.1 ++ (h.perform c).2.2.printed calls

/-- A message with the present time. -/
def stamp (h : Host) (m : Message) : Entry := ⟨h.readTime.1, m⟩

/-- All that is logged in a run, printed or not, each entry with the time of its call. -/
def logged (h : Host) : List Call → List Entry
  | [] => []
  | c :: calls => (c.message?.map h.stamp).toList ++ (h.perform c).2.2.logged calls

/-! ## One call -/

variable {h : Host} {c : Call}

/-- **A level is found by its name**, in letters of either case. -/
lemma consoleFor?_eq (level : Option String) :
    consoleFor? level = (Call.openLog level).choice?.map Console.mk := by
  cases level with
  | none => rfl
  | some text =>
    have hlower : ∀ l : Level, l.name.map Char.toLower = l.name := by
      intro l
      cases l <;> decide +kernel
    have hfind : Level.ofName? text = (Call.openLog (some text)).choice? := by
      simp only [Level.ofName?, Call.choice?, AlikeButCase, hlower]
      rfl
    rw [consoleFor?, hfind]

/-- Names are compared letter by letter. -/
lemma choice?_eq_find? (text : String) : (Call.openLog (some text)).choice?
    = Level.all.find? fun level =>
        text.toList.map Char.toLower = level.name.toList.map Char.toLower := by
  simp only [Call.choice?, AlikeButCase, ← String.toList_inj, String.toList_map]

/-- **No level is found** if none has a name like the one asked for. -/
lemma choice?_eq_none_iff (level : Option String) : (Call.openLog level).choice? = none
    ↔ ∃ text, level = some text ∧ ∀ l : Level, ¬AlikeButCase text l.name := by
  have hall : ∀ l : Level, l ∈ Level.all := by
    intro l
    cases l <;> decide
  cases level with
  | none => simp [Call.choice?]
  | some text =>
    simp only [Call.choice?, List.find?_eq_none, decide_eq_true_iff, Option.some_inj,
      exists_eq_left']
    exact ⟨fun hnone l => hnone l (hall l), fun hnone l _ => hnone l⟩

/-- An unknown level is answered with an error, and nothing else comes of it. -/
lemma perform_openLog_of_unknown {text : String}
    (hunknown : ∀ l : Level, ¬AlikeButCase text l.name) :
    h.perform (.openLog (some text)) = (.error (unknownLevel text), [], h) := by
  have hnone := (choice?_eq_none_iff (some text)).mpr ⟨text, rfl, hunknown⟩
  rw [perform, openLog, consoleFor?_eq, hnone]
  rfl

/-- A level that is found is registered unless there is a logger, and the call is logged. -/
lemma perform_openLog {level : Option String} {l : Level}
    (hl : (Call.openLog level).choice? = some l) :
    h.perform (.openLog level)
      = (.ok (), ({ h with console := h.console.or (some ⟨l⟩) } : Host).deliver Call.opened) := by
  rw [perform, openLog, consoleFor?_eq, hl]
  simp only [settle, Option.map_some, bind, pure, Logged.say, List.append_nil, deliverAll]
  rfl

/-- The time does not depend on the logger. -/
lemma readTime_withConsole (h : Host) (console : Option Console) :
    ({ h with console } : Host).readTime
      = (h.readTime.1, { h.readTime.2 with console }) := by
  obtain ⟨place, _, clock, counter⟩ := h
  cases clock <;> rfl

lemma console_readTime (h : Host) : h.readTime.2.console = h.console :=
  congrArg (·.2.console) (readTime_withConsole h h.console)

/-- A message is printed if there is a logger that lets it through. -/
lemma deliver_eq (h : Host) (m : Message) :
    h.deliver m = ((h.console.bind (·.write (h.stamp m))).toList, h.readTime.2) := by
  simp only [deliver, console_readTime]
  rfl

/-- **A logger stays** once there is one; before that a call registers the one that it asks for. -/
lemma console_perform (h : Host) (c : Call) :
    (h.perform c).2.2.console = h.console.or (c.choice?.map Console.mk) := by
  cases c with
  | openLog level =>
    cases hl : (Call.openLog level).choice? with
    | none =>
      obtain ⟨text, rfl, hunknown⟩ := (choice?_eq_none_iff level).mp hl
      rw [perform_openLog_of_unknown hunknown]
      simp
    | some l =>
      rw [perform_openLog hl, deliver_eq, console_readTime]
      rfl
  | log m =>
    rw [perform, deliver_eq, console_readTime]
    simp [Call.choice?]
  | start => simp [perform, Host.start, Call.choice?]
  | onPage change => simp [perform, withPage, Call.choice?]

/-- **A call prints** its message, as far as the logger lets it through that is there after it. -/
lemma printed_perform (h : Host) (c : Call) : (h.perform c).2.1
    = ((c.message?.map h.stamp).bind fun e =>
        (h.perform c).2.2.console.bind (·.write e)).toList := by
  rw [console_perform]
  cases c with
  | openLog level =>
    cases hl : (Call.openLog level).choice? with
    | none =>
      obtain ⟨text, rfl, hunknown⟩ := (choice?_eq_none_iff level).mp hl
      rw [perform_openLog_of_unknown hunknown, Call.message?, hl]
      rfl
    | some l =>
      have hstamp : ({ h with console := h.console.or (some ⟨l⟩) } : Host).stamp Call.opened
          = h.stamp Call.opened := by
        rw [stamp, readTime_withConsole, stamp]
      rw [perform_openLog hl, deliver_eq, Call.message?, hl, hstamp]
      rfl
  | log m =>
    rw [perform, deliver_eq]
    simp [Call.message?, Call.choice?]
  | start => rfl
  | onPage change => rfl

lemma printed_perform_of_registered {minimum : Level}
    (hconsole : (h.perform c).2.2.console = some ⟨minimum⟩) : (h.perform c).2.1
      = ((c.message?.map h.stamp).toList.filter fun e => minimum ≤ e.message.level).map
          Entry.shown := by
  rw [printed_perform, hconsole]
  cases c.message? with
  | none => rfl
  | some m =>
    simp only [Option.map_some, Option.bind_some, Console.write, Option.toList_some,
      List.filter_singleton]
    by_cases hle : minimum ≤ (h.stamp m).message.level <;> simp [hle, Entry.shown]

/-! ## Runs -/

/-- **With a logger** a run prints what is logged at its level and above, in order.  It makes no
difference whether the logger was there before the first call or was registered with it. -/
lemma printed_of_registered {minimum : Level}
    (hconsole : (h.perform c).2.2.console = some ⟨minimum⟩) (calls : List Call) :
    h.printed (c :: calls)
        = ((h.logged (c :: calls)).filter fun e => minimum ≤ e.message.level).map Entry.shown
      ∧ (h.reached (c :: calls)).console = some ⟨minimum⟩ := by
  induction calls generalizing h c with
  | nil =>
    refine ⟨?_, hconsole⟩
    rw [printed, logged, printed_perform_of_registered hconsole]
    simp only [printed, logged, List.append_nil]
  | cons next calls ih =>
    have hnext : ((h.perform c).2.2.perform next).2.2.console = some ⟨minimum⟩ := by
      rw [console_perform, hconsole]
      rfl
    obtain ⟨hprinted, hreached⟩ := ih hnext
    have hlogged : h.logged (c :: next :: calls)
        = (c.message?.map h.stamp).toList ++ (h.perform c).2.2.logged (next :: calls) := rfl
    refine ⟨?_, hreached⟩
    rw [printed, hprinted, printed_perform_of_registered hconsole, hlogged, List.filter_append,
      List.map_append]

/-- **Without one** a run prints nothing, as long as it registers none. -/
lemma printed_of_no_choice (hconsole : h.console = none) {calls : List Call}
    (hcalls : ∀ c ∈ calls, c.choice? = none) :
    h.printed calls = [] ∧ (h.reached calls).console = none := by
  induction calls generalizing h with
  | nil => exact ⟨rfl, hconsole⟩
  | cons c calls ih =>
    obtain ⟨hc, hcalls⟩ := List.forall_mem_cons.mp hcalls
    have hafter : (h.perform c).2.2.console = none := by
      rw [console_perform, hconsole, hc]
      rfl
    obtain ⟨hprinted, hreached⟩ := ih hafter hcalls
    refine ⟨?_, hreached⟩
    rw [printed, hprinted, printed_perform, hafter]
    cases c.message? <;> rfl

lemma printed_append (h : Host) (before after : List Call) :
    h.printed (before ++ after) = h.printed before ++ (h.reached before).printed after := by
  induction before generalizing h with
  | nil => rfl
  | cons c before ih => simp only [List.cons_append, printed, reached, ih, List.append_assoc]

lemma reached_append (h : Host) (before after : List Call) :
    h.reached (before ++ after) = (h.reached before).reached after := by
  induction before generalizing h with
  | nil => rfl
  | cons c before ih => simp only [List.cons_append, reached, ih]

/-- **The first level that is found decides for good what is printed.**  Take any run of a host that
starts without a logger.  A call of `openLog` fails if and only if it names a level and there is
none of that name, and then it registers nothing and prints nothing.  As long as no call has found a
level, nothing is printed.  From the call that finds the first one, this call included, every entry
that is logged at this level or above is printed, in order, once, and with the method of its own
level, whatever levels are asked for later. -/
theorem first_choice_decides (place : Place) (clock : Clock) (counter : ℕ) (calls : List Call) :
    let h : Host := { place, clock, counter }
    (∀ (g : Host) (level : Option String),
      let x := g.perform (.openLog level)
      ((∃ e, x.1 = .error e) ↔ (Call.openLog level).choice? = none)
      ∧ ((∃ e, x.1 = .error e)
        ↔ ∃ text, level = some text ∧ ∀ l : Level, ¬AlikeButCase text l.name)
      ∧ ((∃ e, x.1 = .error e) → x.2 = ([], g)))
    ∧ ((∀ c ∈ calls, c.choice? = none) → h.printed calls = [] ∧ (h.reached calls).console = none)
    ∧ ∀ before c after minimum, calls = before ++ c :: after →
      (∀ b ∈ before, b.choice? = none) → c.choice? = some minimum →
      h.printed calls
          = (((h.reached before).logged (c :: after)).filter
              fun e => minimum ≤ e.message.level).map Entry.shown
        ∧ (h.reached calls).console = some ⟨minimum⟩ := by
  intro h
  refine ⟨fun g level => ?_, printed_of_no_choice rfl, ?_⟩
  · have hfails : (∃ e, (g.perform (.openLog level)).1 = .error e)
        ↔ (Call.openLog level).choice? = none := by
      cases hl : (Call.openLog level).choice? with
      | none =>
        obtain ⟨text, rfl, hunknown⟩ := (choice?_eq_none_iff level).mp hl
        simp [perform_openLog_of_unknown hunknown]
      | some l => simp [perform_openLog hl]
    refine ⟨hfails, hfails.trans (choice?_eq_none_iff level), fun hfailed => ?_⟩
    obtain ⟨text, rfl, hunknown⟩ := (choice?_eq_none_iff level).mp (hfails.mp hfailed)
    rw [perform_openLog_of_unknown hunknown]
  · rintro before c after minimum rfl hbefore hc
    obtain ⟨hnothing, hconsole⟩ := printed_of_no_choice (h := h) rfl hbefore
    have hfirst : ((h.reached before).perform c).2.2.console = some ⟨minimum⟩ := by
      rw [console_perform, hconsole, hc]
      rfl
    rw [printed_append, reached_append, hnothing, List.nil_append]
    exact printed_of_registered hfirst after

/-- A warning before there is a logger, a name that no level has, and two that levels have: what is
printed is what the first of these lets through. -/
theorem first_choice_decides_among_four :
    let h : Host := {}
    let m (level : Level) : Message := ⟨level, ⟨.domain, "Clock"⟩, "drift"⟩
    let calls : List Call :=
      [.log (m .warn), .openLog (some "loud"), .openLog (some "Warn"), .openLog (some "debug"),
        .log (m .info), .log (m .error)]
    ((h.perform (.openLog (some "loud"))).1 = .error "unknown log level 'loud'")
      ∧ h.printed calls = [⟨.error, "[00:00:00.004] ERROR DOM:Clock | drift"⟩]
      ∧ (h.reached calls).console = some ⟨.warn⟩ := by
  intro h m calls
  have hwarn : (Call.openLog (some "Warn")).choice? = some .warn := by
    rw [choice?_eq_find?]
    decide +kernel
  have hdebug : (Call.openLog (some "debug")).choice? = some .debug := by
    rw [choice?_eq_find?]
    decide +kernel
  obtain ⟨-, -, hdecides⟩ := first_choice_decides (.bare {}) .sequence 0 calls
  obtain ⟨hprinted, hconsole⟩ := hdecides [.log (m .warn), .openLog (some "loud")]
    (.openLog (some "Warn")) [.openLog (some "debug"), .log (m .info), .log (m .error)] .warn rfl
    (by decide +kernel) hwarn
  refine ⟨by decide +kernel, hprinted.trans ?_, hconsole⟩
  simp only [logged, Call.message?, hwarn, hdebug, perform_openLog hwarn, perform_openLog hdebug]
  decide +kernel

end Host

end FramePacing
