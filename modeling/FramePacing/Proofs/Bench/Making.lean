import FramePacing.Proofs.Bench.Faults
import FramePacing.Proofs.Duration.Total

/-!
# Two ways to make a session

`Session.ofSettings` validates the settings that it is given.  A bench does not: it takes settings
that were validated when they were read, and makes its session from the parts, where a window has
room for one frame at least and an interval that is not positive counts as zero.  With settings that
are valid neither makes a difference, and so both ways lead to the same session.

A bench adds nothing to its session.  `asks` says what an operation of a bench asks of the session,
and a run of a bench is the run of its session with all of that.

* `Settings.complaint?_eq_none_iff` — which settings are valid.
* `runs_asked` — a bench does what its session does.
* `both_ways_agree` — a text makes a bench if and only if its settings make a session, and then the
  bench runs as that session does.
-/

namespace FramePacing

open Log Logged
open Binary

/-! ## Valid settings -/

/-- Settings with room for a frame, and with an interval of finite positive length. -/
structure Settings.IsValid (c : Settings) : Prop where
  hasRoom : 1 ≤ c.sampleCapacity.toNat
  isFinite : c.refreshInterval.isFinite = true
  isPositive : 0 < c.refreshInterval

namespace Settings

variable {c : Settings}

lemma one_le_toNat_iff {n : UInt64} : 1 ≤ n.toNat ↔ n ≠ 0 := by
  rw [Nat.one_le_iff_ne_zero, ne_eq, ne_eq, ← UInt64.toNat_inj]
  rfl

/-- **Nothing is wrong with settings** that are valid, and with no others. -/
theorem complaint?_eq_none_iff : c.complaint? = none ↔ c.IsValid := by
  have hpositive : c.refreshInterval.isFinite = true →
      (¬c.refreshInterval ≤ 0 ↔ 0 < c.refreshInterval) := fun h =>
    not_le_iff_lt (Duration.isNaN_of_isFinite h) (Duration.isNaN_of_isFinite Duration.isFinite_zero)
  rw [complaint?]
  constructor
  · intro h
    split_ifs at h with hroom hinterval
    rw [Bool.or_eq_true, not_or, Bool.not_eq_true', Bool.not_eq_false, decide_eq_true_iff]
      at hinterval
    exact ⟨one_le_toNat_iff.mpr hroom, hinterval.1, (hpositive hinterval.1).mp hinterval.2⟩
  · intro h
    have hle := (hpositive h.isFinite).mpr h.isPositive
    rw [if_neg (one_le_toNat_iff.mp h.hasRoom), if_neg]
    simp [h.isFinite, hle]

lemma validate_of_isValid (h : c.IsValid) : c.validate = .ok c := by
  rw [validate, complaint?_eq_none_iff.mpr h]

end Settings

/-! ## A bench and its session -/

namespace Bench

/-- What an operation asks of the session, in order. -/
def asks (b : Bench) : Operation → List (Session.Operation Screen)
  | .update now => [.event (.frame now)]
  | .tick =>
    match b.page.readClock with
    | (.ok now, page) => [.adjust fun screen => { screen with page }, .event (.frame ⟨now⟩)]
    | (.error _, _) => []
  | .attach => [.adjust (·.attach), .event .refresh]
  | .detach => [.adjust (·.detach)]
  | .reset => [.event .reset]
  | .onPage change => [.adjust fun screen => { screen with page := change screen.page }]
  | .call c => [.call c]
  | .summary => []
  | .latest => []
  | .report => []

/-- All that a run asks of the session. -/
def asked (b : Bench) : List Operation → List (Session.Operation Screen)
  | [] => []
  | op :: ops => b.asks op ++ (b.perform op).value.2.asked ops

/-- An answer of the session as the bench passes it on. -/
def passedOn? : Session.Outcome → Option Outcome
  | .frame result => some (.frame (result.mapError .fault))
  | .refreshed result => some (.attached (result.map fun _ => ()))
  | .handed _ => none
  | .done => none

/-- Whether an answer is one of the session; that there is no clock to tick is not. -/
def Outcome.isPassedOn : Outcome → Bool
  | .frame (.error (.error _)) => false
  | .frame _ => true
  | .attached _ => true
  | _ => false

lemma isPassedOn_frame (result : Except Fault Bool) :
    (Outcome.frame (result.mapError .fault)).isPassedOn = true := by
  cases result <;> rfl

/-- What a bench leaves and answers is what its session leaves and answers. -/
structure Follows (x : Outcome × Bench) (y : List Session.Outcome × Session Screen) : Prop where
  session : x.2.session = y.2
  answers : [x.1].filter (·.isPassedOn) = y.1.filterMap passedOn?

lemma follows_update (b : Bench) (now : Timestamp) :
    Follows (b.perform (.update now)).value
      (b.session.performAll [.event (.frame now)]).value := by
  refine ⟨rfl, ?_⟩
  exact List.filter_cons_of_pos (isPassedOn_frame (b.session.onFrame now).value.1)

/-- **An operation of a bench** does what it asks of the session. -/
lemma follows_perform (b : Bench) (op : Operation) :
    Follows (b.perform op).value (b.session.performAll (b.asks op)).value := by
  cases op with
  | update now => exact follows_update b now
  | tick =>
    rw [asks]
    simp only [perform, tick]
    rcases b.page.readClock with ⟨missing | now, page⟩
    · exact ⟨rfl, rfl⟩
    · exact ⟨rfl, (follows_update (b.onPage page) ⟨now⟩).answers⟩
  | attach => exact ⟨rfl, rfl⟩
  | _ => exact ⟨rfl, rfl⟩

/-- **A run of a bench** does what it asks of the session, and passes the answers on. -/
theorem runs_asked (b : Bench) (ops : List Operation) :
    (b.performAll ops).value.2.session = (b.session.performAll (b.asked ops)).value.2
      ∧ (b.performAll ops).value.1.filter (·.isPassedOn)
        = (b.session.performAll (b.asked ops)).value.1.filterMap passedOn? := by
  induction ops generalizing b with
  | nil => exact ⟨rfl, rfl⟩
  | cons op ops ih =>
    obtain ⟨hsession, hanswers⟩ := follows_perform b op
    obtain ⟨hsession', hanswers'⟩ := ih (b.perform op).value.2
    have hrun : (b.performAll (op :: ops)).value
        = ([(b.perform op).value.1] ++ ((b.perform op).value.2.performAll ops).value.1,
          ((b.perform op).value.2.performAll ops).value.2) := rfl
    have hasked := value_inTurn_append Session.perform b.session (b.asks op)
      ((b.perform op).value.2.asked ops)
    rw [asked, Session.performAll, hasked, hrun]
    rw [hsession] at hsession' hanswers'
    refine ⟨hsession', ?_⟩
    rw [List.filter_append, List.filterMap_append, hanswers, hanswers']
    rfl

/-! ## Making benches and sessions -/

lemma ofSettings_of_isValid {c : Settings} (h : c.IsValid) {ρ : Type} (receiver : ρ) :
    Session.ofSettings c receiver
      = .ok (Session.start (.ofCapacity c.sampleCapacity.toNat) (.ofInterval c.refreshInterval)
          receiver) := by
  rw [Session.ofSettings, Profiler.ofSettings, Settings.validate_of_isValid h]
  rfl

lemma ofSettings_of_not {c : Settings} {e : SettingsError} (h : c.complaint? = some e) {ρ : Type}
    (receiver : ρ) : Session.ofSettings c receiver = .error e := by
  rw [Session.ofSettings, Profiler.ofSettings, Settings.validate, h]
  rfl

/-- **A session accepts valid settings** and no others. -/
theorem exists_session_iff {c : Settings} {ρ : Type} (receiver : ρ) :
    (∃ s, Session.ofSettings c receiver = .ok s) ↔ c.IsValid := by
  rw [← Settings.complaint?_eq_none_iff]
  cases hcomplaint : c.complaint? with
  | none =>
    exact iff_of_true
      ⟨_, ofSettings_of_isValid (Settings.complaint?_eq_none_iff.mp hcomplaint) receiver⟩ rfl
  | some e =>
    rw [ofSettings_of_not hcomplaint receiver]
    simp

/-- What can come of a text that is to make a bench. -/
inductive Made (page : Page) (text : String) : Except SettingsError (Logged Bench) → Prop where
  | unreadable {complaint : Json.Complaint} (hread : Settings.read text.toList = .error complaint) :
      Made page text (.error (.unreadable (complaint.locate text.toList)))
  | refused {c : Settings} {e : SettingsError} (hread : Settings.read text.toList = .ok c)
      (hcomplaint : c.complaint? = some e) : Made page text (.error e)
  | accepted {c : Settings} (hread : Settings.read text.toList = .ok c) (hvalid : c.IsValid) :
      Made page text (.ok (ofSettings page c))

lemma made_ofJson (page : Page) (text : String) : Made page text (ofJson page text) := by
  rw [ofJson, Settings.ofJson]
  cases hread : Settings.read text.toList with
  | error complaint => exact .unreadable hread
  | ok c =>
    dsimp only
    cases hcomplaint : c.complaint? with
    | some e =>
      rw [Settings.validate, hcomplaint]
      exact .refused hread hcomplaint
    | none =>
      have hvalid := Settings.complaint?_eq_none_iff.mp hcomplaint
      rw [Settings.validate_of_isValid hvalid]
      exact .accepted hread hvalid

/-- A text makes a bench if its settings make a session, whatever the receiver. -/
lemma exists_bench_iff (page : Page) (text : String) {ρ : Type} (receiver : ρ) :
    (∃ b, ofJson page text = .ok b)
      ↔ ∃ c, Settings.read text.toList = .ok c ∧ ∃ s, Session.ofSettings c receiver = .ok s := by
  have hmade := made_ofJson page text
  generalize ofJson page text = made at hmade
  cases hmade with
  | unreadable hread => simp [hread]
  | refused hread hcomplaint => simp [hread, ofSettings_of_not hcomplaint receiver]
  | accepted hread hvalid => simp [hread, ofSettings_of_isValid hvalid receiver]

/-- A bench that was made with valid settings keeps to them as they are: there is room for as many
frames as they say, and the interval is theirs. -/
lemma keeps_performAll {c : Settings} (h : c.IsValid) (page : Page) (ops : List Operation) :
    let b := ((ofSettings page c).value.performAll ops).value.2
    b.session.profiler.window.capacity = c.sampleCapacity.toNat
      ∧ b.session.cadence.rule = .elapsed c.refreshInterval
      ∧ b.settings = c := by
  intro b
  have hself := twins_performAll page c ops
  have hrule : (Cadence.ofInterval c.refreshInterval).rule = .elapsed c.refreshInterval := by
    rw [Cadence.ofInterval, if_pos h.isPositive]
    rfl
  refine ⟨?_, ?_, hself.left⟩
  · rw [hself.session.profiler.capacity_eq]
    exact max_eq_left h.hasRoom
  · rw [hself.session.rule_eq]
    exact hrule

/-- **The two ways to make a session agree.**  A text makes a bench if and only if it can be read as
settings that make a session, before any receiver; these are the valid settings.  Then the session
of the bench is the one that these settings make before a screen on the page, and a run of the bench
does to it, and answers, what that session does and answers when it is asked for the same.  The
window keeps the capacity and the cadence the interval of the settings.  A text that makes no bench
is refused with a validation error: it cannot be read, or its settings make no session. -/
theorem both_ways_agree (page : Page) (text : String) :
    (∀ (ρ : Type) (receiver : ρ), (∃ b, ofJson page text = .ok b)
        ↔ ∃ c, Settings.read text.toList = .ok c ∧ ∃ s, Session.ofSettings c receiver = .ok s)
    ∧ (∀ (c : Settings) (ρ : Type) (receiver : ρ),
        (∃ s, Session.ofSettings c receiver = .ok s) ↔ c.IsValid)
    ∧ (∀ b, ofJson page text = .ok b → ∃ c s,
        Settings.read text.toList = .ok c
        ∧ Session.ofSettings c { page, decimals := c.decimals.toNat : Screen } = .ok s
        ∧ b.value.session = s.value
        ∧ ∀ ops,
          let x := (b.value.performAll ops).value
          let y := (s.value.performAll (b.value.asked ops)).value
          x.2.session = y.2
          ∧ x.1.filter (·.isPassedOn) = y.1.filterMap passedOn?
          ∧ y.2.profiler.window.capacity = c.sampleCapacity.toNat
          ∧ y.2.cadence.rule = .elapsed c.refreshInterval
          ∧ x.2.settings = c)
    ∧ (∀ e, ofJson page text = .error e →
        e.toError.message = "Validation Error: " ++ e.text
        ∧ ((∃ complaint, Settings.read text.toList = .error complaint
            ∧ e = .unreadable (complaint.locate text.toList))
          ∨ ∃ c, Settings.read text.toList = .ok c
            ∧ ∀ (ρ : Type) (receiver : ρ), Session.ofSettings c receiver = .error e)) := by
  have hmade := made_ofJson page text
  refine ⟨fun ρ receiver => exists_bench_iff page text receiver,
    fun c ρ receiver => exists_session_iff receiver, fun b hb => ?_, fun e he => ⟨rfl, ?_⟩⟩
  · rw [hb] at hmade
    cases hmade with
    | @accepted c hread hvalid =>
      refine ⟨c, _, hread, ofSettings_of_isValid hvalid _, rfl, fun ops => ?_⟩
      obtain ⟨hsession, hanswers⟩ := runs_asked (ofSettings page c).value ops
      obtain ⟨hcapacity, hrule, hsettings⟩ := keeps_performAll hvalid page ops
      rw [hsession] at hcapacity hrule
      exact ⟨hsession, hanswers, hcapacity, hrule, hsettings⟩
  · rw [he] at hmade
    cases hmade with
    | unreadable hread => exact Or.inl ⟨_, hread, rfl⟩
    | refused hread hcomplaint =>
      exact Or.inr ⟨_, hread, fun ρ receiver => ofSettings_of_not hcomplaint receiver⟩

/-- The least settings that are valid are kept to as they are. -/
theorem both_ways_agree_on_the_least :
    ∃ b s, ofJson {} "[1,5e-324]" = .ok b
      ∧ Session.ofSettings { sampleCapacity := 1, refreshInterval := 5e-324 }
          ({ page := {}, decimals := 3 } : Screen) = .ok s
      ∧ b.value.session = s.value
      ∧ ∀ ops, (b.value.performAll ops).value.2.settings.refreshInterval = 5e-324 := by
  have hsettings : Settings.read "[1,5e-324]".toList
      = .ok { sampleCapacity := 1, refreshInterval := 5e-324 } := by decide +kernel
  obtain ⟨hexists, hvalid, hmade, -⟩ := both_ways_agree {} "[1,5e-324]"
  have hleast := (hvalid { sampleCapacity := 1, refreshInterval := 5e-324 } Unit ()).mpr
    ⟨by decide, by decide +kernel, by decide +kernel⟩
  obtain ⟨b, hb⟩ := (hexists Unit ()).mpr ⟨_, hsettings, hleast⟩
  obtain ⟨c, s, hread, hsession, hsame, hops⟩ := hmade b hb
  obtain rfl := Except.ok.inj (hsettings.symm.trans hread)
  refine ⟨b, s, hb, hsession, hsame, fun ops => ?_⟩
  rw [(hops ops).2.2.2.2]

end Bench

end FramePacing
