import FramePacing.Bench
import FramePacing.Proofs.Session.Twins

/-!
# All that can be done with a bench

`Operation` has what a page can ask of a bench, the changes of the page itself, and the calls of the
profiler that the bench shares.  `performAll` is a run with its answers.

* `kept_update`, `kept_tick` — frames change no more of a screen than receiving a summary does.
* `settings_perform`, `decimals_perform` — an operation leaves the settings as they are, and the
  number of decimals that the screen was made with.
-/

namespace FramePacing.Bench

open Log Logged

/-- What can be done with a bench and around it. -/
inductive Operation where
  | update (now : Timestamp)
  | tick
  | attach
  | detach
  | reset
  | summary
  | latest
  | report
  /-- A change of the page from outside. -/
  | onPage (change : Page → Page)
  /-- A call of the shared profiler past the bench. -/
  | call (c : Profiler.Call)

/-- How an operation is answered. -/
inductive Outcome where
  | frame (result : Except Failure Bool)
  | attached (result : Except Fault Unit)
  | summary (s : Summary)
  | latest (s : Option Summary)
  | report (result : Except Fault String)
  | done

def perform (b : Bench) : Operation → Logged (Outcome × Bench)
  | .update now => do
    let (result, b) ← b.update now
    return (.frame (result.mapError .fault), b)
  | .tick => do
    let (result, b) ← b.tick
    return (.frame result, b)
  | .attach => do
    let (result, b) ← b.attach
    return (.attached result, b)
  | .detach => return (.done, b.detach)
  | .reset => return (.done, ← b.reset)
  | .summary => return (.summary (← b.summary), b)
  | .latest => return (.latest b.latest, b)
  | .report => return (.report (← b.report), b)
  | .onPage change => return (.done, b.onPage (change b.page))
  | .call c => do
    let profiler ← b.session.profiler.call c
    return (.done, { b with session := { b.session with profiler } })

/-- Operations one after the other, with their answers. -/
def performAll (b : Bench) (ops : List Operation) : Logged (List Outcome × Bench) :=
  inTurn perform b ops

/-! ## What no operation changes -/

lemma settings_perform (b : Bench) (op : Operation) :
    (b.perform op).value.2.settings = b.settings := by
  cases op with
  | tick =>
    simp only [perform, tick]
    rcases b.page.readClock with ⟨missing | now, page⟩ <;> rfl
  | _ => rfl

lemma settings_performAll (b : Bench) (ops : List Operation) :
    (b.performAll ops).value.2.settings = b.settings :=
  kept_inTurn (fun b : Bench => b.settings) settings_perform b ops

section Kept

variable {α : Type} {kept : Screen → α}
  (h : ∀ summary p s, kept (Receiver.receive summary p s).value.receiver = kept s)
include h

/-- What a screen keeps while it receives, it keeps with every frame, … -/
lemma kept_update (b : Bench) (now : Timestamp) :
    kept (b.update now).value.2.session.receiver = kept b.session.receiver :=
  Session.kept_onFrame h b.session now

/-- … also when the clock of the page is read for it. -/
lemma kept_tick (hpage : ∀ (s : Screen) (page : Page), kept { s with page } = kept s) (b : Bench) :
    kept (b.perform .tick).value.2.session.receiver = kept b.session.receiver := by
  simp only [perform, tick]
  rcases b.page.readClock with ⟨missing | now, page⟩
  · rfl
  · exact (kept_update h (b.onPage page) ⟨now⟩).trans (hpage _ page)

end Kept

lemma decimals_receive (summary : Summary) (p : Profiler) (s : Screen) :
    (Receiver.receive summary p s).value.receiver.decimals = s.decimals := by
  simp only [Receiver.receive, Screen.take]
  split_ifs <;> rfl

lemma decimals_perform (b : Bench) (op : Operation) :
    (b.perform op).value.2.session.receiver.decimals = b.session.receiver.decimals := by
  cases op with
  | update now => exact kept_update decimals_receive b now
  | tick => exact kept_tick decimals_receive (fun _ _ => rfl) b
  | attach => exact Session.kept_refresh decimals_receive (b.mapScreen (·.attach)).session
  | _ => rfl

lemma decimals_performAll (b : Bench) (ops : List Operation) :
    (b.performAll ops).value.2.session.receiver.decimals = b.session.receiver.decimals :=
  kept_inTurn (fun b : Bench => b.session.receiver.decimals) decimals_perform b ops

/-! ## What is measured -/

/-- A screen leaves the profiler alone. -/
lemma profiler_update (b : Bench) (now : Timestamp) :
    (b.update now).value.2.session.profiler = (b.session.profiler.update now).value :=
  Session.profiler_onFrame_of_aloof (fun _ _ _ => rfl) b.session now

end FramePacing.Bench
