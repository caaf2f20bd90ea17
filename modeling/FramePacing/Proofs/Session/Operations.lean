import FramePacing.Proofs.Profiler.Twins
import FramePacing.Proofs.Session.Events

/-!
# All that can be done with a session

Besides what happens to a session there is what is done around it: the profiler is shared and may be
called past the session, summaries may be handed over without being kept, and the receiver may be
changed.  `Operation` has all of it, and `performAll` is a run with its answers.

A `Listener` is a receiver of any behaviour.  Once it is handed a summary it goes through a
`Reaction`: it may log, it may call the shared profiler and look at what comes of that, and at last
it answers in any way.  Of a profiler it sees the view, as everyone does.
-/

namespace FramePacing

open Log (Logged Message)

/-! ## Listeners -/

/-- What a listener does with a summary, step by step. -/
inductive Reaction (σ : Type) where
  | answer (verdict : Except Failure Unit) (state : σ)
  | log (m : Message) (next : Reaction σ)
  /-- A call of the shared profiler; what is done next may depend on what it leaves. -/
  | call (c : Profiler.Call) (next : Profiler.View → Reaction σ)

namespace Reaction

variable {σ : Type}

/-- A reaction before a profiler; its reply has the state that the listener is left in. -/
def play : Reaction σ → Profiler → Logged (Reply σ)
  | answer verdict state, p => return ⟨verdict, p, state⟩
  | log m next, p => do
    .say m.level m.component m.text
    next.play p
  | call c next, p => do
    let p ← p.call c
    (next p.view).play p

/-- The calls that a reaction makes of a profiler. -/
def calls : Reaction σ → Profiler → List Profiler.Call
  | answer _ _, _ => []
  | log _ next, p => next.calls p
  | call c next, p => c :: (next (p.call c).value.view).calls (p.call c).value

lemma profiler_play (r : Reaction σ) (p : Profiler) :
    (r.play p).value.profiler = (p.run (r.calls p)).value := by
  induction r generalizing p with
  | answer verdict state => rfl
  | log m next ih => exact ih p
  | call c next ih => exact ih _ _

end Reaction

/-- A receiver that reacts in any way to a summary, to what it sees of the profiler, and to the
state that it is in. -/
structure Listener (σ : Type) where
  react : Summary → Profiler.View → σ → Reaction σ
  state : σ

instance {σ : Type} : Receiver (Listener σ) where
  receive summary profiler l := do
    let reply ← (l.react summary profiler.view l.state).play profiler
    return ⟨reply.verdict, reply.profiler, { l with state := reply.receiver }⟩

namespace Session

/-! ## Operations -/

/-- What can be done with a session and around it. -/
inductive Operation (ρ : Type) where
  | event (e : Event)
  /-- A call of the shared profiler past the session. -/
  | call (c : Profiler.Call)
  /-- Handing a summary over past the cadence, without keeping it. -/
  | handOver
  /-- A change of the receiver. -/
  | adjust (f : ρ → ρ)

/-- How an operation is answered. -/
inductive Outcome where
  | frame (result : Except Fault Bool)
  | refreshed (result : Except Fault Summary)
  | handed (result : Except Failure Summary)
  | done

variable {ρ : Type} [Receiver ρ]

def perform (s : Session ρ) : Operation ρ → Logged (Outcome × Session ρ)
  | .event (.frame now) => do
    let (result, s) ← s.onFrame now
    return (.frame result, s)
  | .event .refresh => do
    let (result, s) ← s.refresh
    return (.refreshed result, s)
  | .event .reset => return (.done, ← s.reset)
  | .call c => return (.done, { s with profiler := ← s.profiler.call c })
  | .handOver => do
    let (result, s) ← s.handOver
    return (.handed result, s)
  | .adjust f => return (.done, { s with receiver := f s.receiver })

/-- Operations one after the other, with their answers. -/
def performAll (s : Session ρ) (ops : List (Operation ρ)) : Logged (List Outcome × Session ρ) :=
  Logged.inTurn perform s ops

end Session

end FramePacing
