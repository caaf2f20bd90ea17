import FramePacing.Cadence
import FramePacing.Profiler

/-!
# Sessions

A `Session` drives a profiler from the render loop and hands a summary to a `Receiver` whenever its
cadence is due.  A receiver may refuse a summary; then the session logs that and keeps the summary
that was accepted last.  A receiver shares the profiler with the session and may act on it.

If handing over ends in a fault, the session stays as it was when the summary was handed over.
-/

namespace FramePacing

open Log (Logged Component)

/-! ## Receivers -/

/-- What a receiver makes of a summary, and what it leaves behind. -/
structure Reply (ρ : Type) where
  verdict : Except Failure Unit
  profiler : Profiler
  receiver : ρ

/-- Something that summaries are handed to. -/
class Receiver (ρ : Type) where
  /-- Takes a summary of the shared profiler, or refuses it. -/
  receive : Summary → Profiler → ρ → Logged (Reply ρ)

/-- Hands the summary of a profiler to a receiver. -/
def Profiler.handOver {ρ : Type} [Receiver ρ] (p : Profiler) (r : ρ) :
    Logged (Except Failure Summary × Profiler × ρ) := do
  let summary ← p.summary
  let reply ← Receiver.receive summary p r
  return (reply.verdict.map fun _ => summary, reply.profiler, reply.receiver)

/-! ## Sessions -/

/-- A profiler with a cadence, a receiver, and the summary that was accepted last. -/
structure Session (ρ : Type) where
  profiler : Profiler
  cadence : Cadence
  receiver : ρ
  latest : Option Summary

namespace Session

variable {ρ : Type}

def component : Component := ⟨.application, "BenchSession"⟩

def start (profiler : Profiler) (cadence : Cadence) (receiver : ρ) : Logged (Session ρ) := do
  .say .info component
    ("Bench session started, window of " ++ toString profiler.window.capacity ++ " frames")
  return ⟨profiler, cadence, receiver, none⟩

/-- Starts a session with valid settings. -/
def ofSettings (s : Settings) (receiver : ρ) : Except SettingsError (Logged (Session ρ)) :=
  (Profiler.ofSettings s).map fun p => start p (.ofInterval s.refreshInterval) receiver

/-- Forgets all frames and the accepted summary. -/
def reset (s : Session ρ) : Logged (Session ρ) := do
  let profiler ← s.profiler.reset
  return { s with profiler, cadence := s.cadence.restart, latest := none }

variable [Receiver ρ]

/-- Hands the summary of the window over, without keeping it. -/
def handOver (s : Session ρ) : Logged (Except Failure Summary × Session ρ) := do
  let (result, profiler, receiver) ← s.profiler.handOver s.receiver
  return (result, { s with profiler, receiver })

/-- Hands the summary of the window over and keeps it if it is accepted, which it tells. -/
def publish (s : Session ρ) : Logged (Except Fault Bool × Session ρ) := do
  let (result, s) ← s.handOver
  match result with
  | .ok summary =>
    .say .debug component ("published " ++ summary.text)
    return (.ok true, { s with latest := some summary })
  | .error (.error e) =>
    .say .warn component ("Display refresh failed: " ++ e.message)
    return (.ok false, s)
  | .error (.fault f) => return (.error f, s)

/-- Counts the duration of a frame that was recorded, and publishes if that is due. -/
def countFrame (s : Session ρ) (d : Duration) : Logged (Except Fault Bool × Session ρ) :=
  let (due, cadence) := s.cadence.tick d
  let s := { s with cadence }
  if due then s.publish else return (.ok false, s)

/-- Takes note of a frame; tells whether a summary was published and accepted. -/
def onFrame (s : Session ρ) (now : Timestamp) : Logged (Except Fault Bool × Session ρ) := do
  let gap := s.profiler.gap? now
  let profiler ← s.profiler.update now
  let s := { s with profiler }
  match gap with
  | some d => if now.isValid then s.countFrame d else return (.ok false, s)
  | none => return (.ok false, s)

/-- Publishes now, whatever the cadence says; returns the summary that was accepted last. -/
def refresh (s : Session ρ) : Logged (Except Fault Summary × Session ρ) := do
  let (result, s) ← { s with cadence := s.cadence.restart }.publish
  return (result.map fun _ => s.latest.getD .zero, s)

end Session

end FramePacing
