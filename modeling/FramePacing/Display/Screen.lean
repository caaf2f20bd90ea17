import FramePacing.Display.Report
import FramePacing.Page
import FramePacing.Session

/-!
# Showing summaries on a page

A report goes into three elements of the page, each of which may be missing: that is worth a warning
and does not keep the others from being written.  All texts are made before the first is written.

A `Screen` is a receiver that writes to its page while it is attached, and accepts every summary
unseen while it is not.
-/

namespace FramePacing

open Log (Logged Component)

namespace Display

def component : Component := ⟨.presentation, "DomStatsDisplay"⟩

/-- The texts of a report with the ids of their elements, in the order in which they are written. -/
def fields (r : Report) : List (String × String) := [
  ("avg_frame_time", r.average),
  ("one_percent_frame_time", r.onePercentLow),
  ("tenth_percent_frame_time", r.tenthPercentLow)]

/-- Writes a text into the element with an id, or warns that there is none. -/
def writeText (p : Page) (id text : String) : Logged Page :=
  if (p.text? id).isSome then return p.setText id text
  else do
    .say .warn component ("Stats element '" ++ id ++ "' not found in DOM")
    return p

/-- Writes texts into elements, one after the other. -/
def writeTexts (p : Page) : List (String × String) → Logged Page
  | [] => return p
  | (id, text) :: rest => do writeTexts (← writeText p id text) rest

/-- Shows a summary on a page. -/
def present (s : Summary) (decimals : Nat) (p : Page) : Logged (Except Failure Unit × Page) :=
  if p.showsDocument then
    match Report.ofSummary s decimals with
    | .ok report => do return (.ok (), ← writeTexts p (fields report))
    | .error f => return (.error (.fault f), p)
  else return (.error (.error Page.Missing.document.toError), p)

end Display

/-- A page, and whether summaries are shown on it. -/
structure Screen where
  page : Page
  decimals : Nat
  attached : Bool := false
deriving DecidableEq

namespace Screen

def attach (s : Screen) : Screen := { s with attached := true }

def detach (s : Screen) : Screen := { s with attached := false }

/-- Shows a summary if the screen is attached. -/
def take (s : Screen) (summary : Summary) : Logged (Except Failure Unit × Screen) :=
  if s.attached then do
    let (result, page) ← Display.present summary s.decimals s.page
    return (result, { s with page })
  else return (.ok (), s)

instance : Receiver Screen where
  receive summary profiler s := do
    let (verdict, receiver) ← s.take summary
    return { verdict, profiler, receiver }

end Screen

end FramePacing
