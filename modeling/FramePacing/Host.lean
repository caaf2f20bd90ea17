import FramePacing.Bench
import FramePacing.Log.Console

/-!
# The host

A `Host` is a process that has just been started in a page.  It has no logger until `openLog`
registers one, and takes the time of log entries from a counter until `start` registers the
performance clock.  What is registered stays: later registrations are ignored.

Messages are logged by delivering them to the host.  Each delivery takes one reading of the clock,
also when there is no logger yet or the logger leaves the entry out.
-/

namespace FramePacing

open Log (Clock Component Console ConsoleLine Entry Level Logged Message)

/-- A page, with the bench that runs on it if there is one. -/
inductive Place where
  | bare (page : Page)
  | occupied (bench : Bench)

namespace Place

def page : Place → Page
  | .bare page => page
  | .occupied bench => bench.page

def bench? : Place → Option Bench
  | .bare _ => none
  | .occupied bench => some bench

/-- The same place with its page changed. -/
def withPage (page : Page) : Place → Place
  | .bare _ => .bare page
  | .occupied bench => .occupied (bench.onPage page)

end Place

/-- A process in a page. -/
structure Host where
  place : Place := .bare {}
  /-- The logger, once one is registered. -/
  console : Option Console := none
  /-- The clock that log entries are stamped by. -/
  clock : Clock := .sequence
  /-- The next reading of the sequence counter. -/
  counter : Nat := 0

namespace Host

def page (h : Host) : Page := h.place.page

def bench? (h : Host) : Option Bench := h.place.bench?

/-- The same process with its page changed. -/
def withPage (h : Host) (page : Page) : Host := { h with place := h.place.withPage page }

/-- The same process with another bench. -/
def withBench (h : Host) (bench : Bench) : Host := { h with place := .occupied bench }

/-! ## Time -/

def readTime (h : Host) : Float × Host :=
  match h.clock with
  | .sequence => (Decimal.nearestFloat h.counter, { h with counter := h.counter + 1 })
  | .performance =>
    let (now, page) := h.page.readTime
    (now, h.withPage page)

/-! ## Logging -/

def deliver (h : Host) (m : Message) : List ConsoleLine × Host :=
  let (now, h) := h.readTime
  ((h.console.bind (·.write ⟨now, m⟩)).toList, h)

/-- Delivers messages to the logger, oldest first. -/
def deliverAll (h : Host) : List Message → List ConsoleLine × Host
  | [] => ([], h)
  | m :: rest =>
    let (lines, h) := h.deliver m
    let (later, h) := h.deliverAll rest
    (lines ++ later, h)

/-- Delivers what an operation logged, and returns its result with the lines on the console. -/
def settle {α : Type} (x : Logged (α × Host)) : α × List ConsoleLine × Host :=
  (x.value.1, x.value.2.deliverAll x.messages)

/-! ## Registration -/

/-- Registers the performance clock, unless that has been done. -/
def start (h : Host) : Host := { h with clock := .performance }

/-- The logger for a level given by name; the one for development if none is given. -/
def consoleFor? : (level : Option String) → Option Console
  | none => some .development
  | some name => (Level.ofName? name).map Console.mk

/-- The error about a level of an unknown name. -/
def unknownLevel (name : String) : String := "unknown log level '" ++ name ++ "'"

/-- Registers a logger, unless one is registered, and logs that. -/
def openLog (h : Host) (level : Option String) : Logged (Except String Unit × Host) :=
  match consoleFor? level with
  | none => return (.error (unknownLevel (level.getD "")), h)
  | some console => do
    .say .info ⟨.presentation, "Initialize"⟩ "Frame bench initialized"
    return (.ok (), { h with console := h.console.or (some console) })

end Host

end FramePacing
