import FramePacing.Log.Clock
import FramePacing.Log.Message

/-!
# The console logger

A `Console` writes the entries of its level and above to the browser's console, each with the
console method of the entry's own level.
-/

namespace FramePacing.Log

/-- A logger that leaves out what is below a level. -/
structure Console where
  minimum : Level
deriving DecidableEq, Repr

/-- A line on the browser's console. -/
structure ConsoleLine where
  method : Level
  text : String
deriving DecidableEq, Repr

/-- The text of an entry, stamped as `clock` writes it. -/
def Entry.line (clock : Clock) (e : Entry) : String :=
  "[" ++ clock.format e.timestamp ++ "] " ++ e.message.level.label ++ " "
    ++ e.message.component.label ++ " | " ++ e.message.text

namespace Console

/-- The logger for everyday use. -/
def production : Console := ⟨.info⟩

/-- The logger that leaves nothing out. -/
def development : Console := ⟨.debug⟩

/-- What an entry puts on the console.  Its stamp is written as a performance time, whatever the
clock was that it came from. -/
def write (c : Console) (e : Entry) : Option ConsoleLine :=
  if c.minimum ≤ e.message.level then some ⟨e.message.level, e.line .performance⟩ else none

end Console

end FramePacing.Log
