/-!
# Log messages

A `Message` has a level, the component that it comes from and a text.  It carries no time: when it
is delivered, the host takes one reading of its clock and makes an `Entry` of it.
-/

namespace FramePacing.Log

/-- How urgent a message is. -/
inductive Level where
  | debug
  | info
  | warn
  | error
deriving DecidableEq, Repr

namespace Level

/-- The rank of a level; a more urgent level has a higher one. -/
def rank : Level → Nat
  | .debug => 1
  | .info => 2
  | .warn => 3
  | .error => 4

instance : LE Level := ⟨fun a b => a.rank ≤ b.rank⟩

instance (a b : Level) : Decidable (a ≤ b) := inferInstanceAs (Decidable (a.rank ≤ b.rank))

/-- The label of a level in a log line, five characters wide. -/
def label : Level → String
  | .debug => "DEBUG"
  | .info => " INFO"
  | .warn => " WARN"
  | .error => "ERROR"

/-- The name by which a level is asked for. -/
def name : Level → String
  | .debug => "debug"
  | .info => "info"
  | .warn => "warn"
  | .error => "error"

def all : List Level := [.debug, .info, .warn, .error]

/-- The level with a given name; the case of ASCII letters does not matter. -/
def ofName? (text : String) : Option Level :=
  all.find? fun level => text.map Char.toLower == level.name

end Level

/-- The layer of the program that a message comes from. -/
inductive Layer where
  | domain
  | application
  | infrastructure
  | presentation
deriving DecidableEq, Repr

def Layer.label : Layer → String
  | .domain => "DOM"
  | .application => "APP"
  | .infrastructure => "INF"
  | .presentation => "PRE"

/-- A named part of a layer. -/
structure Component where
  layer : Layer
  name : String
deriving DecidableEq, Repr

def Component.label (c : Component) : String := c.layer.label ++ ":" ++ c.name

/-- What is logged. -/
structure Message where
  level : Level
  component : Component
  text : String
deriving DecidableEq, Repr

/-- A message with the time of its delivery, in milliseconds. -/
structure Entry where
  timestamp : Float
  message : Message
deriving DecidableEq

end FramePacing.Log
