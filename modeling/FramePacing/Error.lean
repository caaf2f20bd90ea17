/-!
# What can go wrong

An `Error` is told to the caller and leaves everything in working order.  A `Fault` ends the
operation in the middle: the only one there is, is to ask for more decimal places than a formatted
number can have.
-/

namespace FramePacing

/-- The part of the library that refuses. -/
inductive ErrorKind where
  | validation
  | browser
  | display
deriving DecidableEq, Repr

/-- An error that is reported to the caller. -/
structure Error where
  kind : ErrorKind
  text : String
deriving DecidableEq, Repr

/-- The heading under which errors of a kind are reported. -/
def ErrorKind.heading : ErrorKind → String
  | .validation => "Validation Error"
  | .browser => "Browser API Error"
  | .display => "Display Error"

def Error.message (e : Error) : String := e.kind.heading ++ ": " ++ e.text

/-- The reasons for which an operation stops in the middle. -/
inductive Fault where
  /-- A number was to be formatted with more than `65535` decimal places. -/
  | precision
deriving DecidableEq, Repr

def Fault.message : Fault → String
  | .precision => "Formatting argument out of range"

/-- Either way of not answering. -/
inductive Failure where
  | error (e : Error)
  | fault (f : Fault)
deriving DecidableEq, Repr

end FramePacing
