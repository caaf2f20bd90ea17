import FramePacing.Json.Skip

/-!
# Values in the wrong place

A reader that asks for a value of one type and meets another has to say what it met.  `readFound`
reads just enough for that: a scalar as a whole, of a list or an object nothing at all.
-/

namespace FramePacing.Json

def startsWithNumber (s : List Char) : Bool := s.head?.any fun c => c == '-' || c.isDigit

/-- What a text starts with, and the text behind it; of a list or an object, the text itself. -/
def readFound (s : List Char) : Except Complaint (Found × List Char) :=
  match s with
  | 'n' :: rest => (readWord ['u', 'l', 'l'] rest).map (.null, ·)
  | 't' :: rest => (readWord ['r', 'u', 'e'] rest).map (.boolean true, ·)
  | 'f' :: rest => (readWord ['a', 'l', 's', 'e'] rest).map (.boolean false, ·)
  | '"' :: rest => (readString rest).map fun p => (.string (String.ofList p.1), p.2)
  | '[' :: _ => .ok (.sequence, s)
  | '{' :: _ => .ok (.map, s)
  | s =>
    if startsWithNumber s then (readNumber s).map fun p => (p.1.found, p.2)
    else including s .expectedValue

/-- The complaint about what a text starts with, where a value of type `expected` should stand. -/
def misfit (expected : String) (s : List Char) : Complaint :=
  match readFound s with
  | .error e => e
  | .ok (found, rest) => ⟨.wrongType found expected, rest, 0⟩

/-- Reads a number; `expected` names the type that is asked for. -/
def readAmount (expected : String) (s : List Char) : Except Complaint (Number × List Char) :=
  match dropBlanks s with
  | [] => before [] .endInValue
  | s => if startsWithNumber s then readNumber s else .error (misfit expected s)

theorem length_readAmount_lt {expected : String} {s rest : List Char} {n : Number}
    (h : readAmount expected s = .ok (n, rest)) : rest.length < s.length := by
  rw [readAmount] at h
  split at h
  · cases h
  · split at h
    · exact Nat.lt_of_lt_of_le (length_readNumber_lt h) (length_dropBlanks_le s)
    · cases h

end FramePacing.Json
