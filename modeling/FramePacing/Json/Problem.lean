import FramePacing.Decimal.Layout
import FramePacing.Text.Quoted

/-!
# What is wrong with a JSON text

A reader that gives up makes a `Complaint`: a cause, the text that it had not read yet, and the
number of bytes beyond its start that belong to the offence.  Together with the whole text this
gives a `Problem`, which says the line and the column.  Lines and columns count bytes of UTF-8, and
a column is the number of bytes read so far on its line.
-/

namespace FramePacing.Json

/-! ## Causes -/

/-- A value that is not of the type asked for. -/
inductive Found where
  | integer (n : Int)
  | float (x : Float)
  | boolean (b : Bool)
  | string (s : String)
  | null
  | sequence
  | map
deriving DecidableEq

def Found.text : Found → String
  | .integer n => "integer `" ++ toString n ++ "`"
  | .float x => "floating point `" ++ Decimal.jsonText x ++ "`"
  | .boolean b => "boolean `" ++ (if b then "true" else "false") ++ "`"
  | .string s => "string " ++ Text.quoted s
  | .null => "null"
  | .sequence => "sequence"
  | .map => "map"

/-- Why a text cannot be read. -/
inductive Cause where
  | endInValue
  | endInList
  | endInObject
  | endInString
  | expectedValue
  | expectedWord
  | expectedColon
  | expectedListEnd
  | expectedObjectEnd
  | keyNotString
  | trailingComma
  | trailingCharacters
  | invalidNumber
  | numberOutOfRange
  | invalidEscape
  | unfinishedPair
  | loneSurrogate
  | controlCharacter
  | wrongType (found : Found) (expected : String)
  | wrongValue (found : Found) (expected : String)
  | repeatedField (name : String)
deriving DecidableEq

def Cause.text : Cause → String
  | .endInValue => "EOF while parsing a value"
  | .endInList => "EOF while parsing a list"
  | .endInObject => "EOF while parsing an object"
  | .endInString => "EOF while parsing a string"
  | .expectedValue => "expected value"
  | .expectedWord => "expected ident"
  | .expectedColon => "expected `:`"
  | .expectedListEnd => "expected `,` or `]`"
  | .expectedObjectEnd => "expected `,` or `\x7d`"
  | .keyNotString => "key must be a string"
  | .trailingComma => "trailing comma"
  | .trailingCharacters => "trailing characters"
  | .invalidNumber => "invalid number"
  | .numberOutOfRange => "number out of range"
  | .invalidEscape => "invalid escape"
  | .unfinishedPair => "unexpected end of hex escape"
  | .loneSurrogate => "lone leading surrogate in hex escape"
  | .controlCharacter => "control character (\\u0000-\\u001F) found while parsing a string"
  | .wrongType found expected => "invalid type: " ++ found.text ++ ", expected " ++ expected
  | .wrongValue found expected => "invalid value: " ++ found.text ++ ", expected " ++ expected
  | .repeatedField name => "duplicate field `" ++ name ++ "`"

/-! ## Complaints -/

/-- A cause, the text not read yet, and how many bytes of that text belong to the offence. -/
structure Complaint where
  cause : Cause
  rest : List Char
  ahead : Nat
deriving DecidableEq

/-- A complaint about what was read before `rest`. -/
def before {α : Type} (rest : List Char) (cause : Cause) : Except Complaint α :=
  .error ⟨cause, rest, 0⟩

/-- A complaint about the first byte of `rest`, or about its end if there is none. -/
def including {α : Type} (rest : List Char) (cause : Cause) : Except Complaint α :=
  .error ⟨cause, rest, 1⟩

/-! ## Positions -/

def bytes (text : List Char) : List UInt8 := text.flatMap String.utf8EncodeChar

/-- A line, counted from one, and the number of bytes read on it. -/
structure Position where
  line : Nat
  column : Nat
deriving DecidableEq, Repr

/-- The position behind some bytes. -/
def Position.behind (read : List UInt8) : Position :=
  ⟨read.count 10 + 1, (read.reverse.takeWhile (· != 10)).length⟩

/-- A cause with the place where it was noticed. -/
structure Problem where
  cause : Cause
  position : Position
deriving DecidableEq

/-- The place of a complaint about a text. -/
def Complaint.locate (text : List Char) (c : Complaint) : Problem :=
  let all := bytes text
  ⟨c.cause, .behind (all.take (all.length - (bytes c.rest).length + c.ahead))⟩

def Problem.text (p : Problem) : String :=
  p.cause.text ++ " at line " ++ toString p.position.line
    ++ " column " ++ toString p.position.column

end FramePacing.Json
