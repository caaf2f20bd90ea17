/-!
# Writing JSON

`quote` writes a string and `object` an object without blanks, its members in the order given.
Inside a string the quotation mark, the backslash and the control characters below `0x20` are
escaped and nothing else is.
-/

namespace FramePacing.Json

def hexDigit (n : Nat) : Char := Nat.digitChar (n % 16)

/-- What stands for a character inside a string. -/
def escape (c : Char) : List Char :=
  match c with
  | '"' => ['\\', '"']
  | '\\' => ['\\', '\\']
  | '\x08' => ['\\', 'b']
  | '\x0c' => ['\\', 'f']
  | '\n' => ['\\', 'n']
  | '\r' => ['\\', 'r']
  | '\t' => ['\\', 't']
  | c =>
    if c.toNat < 0x20 then ['\\', 'u', '0', '0', hexDigit (c.toNat / 16), hexDigit c.toNat]
    else [c]

/-- A string as a JSON value. -/
def quote (s : String) : String :=
  String.ofList ('"' :: s.toList.flatMap escape ++ ['"'])

/-- An object of named values that are JSON texts already. -/
def object (members : List (String × String)) : String :=
  "\x7b" ++ ",".intercalate (members.map fun m => quote m.1 ++ ":" ++ m.2) ++ "\x7d"

end FramePacing.Json
