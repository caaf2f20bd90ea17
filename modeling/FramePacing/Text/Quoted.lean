import FramePacing.Text.Extending
import FramePacing.Text.Unprintable

/-!
# Quoted text

An error that names a text it did not expect shows it in quotation marks, so that a reader can see
every character of it: the usual control characters, the backslash and the quotation mark get a
backslash, and what would be invisible or would change the character before it is shown by its code
point.
-/

namespace FramePacing.Text

def codePoint (c : Char) : List Char :=
  ['\\', 'u', '{'] ++ Nat.toDigits 16 c.toNat ++ ['}']

/-- What stands for a character in a quoted text. -/
def shown (c : Char) : List Char :=
  match c with
  | '\x00' => ['\\', '0']
  | '\t' => ['\\', 't']
  | '\r' => ['\\', 'r']
  | '\n' => ['\\', 'n']
  | '\\' => ['\\', '\\']
  | '"' => ['\\', '"']
  | c => if isExtending c || isUnprintable c then codePoint c else [c]

def quoted (s : String) : String := String.ofList ('"' :: s.toList.flatMap shown ++ ['"'])

end FramePacing.Text
