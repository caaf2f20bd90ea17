import FramePacing.Json.Problem

/-!
# Blanks, words and strings

The smallest readers of JSON text.  Each takes the text from where it stands and returns what
follows.  `readString` decodes a string; `skipString` only passes over one and is content with less:
it does not ask that the two halves of a surrogate pair belong together.

* `length_dropBlanks_le`, `length_readWord_le`, `length_readString_lt`, `length_skipString_lt`,
  `length_readColon_lt` — how much shorter the rest is, which is what loops over these readers end
  by.
-/

namespace FramePacing.Json

/-! ## Blanks -/

/-- The four characters that may stand between tokens. -/
def isBlank (c : Char) : Bool := c == ' ' || c == '\n' || c == '\t' || c == '\r'

/-- The text behind leading blanks. -/
def dropBlanks (s : List Char) : List Char := s.dropWhile isBlank

theorem length_dropBlanks_le (s : List Char) : (dropBlanks s).length ≤ s.length :=
  (List.dropWhile_suffix isBlank).length_le

/-! ## Words -/

def readWord : (word s : List Char) → Except Complaint (List Char)
  | [], s => .ok s
  | _ :: _, [] => before [] .endInValue
  | w :: word, c :: s => if c = w then readWord word s else including (c :: s) .expectedWord

theorem length_readWord_le {word s rest : List Char} (h : readWord word s = .ok rest) :
    rest.length ≤ s.length := by
  fun_induction readWord word s with
  | case1 => cases h; exact Nat.le_refl _
  | case2 => cases h
  | case3 c word s ih => exact Nat.le_succ_of_le (ih h)
  | case4 => cases h

/-- Passes over the colon between a key and its value. -/
def readColon (s : List Char) : Except Complaint (List Char) :=
  match dropBlanks s with
  | [] => before [] .endInObject
  | ':' :: rest => .ok rest
  | rest => including rest .expectedColon

theorem length_readColon_lt {s rest : List Char} (h : readColon s = .ok rest) :
    rest.length < s.length := by
  have hle := length_dropBlanks_le s
  unfold readColon at h
  split at h
  · cases h
  next heq => cases h; rw [heq] at hle; exact hle
  · cases h

/-! ## Escapes -/

def hexValue? (c : Char) : Option Nat :=
  if '0' ≤ c ∧ c ≤ '9' then some (c.toNat - '0'.toNat)
  else if 'a' ≤ c ∧ c ≤ 'f' then some (c.toNat - 'a'.toNat + 10)
  else if 'A' ≤ c ∧ c ≤ 'F' then some (c.toNat - 'A'.toNat + 10)
  else none

/-- The number that four hexadecimal digits stand for. -/
def hexNumber? (a b c d : Char) : Option Nat := do
  return (((← hexValue? a) * 16 + (← hexValue? b)) * 16 + (← hexValue? c)) * 16 + (← hexValue? d)

/-- The complaint about a text that does not start with four hexadecimal digits: it may be too
short for them, or else its first four bytes are to blame. -/
def noHexNumber {α : Type} (s : List Char) : Except Complaint α :=
  if (bytes s).length < 4 then before [] .endInString else .error ⟨.invalidEscape, s, 4⟩

def readHexNumber (s : List Char) : Except Complaint (Nat × List Char) :=
  match s with
  | a :: b :: c :: d :: rest =>
    match hexNumber? a b c d with
    | some n => .ok (n, rest)
    | none => noHexNumber s
  | _ => noHexNumber s

theorem length_readHexNumber_lt {s rest : List Char} {n : Nat}
    (h : readHexNumber s = .ok (n, rest)) : rest.length < s.length := by
  have hno {t : List Char} : noHexNumber t ≠ .ok (n, rest) := by
    unfold noHexNumber before; split <;> simp
  unfold readHexNumber at h
  split at h
  · split at h
    · cases h; simp only [List.length_cons]; omega
    · exact absurd h hno
  · exact absurd h hno

/-- Whether a number is the first half of a surrogate pair. -/
def isHighSurrogate (n : Nat) : Bool := 0xd800 ≤ n && n ≤ 0xdbff

/-- Whether a number is the second half of a surrogate pair. -/
def isLowSurrogate (n : Nat) : Bool := 0xdc00 ≤ n && n ≤ 0xdfff

/-- Reads the second half of a surrogate pair, the first one being `high`. -/
def readPair (high : Nat) (s : List Char) : Except Complaint (Char × List Char) :=
  match s with
  | [] => before [] .endInString
  | '\\' :: [] => before [] .endInString
  | '\\' :: 'u' :: s =>
    match readHexNumber s with
    | .error e => .error e
    | .ok (low, rest) =>
      if isLowSurrogate low then
        .ok (Char.ofNat (0x10000 + (high - 0xd800) * 0x400 + (low - 0xdc00)), rest)
      else before rest .loneSurrogate
  | '\\' :: s => including s .unfinishedPair
  | s => including s .unfinishedPair

/-- Reads the hexadecimal escape of a character, from behind the letter `u`. -/
def readCodePoint (s : List Char) : Except Complaint (Char × List Char) :=
  match readHexNumber s with
  | .error e => .error e
  | .ok (n, rest) =>
    if isLowSurrogate n then before rest .loneSurrogate
    else if isHighSurrogate n then readPair n rest
    else .ok (Char.ofNat n, rest)

/-- The character that a one-letter escape stands for. -/
def simpleEscape? : Char → Option Char
  | '"' => some '"'
  | '\\' => some '\\'
  | '/' => some '/'
  | 'b' => some '\x08'
  | 'f' => some '\x0c'
  | 'n' => some '\n'
  | 'r' => some '\r'
  | 't' => some '\t'
  | _ => none

/-- Reads an escape, from behind its backslash. -/
def readEscape (s : List Char) : Except Complaint (Char × List Char) :=
  match s with
  | [] => before [] .endInString
  | 'u' :: rest => readCodePoint rest
  | c :: rest =>
    match simpleEscape? c with
    | some d => .ok (d, rest)
    | none => including s .invalidEscape

/-- Passes over an escape, from behind its backslash. -/
def skipEscape (s : List Char) : Except Complaint (List Char) :=
  match s with
  | [] => before [] .endInString
  | 'u' :: rest =>
    match readHexNumber rest with
    | .error e => .error e
    | .ok (_, rest) => .ok rest
  | c :: rest =>
    match simpleEscape? c with
    | some _ => .ok rest
    | none => including s .invalidEscape

theorem length_readPair_lt {high : Nat} {s rest : List Char} {c : Char}
    (h : readPair high s = .ok (c, rest)) : rest.length < s.length := by
  unfold readPair at h
  split at h
  · cases h
  · cases h
  · split at h
    · cases h
    next heq =>
      have hlt := length_readHexNumber_lt heq
      split at h
      · simp only [Except.ok.injEq, Prod.mk.injEq] at h
        simp only [List.length_cons, ← h.2]; omega
      · cases h
  · cases h
  · cases h

theorem length_readCodePoint_lt {s rest : List Char} {c : Char}
    (h : readCodePoint s = .ok (c, rest)) : rest.length < s.length := by
  unfold readCodePoint at h
  split at h
  · cases h
  next heq =>
    have hlt := length_readHexNumber_lt heq
    split at h
    · cases h
    · split at h
      · exact Nat.lt_trans (length_readPair_lt h) hlt
      · cases h; exact hlt

theorem length_readEscape_lt {s rest : List Char} {c : Char}
    (h : readEscape s = .ok (c, rest)) : rest.length < s.length := by
  unfold readEscape at h
  split at h
  · cases h
  · exact Nat.lt_succ_of_lt (length_readCodePoint_lt h)
  · split at h
    · cases h; exact Nat.lt_succ_self _
    · cases h

theorem length_skipEscape_lt {s rest : List Char} (h : skipEscape s = .ok rest) :
    rest.length < s.length := by
  unfold skipEscape at h
  split at h
  · cases h
  · split at h
    · cases h
    next heq => cases h; exact Nat.lt_succ_of_lt (length_readHexNumber_lt heq)
  · split at h
    · cases h; exact Nat.lt_succ_self _
    · cases h

/-! ## Strings -/

/-- Whether a character may not stand in a string as it is. -/
def isControl (c : Char) : Bool := c.toNat < 0x20

/-- Reads a string, from behind its opening quotation mark. -/
def readString (s : List Char) : Except Complaint (List Char × List Char) :=
  match s with
  | [] => before [] .endInString
  | '"' :: rest => .ok ([], rest)
  | '\\' :: rest =>
    match _h : readEscape rest with
    | .error e => .error e
    | .ok (c, rest) => (readString rest).map fun p => (c :: p.1, p.2)
  | c :: rest =>
    if isControl c then including s .controlCharacter
    else (readString rest).map fun p => (c :: p.1, p.2)
termination_by s.length
decreasing_by
  · have := length_readEscape_lt _h; simp only [List.length_cons]; omega
  · simp only [List.length_cons]; omega

/-- Passes over a string, from behind its opening quotation mark. -/
def skipString (s : List Char) : Except Complaint (List Char) :=
  match s with
  | [] => before [] .endInString
  | '"' :: rest => .ok rest
  | '\\' :: rest =>
    match _h : skipEscape rest with
    | .error e => .error e
    | .ok rest => skipString rest
  | c :: rest => if isControl c then before s .controlCharacter else skipString rest
termination_by s.length
decreasing_by
  · have := length_skipEscape_lt _h; simp only [List.length_cons]; omega
  · simp only [List.length_cons]; omega

theorem length_skipString_lt {s rest : List Char} (h : skipString s = .ok rest) :
    rest.length < s.length := by
  fun_induction skipString s with
  | case1 => cases h
  | case2 => cases h; exact Nat.lt_succ_self _
  | case3 => cases h
  | case4 s t ht ih =>
    have := length_skipEscape_lt ht
    have := ih h
    simp only [List.length_cons]; omega
  | case5 => cases h
  | case6 c s _ _ _ ih => exact Nat.lt_succ_of_lt (ih h)

theorem length_readString_lt {s rest value : List Char} (h : readString s = .ok (value, rest)) :
    rest.length < s.length := by
  fun_induction readString s generalizing value with
  | case1 => cases h
  | case2 => cases h; exact Nat.lt_succ_self _
  | case3 => cases h
  | case4 s c t ht ih =>
    have := length_readEscape_lt ht
    cases hr : readString t with
    | error e => rw [hr] at h; cases h
    | ok p =>
      rw [hr] at h ih
      cases h
      have := ih rfl
      simp only [List.length_cons]; omega
  | case5 => cases h
  | case6 c s _ _ _ ih =>
    cases hr : readString s with
    | error e => rw [hr] at h; cases h
    | ok p =>
      rw [hr] at h ih
      cases h
      exact Nat.lt_succ_of_lt (ih rfl)

end FramePacing.Json
