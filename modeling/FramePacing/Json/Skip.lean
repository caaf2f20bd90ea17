import FramePacing.Json.Number

/-!
# Passing over a value

`skipValue` passes over a JSON value of any kind and checks its syntax on the way.  It keeps the
brackets that are still to be closed on a list and not on the call stack, so that a value may be
nested to any depth.

* `length_skipValue_lt` — a value takes at least one character.
-/

namespace FramePacing.Json

/-- What a value that holds other values is enclosed in. -/
inductive Bracket where
  | list
  | object
deriving DecidableEq, Repr

namespace Bracket

def closing : Bracket → Char
  | .list => ']'
  | .object => '}'

def atEnd : Bracket → Cause
  | .list => .endInList
  | .object => .endInObject

def atSeparator : Bracket → Cause
  | .list => .expectedListEnd
  | .object => .expectedObjectEnd

end Bracket

/-- What is to be passed over next; `outer` are the enclosing brackets, the innermost first. -/
inductive Awaited where
  /-- A value. -/
  | value (outer : List Bracket)
  /-- The first item inside a bracket, or its end. -/
  | first (inner : Bracket) (outer : List Bracket)
  /-- What may follow a value. -/
  | next (outer : List Bracket)
deriving DecidableEq, Repr

/-- Passes over a value that holds no others; `s` starts with it. -/
def skipScalar (s : List Char) : Except Complaint (List Char) :=
  match s with
  | 'n' :: rest => readWord ['u', 'l', 'l'] rest
  | 't' :: rest => readWord ['r', 'u', 'e'] rest
  | 'f' :: rest => readWord ['a', 'l', 's', 'e'] rest
  | '-' :: rest => skipUnsigned rest
  | '"' :: rest => skipString rest
  | s => if startsWithDigit s then skipUnsigned s else including s .expectedValue

/-- Passes over a value, or over the bracket that it starts with. -/
def skipStart (outer : List Bracket) (s : List Char) : Except Complaint (Awaited × List Char) :=
  match dropBlanks s with
  | [] => before [] .endInValue
  | '[' :: rest => .ok (.first .list outer, rest)
  | '{' :: rest => .ok (.first .object outer, rest)
  | s => (skipScalar s).map (.next outer, ·)

/-- Passes over a key and its colon. -/
def skipKey (s : List Char) : Except Complaint (List Char) :=
  match dropBlanks s with
  | [] => before [] .endInObject
  | '"' :: rest =>
    match skipString rest with
    | .error e => .error e
    | .ok rest => readColon rest
  | s => including s .keyNotString

/-- Passes over the start of an item inside a bracket. -/
def skipItem (inner : Bracket) (outer : List Bracket) (s : List Char) :
    Except Complaint (Awaited × List Char) :=
  match inner with
  | .list => skipStart (.list :: outer) s
  | .object => (skipKey s).map (.value (.object :: outer), ·)

/-- Passes over the start of the first item inside a bracket, or over the end of the bracket. -/
def skipFirst (inner : Bracket) (outer : List Bracket) (s : List Char) :
    Except Complaint (Awaited × List Char) :=
  match dropBlanks s with
  | [] => before [] inner.atEnd
  | c :: rest => if c = inner.closing then .ok (.next outer, rest) else skipItem inner outer s

/-- Passes over the start of the next item inside a bracket, or over the end of the bracket. -/
def skipNext (inner : Bracket) (outer : List Bracket) (s : List Char) :
    Except Complaint (Awaited × List Char) :=
  match dropBlanks s with
  | [] => before [] inner.atEnd
  | c :: rest =>
    if c = ',' then skipItem inner outer rest
    else if c = inner.closing then .ok (.next outer, rest)
    else including (c :: rest) inner.atSeparator

/-! ## Lengths -/

variable {s rest : List Char} {outer : List Bracket} {inner : Bracket} {awaited : Awaited}

theorem length_skipScalar_lt (h : skipScalar s = .ok rest) : rest.length < s.length := by
  unfold skipScalar at h
  split at h
  · exact Nat.lt_succ_of_le (length_readWord_le h)
  · exact Nat.lt_succ_of_le (length_readWord_le h)
  · exact Nat.lt_succ_of_le (length_readWord_le h)
  · exact Nat.lt_succ_of_lt (length_skipUnsigned_lt h)
  · exact Nat.lt_succ_of_lt (length_skipString_lt h)
  · split at h
    · exact length_skipUnsigned_lt h
    · cases h

/-- What a mapped reader leaves is what the reader itself leaves. -/
theorem eq_ok_of_map_eq_ok {α β : Type} {x : Except Complaint α} {f : α → β} {b : β}
    (h : x.map f = .ok b) : ∃ a, x = .ok a ∧ f a = b := by
  cases x with
  | error e => cases h
  | ok a => cases h; exact ⟨a, rfl, rfl⟩

theorem length_skipStart_lt (h : skipStart outer s = .ok (awaited, rest)) :
    rest.length < s.length := by
  have hle := length_dropBlanks_le s
  unfold skipStart at h
  split at h
  · cases h
  next heq => cases h; rw [heq] at hle; exact hle
  next heq => cases h; rw [heq] at hle; exact hle
  · obtain ⟨_, hscalar, hpair⟩ := eq_ok_of_map_eq_ok h
    cases hpair
    exact Nat.lt_of_lt_of_le (length_skipScalar_lt hscalar) hle

theorem length_skipKey_lt (h : skipKey s = .ok rest) : rest.length < s.length := by
  have hle := length_dropBlanks_le s
  unfold skipKey at h
  split at h
  · cases h
  next heq =>
    rw [heq] at hle
    split at h
    · cases h
    next hstring =>
      have := length_skipString_lt hstring
      have := length_readColon_lt h
      simp only [List.length_cons] at hle
      omega
  · cases h

theorem length_skipItem_lt (h : skipItem inner outer s = .ok (awaited, rest)) :
    rest.length < s.length := by
  unfold skipItem at h
  split at h
  · exact length_skipStart_lt h
  · obtain ⟨_, hkey, hpair⟩ := eq_ok_of_map_eq_ok h
    cases hpair
    exact length_skipKey_lt hkey

theorem length_skipFirst_lt (h : skipFirst inner outer s = .ok (awaited, rest)) :
    rest.length < s.length := by
  have hle := length_dropBlanks_le s
  unfold skipFirst at h
  split at h
  · cases h
  next heq =>
    split at h
    · cases h; rw [heq] at hle; exact hle
    · exact length_skipItem_lt h

theorem length_skipNext_lt (h : skipNext inner outer s = .ok (awaited, rest)) :
    rest.length < s.length := by
  have hle := length_dropBlanks_le s
  unfold skipNext at h
  split at h
  · cases h
  next heq =>
    rw [heq] at hle
    split at h
    · exact Nat.lt_trans (length_skipItem_lt h) hle
    · split at h
      · cases h; exact hle
      · cases h

/-! ## The loop -/

/-- Passes over all that is awaited. -/
def skipFrom (awaited : Awaited) (s : List Char) : Except Complaint (List Char) :=
  match awaited with
  | .value outer =>
    match _h : skipStart outer s with
    | .error e => .error e
    | .ok (awaited, rest) => skipFrom awaited rest
  | .first inner outer =>
    match _h : skipFirst inner outer s with
    | .error e => .error e
    | .ok (awaited, rest) => skipFrom awaited rest
  | .next [] => .ok s
  | .next (inner :: outer) =>
    match _h : skipNext inner outer s with
    | .error e => .error e
    | .ok (awaited, rest) => skipFrom awaited rest
termination_by s.length
decreasing_by
  · exact length_skipStart_lt _h
  · exact length_skipFirst_lt _h
  · exact length_skipNext_lt _h

def skipValue (s : List Char) : Except Complaint (List Char) := skipFrom (.value []) s

theorem length_skipFrom_le (h : skipFrom awaited s = .ok rest) : rest.length ≤ s.length := by
  fun_induction skipFrom awaited s with
  | case1 => cases h
  | case2 _ _ _ _ hstep ih =>
    exact Nat.le_of_lt (Nat.lt_of_le_of_lt (ih h) (length_skipStart_lt hstep))
  | case3 => cases h
  | case4 _ _ _ _ _ hstep ih =>
    exact Nat.le_of_lt (Nat.lt_of_le_of_lt (ih h) (length_skipFirst_lt hstep))
  | case5 => cases h; exact Nat.le_refl _
  | case6 => cases h
  | case7 _ _ _ _ _ hstep ih =>
    exact Nat.le_of_lt (Nat.lt_of_le_of_lt (ih h) (length_skipNext_lt hstep))

theorem length_skipValue_lt (h : skipValue s = .ok rest) : rest.length < s.length := by
  unfold skipValue at h
  rw [skipFrom] at h
  split at h
  · cases h
  next hstart => exact Nat.lt_of_le_of_lt (length_skipFrom_le h) (length_skipStart_lt hstart)

end FramePacing.Json
