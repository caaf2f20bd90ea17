import FramePacing.Json.Found
import FramePacing.Settings.Basic

/-!
# Reading settings

Settings are read from JSON text, from an object with any of the three fields or from a list of up
to three values in the order of the fields.  What is left out takes its default.  Members of other
names are passed over; a field that comes twice is refused.

The text of a settings object is read in one pass: `Draft` holds the fields that have been seen, and
`readMembers` ends because each member takes at least one character.
-/

namespace FramePacing

open Json

/-! ## Fields -/

/-- The fields of settings, in the order of a list. -/
inductive Settings.Field where
  | sampleCapacity
  | refreshInterval
  | decimals
deriving DecidableEq, Repr

namespace Settings.Field

def name : Field → String
  | .sampleCapacity => "sample_capacity"
  | .refreshInterval => "refresh_interval_ms"
  | .decimals => "fps_decimals"

def all : List Field := [.sampleCapacity, .refreshInterval, .decimals]

/-- The field with a given key. -/
def ofName? (key : List Char) : Option Field := all.find? fun f => f.name.toList == key

end Settings.Field

/-- The fields that have been read so far. -/
structure Settings.Draft where
  sampleCapacity : Option UInt64 := none
  refreshInterval : Option Float := none
  decimals : Option UInt64 := none
deriving DecidableEq

namespace Settings

/-- Whether a field has been read. -/
def Draft.has (d : Draft) : Field → Bool
  | .sampleCapacity => d.sampleCapacity.isSome
  | .refreshInterval => d.refreshInterval.isSome
  | .decimals => d.decimals.isSome

/-- The settings of a draft, with the defaults for what has not been read. -/
def Draft.complete (d : Draft) : Settings :=
  let defaults : Settings := {}
  { sampleCapacity := d.sampleCapacity.getD defaults.sampleCapacity
    refreshInterval := d.refreshInterval.getD defaults.refreshInterval
    decimals := d.decimals.getD defaults.decimals }

/-! ## Values -/

/-- Reads a whole number from `0` up to below `2 ^ 64`. -/
def readCount (s : List Char) : Except Complaint (UInt64 × List Char) :=
  match readAmount "usize" s with
  | .error e => .error e
  | .ok (.integer n, rest) =>
    if n < 0 then before rest (.wrongValue (.integer n) "usize")
    else .ok (n.toNat.toUInt64, rest)
  | .ok (.float x, rest) => before rest (.wrongType (.float x) "usize")

/-- Reads a number of milliseconds. -/
def readMillis (s : List Char) : Except Complaint (Float × List Char) :=
  (readAmount "f64" s).map fun p => (p.1.toFloat, p.2)

/-- Reads the value of a field into a draft. -/
def readField (d : Draft) (f : Field) (s : List Char) : Except Complaint (Draft × List Char) :=
  match f with
  | .sampleCapacity => (readCount s).map fun p => ({ d with sampleCapacity := some p.1 }, p.2)
  | .refreshInterval => (readMillis s).map fun p => ({ d with refreshInterval := some p.1 }, p.2)
  | .decimals => (readCount s).map fun p => ({ d with decimals := some p.1 }, p.2)

/-! ## Lists -/

/-- Reads the end of a list that has a value for every field. -/
def readListEnd (d : Draft) (s : List Char) : Except Complaint (Draft × List Char) :=
  match dropBlanks s with
  | [] => before [] .endInList
  | ']' :: rest => .ok (d, rest)
  | ',' :: rest =>
    match dropBlanks rest with
    | ']' :: rest => including (']' :: rest) .trailingComma
    | rest => including rest .trailingCharacters
  | rest => including rest .trailingCharacters

/-- Reads values for `fields` up to the end of a list; `first` says that none has been read. -/
def readItems (first : Bool) (d : Draft) (fields : List Field) (s : List Char) :
    Except Complaint (Draft × List Char) :=
  match fields with
  | [] => readListEnd d s
  | f :: fields =>
    let continueWith (s : List Char) :=
      match readField d f s with
      | .error e => .error e
      | .ok (d, rest) => readItems false d fields rest
    match dropBlanks s with
    | [] => before [] .endInList
    | ']' :: rest => .ok (d, rest)
    | c :: rest =>
      if first then continueWith s
      else if c = ',' then
        match dropBlanks rest with
        | [] => before [] .endInValue
        | ']' :: rest => including (']' :: rest) .trailingComma
        | rest => continueWith rest
      else including (c :: rest) .expectedListEnd

/-! ## Objects -/

/-- Reads the next key of an object, or its end; `first` says that none has been read. -/
def readKey (first : Bool) (s : List Char) :
    Except Complaint (Option (List Char) × List Char) :=
  match dropBlanks s with
  | [] => before [] .endInObject
  | '}' :: rest => .ok (none, rest)
  | c :: rest =>
    if first then
      if c = '"' then (readString rest).map fun p => (some p.1, p.2)
      else including (c :: rest) .keyNotString
    else if c = ',' then
      match dropBlanks rest with
      | [] => before [] .endInValue
      | '"' :: rest => (readString rest).map fun p => (some p.1, p.2)
      | '}' :: rest => including ('}' :: rest) .trailingComma
      | rest => including rest .keyNotString
    else including (c :: rest) .expectedObjectEnd

/--
The complaint about a field that comes twice.  It is made where the object could have ended: behind
blanks, and behind the closing brace if that is what follows the key.
-/
def repeated {α : Type} (f : Field) (s : List Char) : Except Complaint α :=
  match dropBlanks s with
  | '}' :: rest => before rest (.repeatedField f.name)
  | rest => before rest (.repeatedField f.name)

/-- Reads what follows a key, into a draft if the key is that of a field. -/
def readMember (d : Draft) (key s : List Char) : Except Complaint (Draft × List Char) :=
  match Field.ofName? key with
  | some f =>
    if d.has f then repeated f s
    else
      match readColon s with
      | .error e => .error e
      | .ok rest => readField d f rest
  | none =>
    match readColon s with
    | .error e => .error e
    | .ok rest => (skipValue rest).map (d, ·)

/-! ### Lengths -/

variable {s rest : List Char}

theorem length_readCount_lt {n : UInt64} (h : readCount s = .ok (n, rest)) :
    rest.length < s.length := by
  rw [readCount] at h
  split at h
  · cases h
  next hamount =>
    split at h
    · cases h
    · simp only [Except.ok.injEq, Prod.mk.injEq] at h
      exact h.2 ▸ length_readAmount_lt hamount
  · cases h

theorem length_readMillis_lt {x : Float} (h : readMillis s = .ok (x, rest)) :
    rest.length < s.length := by
  obtain ⟨_, hamount, hpair⟩ := eq_ok_of_map_eq_ok h
  cases hpair
  exact length_readAmount_lt hamount

theorem length_readField_lt {d e : Draft} {f : Field} (h : readField d f s = .ok (e, rest)) :
    rest.length < s.length := by
  cases f with
  | sampleCapacity =>
    obtain ⟨_, hcount, hpair⟩ := eq_ok_of_map_eq_ok h
    cases hpair
    exact length_readCount_lt hcount
  | refreshInterval =>
    obtain ⟨_, hmillis, hpair⟩ := eq_ok_of_map_eq_ok h
    cases hpair
    exact length_readMillis_lt hmillis
  | decimals =>
    obtain ⟨_, hcount, hpair⟩ := eq_ok_of_map_eq_ok h
    cases hpair
    exact length_readCount_lt hcount

theorem length_readMember_lt {d e : Draft} {key : List Char}
    (h : readMember d key s = .ok (e, rest)) : rest.length < s.length := by
  rw [readMember] at h
  split at h
  · split at h
    · unfold repeated at h
      split at h <;> cases h
    · split at h
      · cases h
      next hcolon => exact Nat.lt_trans (length_readField_lt h) (length_readColon_lt hcolon)
  · split at h
    · cases h
    next hcolon =>
      obtain ⟨_, hskip, hpair⟩ := eq_ok_of_map_eq_ok h
      cases hpair
      exact Nat.lt_trans (length_skipValue_lt hskip) (length_readColon_lt hcolon)

theorem length_readKey_le {first : Bool} {key : Option (List Char)}
    (h : readKey first s = .ok (key, rest)) : rest.length ≤ s.length := by
  have hle := length_dropBlanks_le s
  rw [readKey] at h
  split at h
  · cases h
  next heq => cases h; rw [heq] at hle; exact Nat.le_of_lt hle
  next tail _ heq =>
    rw [heq] at hle
    simp only [List.length_cons] at hle
    split at h
    · split at h
      · obtain ⟨_, hstring, hpair⟩ := eq_ok_of_map_eq_ok h
        cases hpair
        have := length_readString_lt hstring
        omega
      · cases h
    · split at h
      · have hinner := length_dropBlanks_le tail
        split at h
        · cases h
        next hquote =>
          rw [hquote] at hinner
          simp only [List.length_cons] at hinner
          obtain ⟨_, hstring, hpair⟩ := eq_ok_of_map_eq_ok h
          cases hpair
          have := length_readString_lt hstring
          omega
        · cases h
        · cases h
      · cases h

/-! ### The loop -/

/-- Reads the members of an object up to its end; `first` says that none has been read. -/
def readMembers (first : Bool) (d : Draft) (s : List Char) :
    Except Complaint (Draft × List Char) :=
  match _hkey : readKey first s with
  | .error e => .error e
  | .ok (none, rest) => .ok (d, rest)
  | .ok (some key, rest) =>
    match _hmember : readMember d key rest with
    | .error e => .error e
    | .ok (d, rest) => readMembers false d rest
termination_by s.length
decreasing_by exact Nat.lt_of_lt_of_le (length_readMember_lt _hmember) (length_readKey_le _hkey)

/-! ## Texts -/

/-- Reads a list or an object. -/
def readDraft (s : List Char) : Except Complaint (Draft × List Char) :=
  match dropBlanks s with
  | [] => before [] .endInValue
  | '[' :: rest => readItems true {} Field.all rest
  | '{' :: rest => readMembers true {} rest
  | rest => .error (misfit "struct ProfilerConfig" rest)

/-- Reads a text that holds settings and nothing else. -/
def read (text : List Char) : Except Complaint Settings :=
  match readDraft text with
  | .error e => .error e
  | .ok (d, rest) =>
    match dropBlanks rest with
    | [] => .ok d.complete
    | rest => including rest .trailingCharacters

/-- The valid settings that a text holds. -/
def ofJson (text : String) : Except SettingsError Settings :=
  match read text.toList with
  | .error e => .error (.unreadable (e.locate text.toList))
  | .ok s => s.validate

end Settings

end FramePacing
