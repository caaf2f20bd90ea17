import FramePacing.Error

/-!
# The page

A `Page` is what the browser offers: objects that may be missing, clocks, and elements whose text
can be set.  The document and the performance clock belong to the window and are out of reach
without it.

* `text?_setText_self`, `text?_setText_of_ne` — setting a text changes that one element.
-/

namespace FramePacing

/-- A web page. -/
structure Page where
  hasWindow : Bool := false
  hasDocument : Bool := false
  hasPerformance : Bool := false
  /-- The next reading of the performance clock, in milliseconds. -/
  now : Float := 0
  /-- What a reading of the performance clock adds to the next one. -/
  nowStep : Float := 0
  /-- The time of day, in milliseconds. -/
  date : Float := 0
  /-- The elements of the document, as ids and texts. -/
  elements : List (String × String) := []
deriving DecidableEq

/-- What an operation may find missing on a page. -/
inductive Page.Missing where
  | window
  | performance
  | document
deriving DecidableEq, Repr

/-- The error of an operation that finds something missing. -/
def Page.Missing.toError : Missing → Error
  | .window => ⟨.browser, "Window not available"⟩
  | .performance => ⟨.browser, "Performance API not available"⟩
  | .document => ⟨.browser, "Document not available"⟩

namespace Page

/-! ## Clocks -/

def readClock (p : Page) : Except Missing Float × Page :=
  if !p.hasWindow then (.error .window, p)
  else if !p.hasPerformance then (.error .performance, p)
  else (.ok p.now, { p with now := p.now + p.nowStep })

/-- Reads the performance clock, or the time of day if that is missing. -/
def readTime (p : Page) : Float × Page :=
  match p.readClock with
  | (.ok now, p) => (now, p)
  | (.error _, p) => (p.date, p)

/-! ## Elements -/

/-- Whether elements can be reached. -/
def showsDocument (p : Page) : Bool := p.hasWindow && p.hasDocument

def text? (p : Page) (id : String) : Option String := p.elements.lookup id

/-- The page with new elements that have no text yet. -/
def withElements (p : Page) (ids : List String) : Page :=
  { p with elements := ids.eraseDups.map (·, "") }

/-- Sets the text of the element with an id, if there is one. -/
def setText (p : Page) (id text : String) : Page :=
  { p with elements := p.elements.map fun e => if e.1 == id then (e.1, text) else e }

theorem text?_setText_self (p : Page) (id text : String) :
    (p.setText id text).text? id = (p.text? id).map fun _ => text := by
  unfold text? setText
  induction p.elements with
  | nil => rfl
  | cons e elements ih =>
    obtain ⟨key, old⟩ := e
    by_cases h : key = id
    · subst h; simp
    · have hne : (id == key) = false := by simpa using Ne.symm h
      simpa [List.lookup_cons, h, hne] using ih

theorem text?_setText_of_ne (p : Page) {id other : String} (text : String) (h : other ≠ id) :
    (p.setText id text).text? other = p.text? other := by
  unfold text? setText
  induction p.elements with
  | nil => rfl
  | cons e elements ih =>
    obtain ⟨key, old⟩ := e
    by_cases he : key = id
    · have hne : (other == key) = false := by simpa [he] using h
      rw [he] at hne
      simpa [List.lookup_cons, he, hne] using ih
    · cases hother : other == key
      · simpa [List.lookup_cons, he, hother] using ih
      · simp [List.lookup_cons, he, hother]

end Page

end FramePacing
