import FramePacing.Display.Screen
import FramePacing.Settings.Reader

/-!
# The bench

A `Bench` is what a page uses: a session whose summaries go to a screen on that page.  The render
loop calls `update` with the time of each frame, or `tick`, which reads the performance clock
itself.

The page stays the page's own: `Bench.page` is its present state, and `Bench.onPage` puts the bench
on a page that was changed from outside.
-/

namespace FramePacing

open Log (Logged Component)

/-- A session on a page, with the settings that it was made with. -/
structure Bench where
  session : Session Screen
  settings : Settings

namespace Bench

def component : Component := ⟨.presentation, "Bencher"⟩

/-! ## Making one -/

/-- Makes a bench on a page.  The settings are not validated; a window has room for one frame at
least. -/
def ofSettings (page : Page) (settings : Settings) : Logged Bench := do
  .say .info component
    ("Bencher created: " ++ toString settings.sampleCapacity.toNat
      ++ " frame window, refresh every " ++ Decimal.plainText settings.refreshInterval
      ++ "ms of frame time")
  let session ← Session.start (.ofCapacity settings.sampleCapacity.toNat)
    (.ofInterval settings.refreshInterval) { page, decimals := settings.decimals.toNat : Screen }
  return { session, settings }

/-- Makes a bench with default settings, apart from the capacity of the window. -/
def ofCapacity (page : Page) (capacity : Option UInt64) : Logged Bench :=
  let settings : Settings := {}
  ofSettings page <|
    match capacity with
    | some n => { settings with sampleCapacity := if n = 0 then 1 else n }
    | none => settings

/-- Makes a bench with the settings that a JSON text holds. -/
def ofJson (page : Page) (text : String) : Except SettingsError (Logged Bench) :=
  (Settings.ofJson text).map (ofSettings page)

/-! ## The page -/

def page (b : Bench) : Page := b.session.receiver.page

/-- The same bench on a page in another state. -/
def onPage (b : Bench) (page : Page) : Bench :=
  { b with session := { b.session with receiver := { b.session.receiver with page } } }

/-- Whether summaries are shown on the page. -/
def isAttached (b : Bench) : Bool := b.session.receiver.attached

/-! ## Frames -/

/-- Takes note of a frame; tells whether a summary was published and accepted. -/
def update (b : Bench) (now : Timestamp) : Logged (Except Fault Bool × Bench) := do
  let (result, session) ← b.session.onFrame now
  return (result, { b with session })

/-- Takes note of a frame at the present time of the performance clock. -/
def tick (b : Bench) : Logged (Except Failure Bool × Bench) :=
  match b.page.readClock with
  | (.ok now, page) => do
    let (result, b) ← (b.onPage page).update ⟨now⟩
    return (result.mapError .fault, b)
  | (.error missing, _) => return (.error (.error missing.toError), b)

/-- Forgets all frames and the accepted summary. -/
def reset (b : Bench) : Logged Bench := do
  return { b with session := ← b.session.reset }

/-! ## Summaries -/

def summary (b : Bench) : Logged Summary := b.session.profiler.summary

/-- The rates of the frames in the window, as a JSON object. -/
def report (b : Bench) : Logged (Except Fault String) := do
  let summary ← b.summary
  return (Display.Report.ofSummary summary b.settings.decimals.toNat).map (·.json)

def latest (b : Bench) : Option Summary := b.session.latest

/-! ## The screen -/

/-- The same bench with its screen changed. -/
def mapScreen (b : Bench) (f : Screen → Screen) : Bench :=
  { b with session := { b.session with receiver := f b.session.receiver } }

/-- Shows the summary of the window, and all later ones when they are published. -/
def attach (b : Bench) : Logged (Except Fault Unit × Bench) := do
  let (result, session) ← (b.mapScreen (·.attach)).session.refresh
  return (result.map fun _ => (), { b with session })

/-- Leaves the page alone from now on. -/
def detach (b : Bench) : Bench := b.mapScreen (·.detach)

end Bench

end FramePacing
