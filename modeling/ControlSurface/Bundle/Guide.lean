/-
  ControlSurface.Bundle.Guide
  ───────────────────────────
  The guide that comes with a bundle: its files, what the host has to provide, the parameters of
  every window and what commonly goes wrong when a host embeds an exported interface.
  `Guide.lines` is the only place where it becomes text.
-/
import ControlSurface.Bundle.Window

namespace ControlSurface.Bundle

/-! ## §1. What commonly goes wrong. -/

/-- Something that goes wrong in a host, and what helps. -/
structure Trouble where
  title : String
  symptom : String
  cause : String
  solution : String
  /-- Lines of code for the host. -/
  code : List String
  deriving Repr, DecidableEq, Inhabited

namespace Trouble

/-- What commonly goes wrong. -/
def all : List Trouble :=
  [{ title := "White Flash on Load"
     symptom := "Brief white flash when the plugin window opens"
     cause := "The web view paints before the stylesheet has loaded"
     solution := "Set the web view's initial background colour to the window background"
     code :=
      ["// In your editor constructor:",
       "juce::WebBrowserComponent::Options options;",
       "options = options.withBackgroundColour(juce::Colour(0x1a, 0x1a, 0x1a));",
       "webView.reset(new juce::WebBrowserComponent(options));"] },
   { title := "Controls Not Responding"
     symptom := "Knobs and sliders ignore mouse input"
     cause := "window.__relay__ is not installed before bindings.js runs"
     solution := "Inject the relay object at document creation, before any page script executes"
     code :=
      ["// bindings.js looks the relay up once, on load:",
       "//   const relay = window.__relay__;",
       "// Expose it from the host before navigation completes."] },
   { title := "Slow Initial Load"
     symptom := "The plugin takes one or two seconds to show its UI the first time"
     cause := "The embedded web runtime initializes lazily"
     solution := "Pre-warm the web view in the background and paint a loading state natively"
     code :=
      ["void EditorComponent::paint(juce::Graphics& g) \x7b",
       "    if (!webViewReady) \x7b",
       "        g.fillAll(juce::Colour(0x1a, 0x1a, 0x1a));",
       "        g.setColour(juce::Colours::white);",
       "        g.drawText(\"Loading...\", getLocalBounds(), juce::Justification::centred);",
       "    \x7d",
       "\x7d"] },
   { title := "Parameter Values Not Syncing"
     symptom := "Moving a control in the UI does not change the DSP parameter"
     cause := "The parameter ID used by the UI does not exist on the host"
     solution := "Register every parameter listed in the table above under exactly the same ID"
     code :=
      ["// The host must answer setParameter('gain', value) for:",
       "// <div id=\"gain\" data-parameter-id=\"gain\">"] },
   { title := "UI Freezes During Automation"
     symptom := "The UI becomes unresponsive while the DAW sends automation"
     cause := "Too many parameter change notifications flood the web view"
     solution := "Throttle onParameterChange notifications to 30-60 per second"
     code :=
      ["void sendParameterUpdate(const juce::String& id, float value) \x7b",
       "    auto now = juce::Time::getMillisecondCounter();",
       "    if (now - lastUpdateTime[id] > 16) \x7b // ~60fps",
       "        notifyParameterChange(id, value);",
       "        lastUpdateTime[id] = now;",
       "    \x7d",
       "\x7d"] }]

/-- The lines about one trouble, under a numbered heading. -/
def lines (number : Nat) (t : Trouble) : List String :=
  [s!"### {number}. {t.title}", "",
   s!"**Symptom:** {t.symptom}", "",
   s!"**Cause:** {t.cause}", "",
   s!"**Solution:** {t.solution}", "",
   "```cpp"] ++ t.code ++ ["```", ""]

/-- The chapter about what commonly goes wrong. -/
def chapter : List String :=
  ["## Known Issues and Workarounds", ""]
    ++ (all.zipIdx 1).flatMap fun (t, number) => t.lines number

/-- The chapter as text. -/
def chapterText : String := "\n".intercalate chapter

end Trouble

/-! ## §2. What the guide tells. -/

/-- An element that is bound to a parameter of the host. -/
structure ParameterRow where
  domId : String
  kind : Kind
  parameterId : String
  deriving Repr, DecidableEq, Inhabited

/-- A button that opens a window. -/
structure OpeningRow where
  domId : String
  target : String
  deriving Repr, DecidableEq, Inhabited

/-- A window in the guide. -/
structure GuideWindow where
  name : String
  slug : String
  width : Int
  height : Int
  parameters : List ParameterRow
  openings : List OpeningRow
  deriving Repr, DecidableEq, Inhabited

/-- The guide of a bundle. -/
structure Guide where
  project : String
  files : List String
  target : BundleTarget
  windows : List GuideWindow
  deriving Repr, DecidableEq, Inhabited

/-! ## §3. Gathering. -/

/-- The parameter that an element is bound to, if its kind has one. -/
def parameterRow (e : Element) : Except Fault (List ParameterRow) := do
  if !e.kind.bindable then return []
  return [⟨← e.domId, e.kind, ← Markup.parameterId e⟩]

/-- The window that an element opens, if it is part of the export. -/
def openingRow (linked : List (String × WindowLink)) (e : Element) :
    Except Fault (List OpeningRow) := do
  if !Check.opensWindow e then return []
  match e.get "target_window_id" with
  | .text id =>
    match Keyed.find? id linked with
    | some link => return [⟨← e.domId, link.name.toText⟩]
    | none => return []
  | v => if v.isKey then return [] else throw .wrongType

/-- What the guide tells of a window. -/
def guideWindow (layers : List Layer) (linked : List (String × WindowLink)) (w : ExportWindow) :
    Except Fault GuideWindow := do
  let ordered ← Layout.renderOrder layers w.elements
  let parameters ← ordered.mapM parameterRow
  let openings ← ordered.mapM (openingRow linked)
  .ok { name := w.window.name.toText, slug := w.slug, width := w.window.width
        height := w.window.height, parameters := parameters.flatten, openings := openings.flatten }

/-- The guide of an export with some files. -/
def guide (p : Project) (o : ExportOptions) (linked : List (String × WindowLink))
    (files : List String) (windows : List ExportWindow) : Except Fault Guide := do
  let told ← windows.mapM (guideWindow p.orderedLayers linked)
  .ok ⟨p.name.toText, files, o.target, told⟩

/-! ## §4. Writing. -/

/-- The name of the guide among the files of its bundle. -/
def Guide.file : String := "INTEGRATION.md"

/-- What the host has to provide. -/
def contract : List String :=
  ["## Relay contract", "",
   "The bindings talk to one global object that the host installs before the page scripts run:",
   "",
   "```js",
   "window.__relay__ = \x7b",
   "  getParameter(id)            // -> Promise<number>, normalized 0..1",
   "  setParameter(id, value)     // value normalized 0..1",
   "  beginGesture(id)",
   "  endGesture(id)",
   "  onParameterChange(callback) // callback(id, value); returns an unsubscribe function",
   "\x7d;",
   "```", ""]

/-- Where the relay of a bundle comes from. -/
def relayLine : BundleTarget → String
  | .standalone =>
    "This bundle was exported for standalone use: `bindings.js` starts with a mock relay that "
      ++ "keeps values in memory, so the UI runs in any browser. Remove it before embedding in a "
      ++ "host."
  | .host => "This bundle expects the host to provide `window.__relay__`."

/-- The table of the parameters of a window. -/
def parameterLines (rows : List ParameterRow) : List String :=
  if rows.isEmpty then ["No bound parameters."]
  else
    ["| Element | Kind | Parameter ID |", "|---|---|---|"]
      ++ rows.map fun r => s!"| `#{r.domId}` | {r.kind.name} | `{r.parameterId}` |"

/-- The line about the windows that a window opens. -/
def openingLines (rows : List OpeningRow) : List String :=
  if rows.isEmpty then []
  else
    ["", "Navigation: " ++ ", ".intercalate (rows.map fun r => s!"`#{r.domId}` opens `{r.target}`")
      ++ "."]

/-- The section about a window. -/
def GuideWindow.lines (several : Bool) (w : GuideWindow) : List String :=
  let place := if several then s!" (`{w.slug}/`)" else ""
  ["", s!"## Window: {w.name}{place}", "", s!"Size: {w.width} x {w.height} px", ""]
    ++ parameterLines w.parameters ++ openingLines w.openings ++ [""]

/-- The lines of a guide. -/
def Guide.lines (g : Guide) : List String :=
  let several := decide (1 < g.windows.length)
  let place := if several then " from the folder of the window you want to show" else ""
  [s!"# {g.project} - Host Integration", "",
   s!"Generated by faceplate. Load `index.html`{place} in the plugin's embedded web view.", "",
   "## Files", ""]
    ++ g.files.map (fun path => s!"- `{path}`") ++ [""]
    ++ contract ++ [relayLine g.target, ""]
    ++ g.windows.flatMap (GuideWindow.lines several) ++ [""]
    ++ Trouble.chapter

/-- The text of a guide. -/
def Guide.text (g : Guide) : String := String.join (g.lines.map (· ++ "\n"))

end ControlSurface.Bundle
