/-
  ControlSurface.Script.Binding
  ─────────────────────────────
  Scripts as lines, places in them that are filled in, and values written as literals of a script.
  A place is a name of capitals between double underscores; `fill` replaces all known ones in one
  pass, so what is filled in is never searched again.  The bindings of a window: one entry for every
  element with behaviour, in drawing order, that names its node, its kind, the host parameter it
  talks to and its configuration; and the scripts of the window that hand them out.
-/
import ControlSurface.Json.Printer
import ControlSurface.Markup.Element
import ControlSurface.Script.Config

namespace ControlSurface.Script

open ControlSurface.Text

/-! ## §1. Places. -/

/-- Whether a character can begin the name of a place. -/
def isCapital (c : Char) : Bool := 'A' ≤ c && c ≤ 'Z'

/-- Whether a character can stand in the name of a place. -/
def isNameChar (c : Char) : Bool := isCapital c || c = '_'

/-- What stands on both sides of the name of a place. -/
def mark : List Char := ['_', '_']

/-- The longest name of a place that the text begins with, and what follows the place. -/
def place? : List Char → Option (List Char × List Char)
  | '_' :: '_' :: c :: cs =>
    if isCapital c then
      (cutAtLast? mark (cs.takeWhile isNameChar)).map fun (name, rest) =>
        (c :: name, rest ++ cs.dropWhile isNameChar)
    else none
  | _ => none

/-- The value of a name. -/
def valueOf? (values : List (String × String)) (name : List Char) : Option (List Char) :=
  (values.find? fun v => v.1.toList == name).map (·.2.toList)

/-- Fills in places; `skip` characters of a place are still to be passed over. -/
def fillFrom (values : List (String × String)) : Nat → List Char → List Char
  | _, [] => []
  | skip + 1, _ :: cs => fillFrom values skip cs
  | 0, c :: cs =>
    match place? (c :: cs) with
    | some (name, rest) =>
      (valueOf? values name).getD (mark ++ name ++ mark)
        ++ fillFrom values (cs.length - rest.length) cs
    | none => c :: fillFrom values 0 cs

/-- A template with the places of known names filled in. -/
def fill (template : String) (values : List (String × String)) : String :=
  String.ofList (fillFrom values 0 template.toList)

/-! ## §2. Text. -/

/-- Lines as text; each ends with a line break. -/
def ofLines (lines : List String) : String := String.join (lines.map (· ++ "\n"))

/-- How values are written in scripts: keys sorted, and no character escaped without need. -/
def literalStyle (indent : Option Nat) : Json.Style :=
  { indent := indent, sorted := true, ascii := false }

/-- The indentation of a literal that has several lines. -/
def defaultIndent : Option Nat := some 2

/-- A value as a literal.  The start of an end tag never stands in it. -/
def literal (indent : Option Nat) (v : Value) : String :=
  replace (Json.print (literalStyle indent) v) "</" "<\\/"

/-- A literal of several lines inside indented text. -/
def indented (v : Value) : String := replace (literal defaultIndent v) "\n" "\n  "

/-! ## §3. Texts of scripts. -/

/-- Gives the elements of a window their behaviour. -/
def bindingsTemplate : List String :=
  ["// Generated by faceplate. Parameter bindings for window \"__WINDOW_NAME__\".",
   "// Talks to the host exclusively through window.__relay__.",
   "(function () \x7b",
   "  'use strict';",
   "  var ROOT_SELECTOR = __ROOT_SELECTOR__;",
   "  var BINDINGS = __BINDINGS__;",
   "  var NAVIGATION = __NAVIGATION__;",
   "",
   "  function navigate(windowId) \x7b",
   "    var target = NAVIGATION[windowId];",
   "    if (!target) \x7b",
   "      console.warn('[Faceplate] No exported window with id', windowId);",
   "      return;",
   "    \x7d",
   "    window.location.href = target.href;",
   "  \x7d",
   "",
   "  function start() \x7b",
   "    var root = document.querySelector(ROOT_SELECTOR);",
   "    if (!root) \x7b",
   "      console.error('[Faceplate] Root element not found:', ROOT_SELECTOR);",
   "      return;",
   "    \x7d",
   "    var relay = window.__relay__ || null;",
   "    if (!relay) console.warn('[Faceplate] window.__relay__ is missing; controls run "
      ++ "locally');",
   "    BINDINGS.forEach(function (binding) \x7b",
   "      var el = root.querySelector('#' + binding.id);",
   "      if (el && window.Faceplate) window.Faceplate.bind(el, binding, relay);",
   "    \x7d);",
   "    root.querySelectorAll('[data-navigate-window]').forEach(function (el) \x7b",
   "      el.addEventListener('click', function (event) \x7b",
   "        event.preventDefault();",
   "        navigate(el.getAttribute('data-navigate-window'));",
   "      \x7d);",
   "    \x7d);",
   "  \x7d",
   "",
   "  if (document.readyState === 'loading') document.addEventListener('DOMContentLoaded', "
      ++ "start);",
   "  else start();",
   "\x7d)();"]

/-- Fits a window into the view of its host. -/
def scaleTemplate : List String :=
  ["// Responsive scaling: fit the authored canvas into the host view.",
   "(function () \x7b",
   "  'use strict';",
   "  var CANVAS_WIDTH = __WIDTH__;",
   "  var CANVAS_HEIGHT = __HEIGHT__;",
   "  var MIN_SCALE = __MIN_SCALE__;",
   "  var MAX_SCALE = __MAX_SCALE__;",
   "  var WRAPPER_SELECTOR = __WRAPPER_SELECTOR__;",
   "  var CONTAINER_SELECTOR = __CONTAINER_SELECTOR__;",
   "",
   "  function updateScale() \x7b",
   "    var wrapper = document.querySelector(WRAPPER_SELECTOR);",
   "    var container = document.querySelector(CONTAINER_SELECTOR);",
   "    if (!wrapper || !container || !wrapper.clientWidth || !wrapper.clientHeight) return;",
   "    var scale = Math.min(wrapper.clientWidth / CANVAS_WIDTH, wrapper.clientHeight / "
      ++ "CANVAS_HEIGHT);",
   "    scale = Math.max(MIN_SCALE, Math.min(MAX_SCALE, scale));",
   "    container.style.transform = 'scale(' + scale + ')';",
   "  \x7d",
   "",
   "  window.addEventListener('resize', updateScale);",
   "  window.addEventListener('load', updateScale);",
   "  updateScale();",
   "\x7d)();"]

/-! ## §4. Entries. -/

/-- What the component script is told about an element, or none if it has no behaviour. -/
def config (e : Element) : Except Fault (Option Fields) :=
  match e.kind with
  | .knob | .steppedKnob | .centerDetentKnob | .dotIndicatorKnob | .arcSlider => some <$> rotary e
  | .slider | .bipolarSlider | .notchedSlider | .crossfadeSlider => some <$> linear e
  | .rangeSlider => some <$> range e
  | .multiSlider => .ok (some [("orientation", e.get "orientation")])
  | .asciiSlider => some <$> asciiSlider e
  | .asciiButton =>
    .ok (some [("mode", e.get "mode"), ("pressed", e.get "pressed"), ("label", e.get "label"),
      ("pressedLabel", e.get "pressed_label")])
  | .asciiArt => asciiArt e
  | .button | .iconButton | .toggleSwitch | .powerButton | .rockerSwitch | .checkbox =>
    some <$> switch e
  | .rotarySwitch | .segmentButton | .dropdown | .comboBox | .radioGroup | .tabBar =>
    some <$> choice e
  | .multiSelectDropdown => do
    .ok (some [("options", ← listOf e "options"), ("maxSelections", e.get "max_selections")])
  | .stepper =>
    .ok (some [("value", e.get "value"), ("min", e.get "min"), ("max", e.get "max"),
      ("step", e.get "step"), ("decimalPlaces", e.get "decimal_places")])
  | .presetBrowser => do .ok (some [("presets", ← listOf e "presets")])
  | .meter => do
    .ok (some [("value", ← ownState e), ("peakHold", e.get "show_peak_hold")])
  | .gainReductionMeter => do
    .ok (some [("value", ← state (e.get "value") (.int 0) (e.get "max_reduction")),
      ("peakHold", .bool false), ("maxReduction", e.get "max_reduction")])
  | .frequencyDisplay => do
    .ok (some [("value", ← frequencyState e), ("autoKhz", e.get "auto_switch_khz"),
      ("decimalPlaces", e.get "decimal_places")])
  | .dbDisplay => do
    .ok (some [("value", ← state (e.get "value") (e.get "min_db") (e.get "max_db")),
      ("minDb", e.get "min_db"), ("maxDb", e.get "max_db"),
      ("decimalPlaces", e.get "decimal_places")])
  | .waveform | .oscilloscope | .spectrumAnalyzer | .spectrogram | .goniometer | .vectorscope
  | .scrollingWaveform | .eqCurve | .compressorCurve | .envelopeDisplay | .lfoDisplay
  | .filterResponse => .ok (some (canvas e))
  | .xyPad => do some <$> xyPad e (← Markup.parameterId e)
  | .loopPoints => do
    .ok (some [("start", ← state (e.get "loop_start") (.int 0) (.int 1)),
      ("end", ← state (e.get "loop_end") (.int 0) (.int 1))])
  | .menuButton | .breadcrumb | .treeView | .modulationMatrix | .pianoKeyboard | .drumPad
  | .padGrid | .stepSequencer | .harmonicEditor | .collapsible => .ok (some [])
  | .textField | .label | .panel | .frame | .groupBox | .image | .svgGraphic | .rectangle
  | .line => .ok none

/-- The host parameter of an element with behaviour: bindable kinds always have one, others only
if they name it. -/
def parameter? (e : Element) : Except Fault (Option String) := do
  if e.kind.bindable then .ok (some (← Markup.parameterId e))
  else
    let named := Text.trimmed (← e.string "parameter_id")
    .ok (if named = "" then none else some named)

/-- An entry of the bindings. -/
structure Binding where
  domId : String
  kind : Kind
  parameter : Option String
  config : Fields
  deriving Inhabited

/-- An entry as a value. -/
def Binding.value (b : Binding) : Value :=
  .object [("id", .text b.domId), ("kind", .text b.kind.name),
    ("family", .text b.kind.family.name),
    ("parameterId", match b.parameter with
      | some p => .text p
      | none => .null),
    ("config", .object b.config)]

/-- The entry of an element, if it has behaviour. -/
def binding? (e : Element) : Except Fault (Option Binding) := do
  match ← config e with
  | none => .ok none
  | some fields => do
    let parameter ← parameter? e
    .ok (some ⟨← e.domId, e.kind, parameter, fields⟩)

/-- The entries of all elements with behaviour, in drawing order. -/
def bindings (layers : List Layer) (elements : List Element) : Except Fault (List Binding) := do
  let ordered ← Layout.renderOrder layers elements
  .ok ((← ordered.mapM binding?).filterMap id)

/-- The entries as a value. -/
def bindingsValue (bs : List Binding) : Value := .list (bs.map Binding.value)

/-! ## §5. Scripts of a window. -/

/-- The selector of the box around the container that a selector names. -/
def wrapperSelector (rootSelector : String) : String :=
  let container := PageSetting.containerSelector.toList
  let root := rootSelector.toList
  let scope :=
    if Text.endsWith container root then root.take (root.length - container.length) else []
  String.ofList scope ++ "#plugin-wrapper"

/-- The script that fits a window into the view of its host. -/
def scale (width height minScale maxScale : Value) (rootSelector : String) :
    Except Fault String := do
  .ok (fill (ofLines scaleTemplate)
    [("WIDTH", ← width.plain), ("HEIGHT", ← height.plain), ("MIN_SCALE", ← minScale.plain),
     ("MAX_SCALE", ← maxScale.plain),
     ("WRAPPER_SELECTOR", literal defaultIndent (.text (wrapperSelector rootSelector))),
     ("CONTAINER_SELECTOR", literal defaultIndent (.text rootSelector))])

/-- Text with every run of white space made one space, and none at either end. -/
def singleSpaced (s : String) : String :=
  let words := s.toList.splitBy fun a b => Text.isBlank a == Text.isBlank b
  Text.join " " ((words.filter fun w => !Text.allBlank w).map String.ofList)

/-- The name of a window inside the quotes of a comment. -/
def commentName (name : Value) : Except Fault String :=
  match name with
  | .text s => .ok (Text.replace (singleSpaced s) "\"" "'")
  | _ => .error .noSuchPart

/-- Where the controls that open windows lead, as a value. -/
def navigation (links : List (String × WindowLink)) : Value :=
  .object (links.map fun (id, link) =>
    (id, .object [("name", link.name), ("slug", .text link.slug), ("href", .text link.target)]))

/-- The script that gives the elements of a window their behaviour. -/
def bindingsScript (s : PageSetting) (elements : List Element) : Except Fault String := do
  let name ← commentName s.window.name
  let entries ← bindings s.layers elements
  let text := fill (ofLines bindingsTemplate)
    [("WINDOW_NAME", name), ("ROOT_SELECTOR", literal defaultIndent (.text s.rootSelector)),
     ("BINDINGS", indented (bindingsValue entries)), ("NAVIGATION", indented (navigation s.links))]
  if s.responsive then do
    let scaling ← scale (.int s.window.width) (.int s.window.height) s.minScale s.maxScale
      s.rootSelector
    .ok (text ++ "\n" ++ scaling)
  else .ok text

end ControlSurface.Script
