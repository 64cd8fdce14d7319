/-
  ControlSurface.Bundle.Window
  ────────────────────────────
  How a project is exported, and the windows that take part in an export, from their selection to
  the text of their files.  `prepare` resolves and checks all of them before anything is made;
  `equip` adds the graphics and fonts that a window needs; `files` makes its four files.
-/
import ControlSurface.Check
import ControlSurface.Layout.Tree
import ControlSurface.Page.Document
import ControlSurface.Page.Setting
import ControlSurface.Script.Component
import ControlSurface.Stylesheet.Sheet
import ControlSurface.Svg.Optimize

namespace ControlSurface

/-- How a bundle is handed over. -/
inductive DeliveryForm where
  | archive
  | folder
  deriving Repr, DecidableEq, Inhabited

/-- What a bundle is made for. -/
inductive BundleTarget where
  /-- A host that installs the relay. -/
  | host
  /-- A browser on its own; the bundle brings a relay that only remembers values. -/
  | standalone
  deriving Repr, DecidableEq, Inhabited

namespace DeliveryForm

/-- The name of a form. -/
def name : DeliveryForm → String
  | archive => "archive"
  | folder => "folder"

/-- The form of a name. -/
def ofName? (s : String) : Option DeliveryForm := [archive, folder].find? fun f => f.name == s

end DeliveryForm

namespace BundleTarget

/-- The name of a target. -/
def name : BundleTarget → String
  | host => "host"
  | standalone => "standalone"

/-- The target of a name. -/
def ofName? (s : String) : Option BundleTarget := [host, standalone].find? fun t => t.name == s

end BundleTarget

/-- How a project is exported. -/
structure ExportOptions where
  optimizeAssets : Bool := true
  responsive : Bool := true
  developerWindows : Bool := false
  delivery : DeliveryForm := .archive
  target : BundleTarget := .host
  customScrollbars : Bool := true
  minScale : Value := PageSetting.defaultMinScale
  maxScale : Value := PageSetting.defaultMaxScale
  deriving Inhabited

/-- A window that takes part in an export. -/
structure ExportWindow where
  window : Window
  slug : String
  elements : List Element
  /-- Prepared graphics by the identity of their element. -/
  graphics : List (Value × String)
  fonts : List BundledFont
  deriving Inhabited

namespace Bundle

/-! ## §1. Selection. -/

/-- The window that is asked for, or all windows that take part. -/
def select (p : Project) (o : ExportOptions) (windowId : Option String) :
    Except Fault (List Window) :=
  match windowId with
  | some id =>
    match p.window? id with
    | some w => .ok [w]
    | none => .error (.noSuchWindow id)
  | none => .ok (p.windows.filter fun w => w.exportedByDefault || o.developerWindows)

/-! ## §2. Checking. -/

/-- The windows of an export with what was found in them. -/
structure Preparation where
  windows : List ExportWindow
  warnings : List String
  errors : List Check.Finding
  deriving Inhabited

/-- A warning as it is reported: after the name of its window if there are several. -/
def warningText (several : Bool) (w : Window) (f : Check.Finding) : String :=
  if several then s!"{w.name.toText}: {f.describe}" else f.describe

/-- Resolves and checks windows one after the other. -/
def inspect (p : Project) (known : List String) (several : Bool) :
    List (Window × String) → Except Fault Preparation
  | [] => .ok ⟨[], [], []⟩
  | (w, slug) :: rest => do
    let elements ← Layout.shownBy p.elements w
    let report ← Check.check (some known) elements
    -- errors do not end the inspection: those of all windows are reported together
    let others ← inspect p known several rest
    .ok { windows := ⟨w, slug, elements, [], []⟩ :: others.windows
          warnings := report.warnings.map (warningText several w) ++ others.warnings
          errors := report.errors ++ others.errors }

/-- Windows with the directories that they get. -/
def withSlugs (windows : List Window) : Except Fault (List (Window × String)) := do
  let names ← windows.mapM fun w => w.name.string
  .ok (windows.zip (Name.slugs names Name.defaultSlug))

/-- Resolves and checks all windows of an export; errors in any of them stop it. -/
def prepare (p : Project) (windows : List Window) :
    Except Fault (List ExportWindow × List String) := do
  let found ← inspect p (windows.map Window.id) (decide (1 < windows.length)) (← withSlugs windows)
  if found.errors.isEmpty then .ok (found.windows, found.warnings)
  else .error (.exportBlocked (Check.errorText found.errors))

/-! ## §3. Graphics. -/

/-- The graphics of a window, what optimizing them gave and what to report. -/
structure Graphics where
  results : List Svg.Optimized
  assets : List (Value × String)
  warnings : List String
  deriving Inhabited

/-- Optimizes a graphic; one that cannot be read stays as it is. -/
def optimizedOrSame (source : String) : Svg.Optimized :=
  match Svg.optimize source with
  | .ok r => r
  | .error _ => ⟨source, Svg.byteSize source, Svg.byteSize source, 0.0⟩

/-- Adds the graphic of an element: made smaller if that is asked for, and without active content.
One that cannot be read is left out. -/
def addGraphic (optimize : Bool) (g : Graphics) (e : Element) : Except Fault Graphics := do
  let source ← ((e.kind.svgField?.map e.get).getD .null).string
  if Text.isBlankString source then return g
  let smaller := optimizedOrSame source
  let results := if optimize then g.results ++ [smaller] else g.results
  if !e.id.isKey then throw .wrongType
  match Svg.sanitize (if optimize then smaller.svg else source) with
  | .ok markup => return ⟨results, Keyed.put e.id markup g.assets, g.warnings⟩
  | .error _ =>
    return ⟨results, Keyed.put e.id "" g.assets,
      g.warnings ++ [s!"SVG on \"{e.name.toText}\" could not be parsed and was left out"]⟩

/-- The graphics of all elements. -/
def graphics (optimize : Bool) (elements : List Element) : Except Fault Graphics :=
  elements.foldlM (addGraphic optimize) ⟨[], [], []⟩

/-! ## §4. Fonts. -/

/-- The families that some windows use, sorted. -/
def usedFamilies (windows : List ExportWindow) : List String :=
  Font.sortedOnce (windows.flatMap fun w => Font.used w.elements)

/-- The shipped fonts that a window uses. -/
def fontsOf (shipped : List BundledFont) (elements : List Element) : List BundledFont :=
  (Font.used elements).filterMap fun family => shipped.find? fun f => f.family == family

/-- Windows with their graphics and fonts, with what optimizing gave and what to report. -/
structure Equipment where
  windows : List ExportWindow
  shipped : List BundledFont
  results : List Svg.Optimized
  warnings : List String
  deriving Inhabited

/-- Gives a window its graphics and fonts. -/
def equipWindow (o : ExportOptions) (shipped : List BundledFont) (w : ExportWindow) :
    Except Fault (ExportWindow × Graphics) := do
  let g ← graphics o.optimizeAssets w.elements
  .ok ({ w with graphics := g.assets, fonts := fontsOf shipped w.elements }, g)

/-- Gives windows their graphics and the fonts of the project. -/
def equip (p : Project) (o : ExportOptions) (windows : List ExportWindow) :
    Except Fault Equipment := do
  let (shipped, fontWarnings) ← Font.resolve (usedFamilies windows) p.fonts
  let equipped ← windows.mapM (equipWindow o shipped)
  .ok { windows := equipped.map (·.1)
        shipped := shipped
        results := equipped.flatMap fun (_, g) => g.results
        warnings := fontWarnings ++ equipped.flatMap fun (_, g) => g.warnings }

/-! ## §5. Links. -/

/-- The page of a window, seen from the page of another one. -/
def linkTarget (several : Bool) (slug : String) : String :=
  if several then s!"../{slug}/index.html" else "index.html"

/-- Where the windows of an export are found, by identity. -/
def links (several : Bool) (windows : List ExportWindow) : List (String × WindowLink) :=
  Keyed.ofList (windows.map fun w =>
    (w.window.id, ⟨w.window.name, w.slug, linkTarget several w.slug⟩))

/-! ## §6. The files of a window. -/

/-- The text of the files of a window. -/
structure WindowFiles where
  page : String
  stylesheet : String
  components : String
  bindings : String
  deriving Inhabited

/-- The setting of the page of a window. -/
def setting (p : Project) (o : ExportOptions) (linked : List (String × WindowLink))
    (fontPlace : String) (w : ExportWindow) : PageSetting :=
  { PageSetting.ofWindow w.window with
    layers := p.orderedLayers
    graphics := w.graphics
    fonts := w.fonts
    fontPlace := fontPlace
    customScrollbars := o.customScrollbars
    responsive := o.responsive
    minScale := o.minScale
    maxScale := o.maxScale
    links := linked }

/-- The files of a window in a setting. -/
def windowFiles (s : PageSetting) (elements : List Element) : Except Fault WindowFiles := do
  let page ← Page.render s elements
  let stylesheet ← Stylesheet.render s elements
  let components ← Script.components s elements
  let bindings ← Script.bindingsScript s elements
  .ok ⟨page, stylesheet, components, bindings⟩

end Bundle

end ControlSurface
