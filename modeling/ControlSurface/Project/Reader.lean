/-
  ControlSurface.Project.Reader
  ─────────────────────────────
  A project: its elements, the windows that show them, the layers that order them and the fonts that
  come with it; and reading it from the object of a project file.  Keys may be in camel or in snake
  case; of two spellings the camel-case one counts.  A project without windows is an old one: all
  elements that lie in no other one move to a window of their own.
-/
import ControlSurface.Element.Basic
import ControlSurface.Json.Printer
import ControlSurface.Json.Reader

namespace ControlSurface

/-! ## §1. The parts of a project. -/

/-- A stop of a window's gradient. -/
structure GradientStop where
  color : Value
  position : Float
  deriving Inhabited

/-- The gradient behind a window. -/
structure Gradient where
  shape : Value
  angle : Value
  stops : List GradientStop
  deriving Inhabited

/-- A window of the plugin. -/
structure Window where
  id : String
  name : Value
  kind : Value
  width : Int
  height : Int
  backgroundColor : Value
  backgroundType : Value
  gradient : Option Gradient
  elementIds : List Value
  deriving Inhabited

/-- Whether a window is part of an export unless it is asked for by name. -/
def Window.exportedByDefault (w : Window) : Bool := w.kind.same (.text "release")

/-- A layer; elements on a later one are drawn over those on an earlier one. -/
structure Layer where
  id : String
  name : Value
  order : Int
  visible : Bool
  locked : Bool
  color : Value
  deriving Inhabited

/-- The layer of elements that name none. -/
def Layer.defaultId : String := "default"

/-- The layer that every project has. -/
def Layer.standard : Layer :=
  { id := Layer.defaultId, name := .text "Default", order := 0, visible := true, locked := false
    color := .text "#6b7280" }

/-- A font file that comes with a project, in base 64. -/
structure FontAsset where
  family : Value
  filename : Value
  encoded : Value
  deriving Inhabited

/-- A project as it is exported. -/
structure Project where
  name : Value
  elements : List Element
  windows : List Window
  layers : List Layer
  fonts : List FontAsset
  deriving Inhabited

/-! ## §2. Looking things up. -/

namespace Project

/-- The first window of an identity. -/
def window? (p : Project) (id : String) : Option Window := p.windows.find? fun w => w.id == id

/-- Layers from the bottom up: by their order number, equal ones as listed; the default layer is
always there, at the bottom if the project does not list it. -/
def orderedLayers (p : Project) : List Layer :=
  let sorted := p.layers.mergeSort fun a b => decide (a.order ≤ b.order)
  if sorted.any fun layer => layer.id == Layer.defaultId then sorted
  else Layer.standard :: sorted

end Project

/-! ## §3. Fields with two spellings. -/

namespace Value

/-- The value of the first of two keys that is there, or a fallback. -/
def either (fields : Fields) (first second : String) (fallback : Value) : Value :=
  match find? fields first with
  | some v => v
  | none => (find? fields second).getD fallback

/-- The value of a key, or a fallback. -/
def findOr (fields : Fields) (key : String) (fallback : Value) : Value :=
  (find? fields key).getD fallback

/-- The objects among the items of a field; nothing given is an empty list. -/
def objectsIn (fields : Fields) (key : String) : Except Fault (List Fields) := do
  let items ← (findOr fields key (.list [])).items
  .ok (items.filterMap Value.fields?)

end Value

open Value

/-! ## §4. The parts. -/

/-- Reads a gradient. -/
def Gradient.ofFields (fields : Fields) : Except Fault Gradient := do
  let items ← (either fields "colorStops" "stops" (.list [])).items
  let stops ← (items.filterMap Value.fields?).mapM fun stop => do
    let position ← (findOr stop "position" (.int 0)).toFloat
    .ok ⟨findOr stop "color" (.text "#000000"), position⟩
  .ok ⟨findOr fields "type" (.text "linear"), findOr fields "angle" (.int 180), stops⟩

/-- Reads a window. -/
def Window.ofFields (fields : Fields) : Except Fault Window := do
  let gradientData := (findOr fields "gradientConfig" .null).orElse (findOr fields "gradient" .null)
  let width ← (findOr fields "width" (.int 800)).toInt
  let height ← (findOr fields "height" (.int 600)).toInt
  let gradient ← match gradientData with
    | .object g => do .ok (some (← Gradient.ofFields g))
    | _ => .ok none
  let ids ← (either fields "elementIds" "element_ids" (.list [])).items
  .ok { id := (findOr fields "id" (.text "")).toText
        name := findOr fields "name" (.text "Window")
        kind := either fields "type" "kind" (.text "release")
        width := width
        height := height
        backgroundColor := either fields "backgroundColor" "background_color" (.text "#1a1a1a")
        backgroundType := either fields "backgroundType" "background_type" (.text "color")
        gradient := gradient
        elementIds := ids.map fun v => .text v.toText }

/-- Reads a layer. -/
def Layer.ofFields (fields : Fields) : Except Fault Layer := do
  let order ← (findOr fields "order" (.int 0)).toInt
  .ok { id := (findOr fields "id" (.text "")).toText
        name := findOr fields "name" (.text "Layer")
        order := order
        visible := (findOr fields "visible" (.bool true)).truthy
        locked := (findOr fields "locked" (.bool false)).truthy
        color := findOr fields "color" (.text "#6b7280") }

/-- Reads a font. -/
def FontAsset.ofFields (fields : Fields) : FontAsset :=
  { family := findOr fields "family" (.text "")
    filename := either fields "filename" "file" (.text "")
    encoded := either fields "data_base64" "dataBase64" (.text "") }

/-! ## §5. The project. -/

namespace Project

/-- The only window of an old project: the size and colour of its canvas, and every element that
lies in no other one. -/
def canvasWindow (fields : Fields) (elements : List Element) : Except Fault Window := do
  let canvas := match findOr fields "canvas" .null with
    | .object c => c
    | _ => []
  let width ← (findOr canvas "width" (findOr fields "canvasWidth" (.int 800))).toInt
  let height ← (findOr canvas "height" (findOr fields "canvasHeight" (.int 600))).toInt
  .ok { id := "window-1"
        name := .text "Main Window"
        kind := .text "release"
        width := width
        height := height
        backgroundColor := findOr canvas "backgroundColor"
          (findOr fields "backgroundColor" (.text "#1a1a1a"))
        backgroundType := .text "color"
        gradient := none
        elementIds := (elements.filter fun e => !e.hasParent).map Element.id }

/-- Reads a project from its fields. -/
def ofFields (fields : Fields) : Except Fault Project := do
  let elements ← (← objectsIn fields "elements").mapM Element.ofFields
  let windows ← (← objectsIn fields "windows").mapM Window.ofFields
  let layers ← (← objectsIn fields "layers").mapM Layer.ofFields
  let fonts := (← objectsIn fields "fonts").map FontAsset.ofFields
  let windows ← if windows.isEmpty then do .ok [← canvasWindow fields elements] else .ok windows
  .ok { name := either fields "name" "projectName" (.text "Untitled")
        elements := elements
        windows := windows
        layers := layers
        fonts := fonts }

/-- Reads a project from a value; only an object is one. -/
def ofValue (v : Value) : Except Fault Project := do
  ofFields (← v.fieldsOf)

/-! ## §6. Project files. -/

/-- How a project file is written. -/
def fileStyle : Json.Style := { indent := some 2, sorted := false, ascii := false }

/-- The text of the file that holds a project's object. -/
def save (data : Value) : String := Json.print fileStyle data

/-- Reads a project from the text of its file. -/
def load (text : String) : Except Fault Project := do
  ofValue (← Json.read text)

end Project

end ControlSurface
