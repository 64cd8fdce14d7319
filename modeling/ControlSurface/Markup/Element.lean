/-
  ControlSurface.Markup.Element
  ─────────────────────────────
  Containers and decoration, the markup of an element of any kind, and of a forest of elements.
  Every element is one node whose identifier is its normalized name; the elements inside a container
  are printed inside its node, one a line.
-/
import ControlSurface.Json.Printer
import ControlSurface.Layout.Tree
import ControlSurface.Markup.Display

namespace ControlSurface.Markup

/-! ## §1. Containers. -/

/-- How data inside an attribute is written. -/
def attributeStyle : Json.Style := { indent := none, sorted := true, ascii := true }

/-- What the script for scrollbars needs to know of a container. -/
def scrollbarData (e : Element) : String :=
  Json.print attributeStyle (.object [("width", e.get "scrollbar_width"),
    ("thumbColor", e.get "scrollbar_thumb_color"), ("trackColor", e.get "scrollbar_track_color")])

/-- Whether a container can be scrolled. -/
def scrolls (e : Element) : Bool :=
  e.kind = .collapsible && !(e.get "scroll_behavior").same (.text "hidden")

/-- The header of a container that has one. -/
def header (e : Element) : List Node :=
  match e.kind with
  | .groupBox => [part "div" "container-header" [shown (e.get "header_text")]]
  | .collapsible =>
    [tag "button" [("type", .text "button"),
       ("class", .text "container-header collapsible-header"),
       ("aria-expanded", truthWord (!e.flag "collapsed"))]
      [tag "span" [("class", .text "collapsible-arrow"), ("aria-hidden", .text "true")]
         [.raw "&#9662;"],
       shown (e.get "header_text")]]
  | _ => []

/-- The attributes of the part of a container that holds its children. -/
def contentAttributes (s : PageSetting) (e : Element) : Attributes :=
  let hidden := if e.kind = .collapsible then [("hidden", e.get "collapsed")] else []
  let scrollbar := if s.customScrollbars && scrolls e then
      [("data-custom-scrollbar", Value.text (scrollbarData e))]
    else []
  ("class", .text "container-content") :: (hidden ++ scrollbar)

/-- A container around the markup of its children. -/
def container (s : PageSetting) (e : Element) (children : List Node) : Fragment :=
  box [] (header e ++ [tag "div" (contentAttributes s e) children])

/-! ## §2. Decoration. -/

/-- A picture, a graphic or a shape. -/
def decoration (s : PageSetting) (e : Element) : Except Fault Fragment := do
  match e.kind with
  | .image => .ok ⟨"img", [("src", e.get "src"), ("alt", (e.get "alt").orElse e.name)], []⟩
  | .svgGraphic =>
    .ok (box [("role", .text "img"), ("aria-label", e.name)] [← graphic s e])
  | .line => .ok (box [] [part "div" "line-stroke" []])
  | _ => .ok (box [] [])


/-! ## §3. One element. -/

/-- What an element of some kind holds. -/
def fragment (s : PageSetting) (e : Element) (children : List Node) : Except Fault Fragment :=
  match e.kind with
  | .knob | .steppedKnob | .centerDetentKnob | .dotIndicatorKnob | .arcSlider => dial e
  | .slider | .bipolarSlider | .notchedSlider | .crossfadeSlider => slider e
  | .rangeSlider => rangeSlider e
  | .multiSlider => multiSlider e
  | .asciiSlider | .asciiButton | .asciiArt => characters e
  | .button | .iconButton | .toggleSwitch | .powerButton | .rockerSwitch | .checkbox => switch s e
  | .rotarySwitch | .segmentButton | .dropdown | .comboBox | .radioGroup | .tabBar => choice s e
  | .menuButton => menu e
  | .multiSelectDropdown => multiChoice e
  | .textField | .label => .ok (textElement e)
  | .stepper => stepper e
  | .breadcrumb | .treeView | .presetBrowser => listing e
  | .meter | .gainReductionMeter => meter e
  | .dbDisplay | .frequencyDisplay => readout e
  | .modulationMatrix => matrix e
  | .waveform | .oscilloscope | .spectrumAnalyzer | .spectrogram | .goniometer | .vectorscope
  | .scrollingWaveform | .eqCurve | .compressorCurve | .envelopeDisplay | .lfoDisplay
  | .filterResponse => canvas e
  | .pianoKeyboard => keyboard e
  | .drumPad | .padGrid => pad e
  | .stepSequencer => stepGrid e
  | .xyPad => .ok (xyPad e)
  | .loopPoints => .ok loopPoints
  | .harmonicEditor => harmonics e
  | .panel | .frame | .groupBox | .collapsible => .ok (container s e children)
  | .image | .svgGraphic | .rectangle | .line => decoration s e

/-- The host parameter that an element is bound to: the one it names, or its identifier. -/
def parameterId (e : Element) : Except Fault String := do
  let named := Text.trimmed (← e.string "parameter_id")
  if named = "" then e.domId else .ok named

/-- The classes of an element, with one more that its fragment may give. -/
def classes (e : Element) (own : Option Value) : String :=
  let base := s!"element {e.kind.family.name}-element {e.kind.name}-element"
  match own with
  | some v => s!"{base} {v.toText}"
  | none => base

/-- The node of an element around the markup of its children. -/
def elementNode (s : PageSetting) (e : Element) (children : List Node) : Except Fault Node := do
  let f ← fragment s e children
  let domId ← e.domId
  let parameter ← if e.kind.bindable then do
      .ok [("data-parameter-id", Value.text (← parameterId e))]
    else .ok []
  let hidden := if e.flag "visible" then [] else [("hidden", Value.bool true)]
  let attributes : Attributes :=
    [("id", .text domId), ("class", .text (classes e (Value.find? f.attributes "class"))),
     ("data-type", .text e.kind.name)]
    ++ parameter ++ (f.attributes.filter fun a => a.1 ≠ "class") ++ hidden
  .ok (tag f.tag attributes f.body)

/-- The markup of an element around the markup of its children. -/
def renderElement (s : PageSetting) (e : Element) (children : String) : Except Fault String := do
  .ok (print (← elementNode s e (if children = "" then [] else [.raw children])))

/-! ## §4. Forests. -/

/-- The white space at the start of a line. -/
def indent (depth : Nat) : String := String.ofList (List.replicate (2 * depth) ' ')

mutual
/-- A node of a forest at a depth, without the white space before it. -/
def treeNode (s : PageSetting) (depth : Nat) : Layout.Tree → Except Fault Node
  | .node e children => do
    let lines ← treeNodes s (depth + 1) children
    let inner := if lines.isEmpty then [] else
      .raw "\n" :: (lines.intersperse [.raw "\n"]).flatten ++ [.raw ("\n" ++ indent depth)]
    elementNode s e inner

/-- Nodes of a forest at a depth, each with the white space before it. -/
def treeNodes (s : PageSetting) (depth : Nat) : List Layout.Tree → Except Fault (List (List Node))
  | [] => .ok []
  | t :: ts => do
    let n ← treeNode s depth t
    let rest ← treeNodes s depth ts
    .ok ([.raw (indent depth), n] :: rest)
end

/-- The nodes of all elements, nested and in drawing order, one a line. -/
def elementNodes (s : PageSetting) (elements : List Element) (depth : Nat) :
    Except Fault (List Node) := do
  let lines ← treeNodes s depth (← Layout.renderTree s.layers elements)
  .ok (lines.intersperse [.raw "\n"]).flatten

/-- How deep the elements lie in a page. -/
def pageDepth : Nat := 3

/-- The markup of all elements, nested and in drawing order. -/
def renderElements (s : PageSetting) (elements : List Element) (depth : Nat) :
    Except Fault String := do
  .ok (printAll (← elementNodes s elements depth))

end ControlSurface.Markup
