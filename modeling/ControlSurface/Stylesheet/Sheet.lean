/-
  ControlSurface.Stylesheet.Sheet
  ───────────────────────────────
  The stylesheet of a window: its fonts, the reset, the page and the container of the controls, the
  shared rules of the families that are present, and one rule for every element in drawing order.
  Shared are the rules that every stylesheet has, those for captions and those of the families of
  elements.
-/
import ControlSurface.Element.Basic
import ControlSurface.Layout.Tree
import ControlSurface.Page.Setting
import ControlSurface.Stylesheet.Choices
import ControlSurface.Stylesheet.Displays
import ControlSurface.Stylesheet.Property
import ControlSurface.Stylesheet.Rule
import ControlSurface.Stylesheet.Sliders

namespace ControlSurface.Stylesheet

/-! ## §1. Shared rules. -/

/-- The reset of the boxes that browsers give to elements. -/
def resetSection : Section :=
  ⟨"Reset", [
    ⟨"*, *::before, *::after", [
      ("box-sizing", ["border-box"]), ("margin", ["0"]), ("padding", ["0"])]⟩]⟩

/-- Elements stand where their own rules put them. -/
def baseSection : Section :=
  ⟨"Base element", [
    ⟨".element", [
      ("position", ["absolute"])]⟩,
    ⟨".element[hidden]", [
      ("display", ["none !important"])]⟩,
    ⟨".container-content > .element", [
      ("position", ["absolute"])]⟩]⟩

/-- Labels and values beside dials and sliders. -/
def captionSection : Section :=
  ⟨"Labels and value readouts", [
    ⟨".knob-label, .knob-value, .slider-label, .slider-value", [
      ("position", ["absolute"]), ("white-space", ["nowrap"]), ("user-select", ["none"]),
      ("pointer-events", ["none"])]⟩,
    ⟨".knob-label, .slider-label", [
      ("color", ["var(--label-color)"]), ("font-size", ["var(--label-font-size)"])]⟩,
    ⟨".knob-value, .slider-value", [
      ("color", ["var(--value-color)"]), ("font-size", ["var(--value-font-size)"])]⟩,
    ⟨".knob-label-top, .slider-label-top, .knob-value-top, .slider-value-top", [
      ("bottom", ["100%"]), ("left", ["50%"]), ("transform", ["translateX(-50%)"]),
      ("margin-bottom", ["4px"])]⟩,
    ⟨".knob-label-bottom, .slider-label-bottom, .knob-value-bottom, .slider-value-bottom", [
      ("top", ["100%"]), ("left", ["50%"]), ("transform", ["translateX(-50%)"]),
      ("margin-top", ["4px"])]⟩,
    ⟨".knob-label-left, .slider-label-left, .knob-value-left, .slider-value-left", [
      ("right", ["100%"]), ("top", ["50%"]), ("transform", ["translateY(-50%)"]),
      ("margin-right", ["4px"])]⟩,
    ⟨".knob-label-right, .slider-label-right, .knob-value-right, .slider-value-right", [
      ("left", ["100%"]), ("top", ["50%"]), ("transform", ["translateY(-50%)"]),
      ("margin-left", ["4px"])]⟩]⟩

/-- The shared rules of a family. -/
def familySection : Family → Section
  | .rotary => rotarySection
  | .linear => linearSection
  | .range => rangeSection
  | .multiSlider => multiSliderSection
  | .ascii => asciiSection
  | .switch => switchSection
  | .choice => choiceSection
  | .multiChoice => multiChoiceSection
  | .menu => menuSection
  | .text => textSection
  | .stepper => stepperSection
  | .list => listSection
  | .meter => meterSection
  | .readout => readoutSection
  | .matrix => matrixSection
  | .canvas => canvasSection
  | .keyboard => keyboardSection
  | .pad => padSection
  | .grid => gridSection
  | .xyPad => xyPadSection
  | .loop => loopSection
  | .harmonic => harmonicSection
  | .container => containerSection
  | .decor => decorSection

/-- The families in the order of their sections. -/
def familyOrder : List Family :=
  [.rotary, .linear, .range, .multiSlider, .ascii, .switch, .choice, .multiChoice, .menu, .text,
   .stepper, .list, .meter, .readout, .matrix, .canvas, .keyboard, .pad, .grid, .xyPad, .loop,
   .harmonic, .container, .decor]

/-- The families whose rules an element needs: its own, and for a slider with two thumbs also that
of plain sliders. -/
def neededBy (e : Element) : List Family :=
  if e.kind.family = .range then [.range, .linear] else [e.kind.family]

/-- The families whose rules a list of elements needs, in order. -/
def families (elements : List Element) : List Family :=
  familyOrder.filter fun f => elements.any fun e => (neededBy e).contains f

/-! ## §2. The window. -/

/-- What is painted behind a window: its gradient, if it asks for one that has stops, or its
colour. -/
def background (w : Window) : Except Fault Value :=
  match w.gradient with
  | some g =>
    if w.backgroundType.same (.text "gradient") && !g.stops.isEmpty then do
      let texts ← stopTexts (g.stops.map fun s => (.float s.position, s.color))
      let stops := commaList texts
      if g.shape.same (.text "radial") then .ok (.text s!"radial-gradient(circle, {stops})")
      else .ok (.text s!"linear-gradient({← g.angle.plain}deg, {stops})")
    else .ok w.backgroundColor
  | none => .ok w.backgroundColor

/-- The declarations that fill the page. -/
def fillPage : List Declaration := [("width", ["100%"]), ("height", ["100%"])]

/-- The rule of the box around the container; a page that scales keeps the container in the
middle. -/
def wrapperRule (responsive : Bool) : Rule :=
  ⟨"#plugin-wrapper", ("position", ["relative"]) :: fillPage ++
    if responsive then
      [("display", ["flex"]), ("align-items", ["center"]), ("justify-content", ["center"]),
       ("overflow", ["hidden"])]
    else []⟩

/-- The rules of the page and of the container of the controls. -/
def rootSections (w : Window) (responsive : Bool) : Except Fault (List Section) := do
  let behind := (← background w).toText
  .ok
    [⟨"Page",
      [⟨"html, body", fillPage ++
         [("overflow", ["hidden"]), ("background", [w.backgroundColor.toText])]⟩,
       wrapperRule responsive]⟩,
     ⟨"Container",
      [⟨"#plugin-container",
        [("position", ["relative"]), ("width", [s!"{w.width}px"]), ("height", [s!"{w.height}px"]),
         ("background", [behind]), ("overflow", ["hidden"]), ("flex-shrink", ["0"]),
         ("transform-origin", ["center center"])]⟩]⟩]

/-- The rules of the page and of the container as text. -/
def rootRules (w : Window) (responsive : Bool) : Except Fault String := do
  .ok (printSections (← rootSections w responsive))

/-! ## §3. The sheet. -/

/-- The rules of the fonts that come with a page. -/
def fontSections (s : PageSetting) : List Section :=
  if s.fonts.isEmpty then []
  else [⟨"Embedded Fonts", s.fonts.map fun f => f.faceRule s.fontPlace⟩]

/-- The rules of elements, in drawing order. -/
def elementSections (s : PageSetting) (elements : List Element) : Except Fault (List Section) := do
  let ordered ← Layout.renderOrder s.layers elements
  if ordered.isEmpty then .ok []
  else do .ok [⟨"Element-specific styles", ← ordered.mapM elementRule⟩]

/-- The sections of the stylesheet of a window. -/
def sections (s : PageSetting) (elements : List Element) : Except Fault (List Section) := do
  let root ← rootSections s.window s.responsive
  let own ← elementSections s elements
  .ok (fontSections s ++ [resetSection] ++ root ++ [baseSection]
    ++ (families elements).map familySection
    ++ (if elements.any hasCaption then [captionSection] else [])
    ++ own)

/-- The stylesheet of a window. -/
def render (s : PageSetting) (elements : List Element) : Except Fault String := do
  .ok (printSections (← sections s elements) ++ "\n")

end ControlSurface.Stylesheet
