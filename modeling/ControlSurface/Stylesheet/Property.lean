/-
  ControlSurface.Stylesheet.Property
  ──────────────────────────────────
  The rule of one element.  Its place and size are plain declarations; what else its shared rules
  ask for is handed to them in custom properties, one for each field they need, and properties for
  what is computed: where the value stands, an angle, a gradient.
-/
import ControlSurface.Font
import ControlSurface.Readout
import ControlSurface.Value.Number

namespace ControlSurface.Stylesheet

/-! ## §1. Values of declarations. -/

/-- The fields that are lengths in pixels. -/
def pixelFields : List String :=
  ["track_width", "thumb_width", "thumb_height", "border_radius", "border_width", "font_size",
   "label_font_size", "value_font_size", "padding", "band_gap", "gap", "spacing",
   "header_font_size", "header_height", "cell_size", "item_height", "row_height", "cursor_size",
   "max_content_height", "stroke_width", "scrollbar_width", "dot_radius", "thumb_radius"]

/-- The fields that are angles in degrees. -/
def angleFields : List String := ["start_angle", "end_angle"]

/-- The unit of the numbers in a field. -/
def unitOf (field : String) : String :=
  if pixelFields.contains field then "px"
  else if angleFields.contains field then "deg"
  else ""

/-- The value of a field in a declaration. -/
def fieldText (field : String) (v : Value) : Except Fault String :=
  match v with
  | .bool b => .ok (if b then "1" else "0")
  | .int _ | .float _ => do .ok ((← v.plain) ++ unitOf field)
  | _ => .ok v.toText

/-- The custom property of a field. -/
def customName (field : String) : String := "--" ++ Text.replace field "_" "-"

/-- A custom property with a given value. -/
def custom (name value : String) : Declaration := ("--" ++ name, [value])

/-- The custom properties of some fields. -/
def fieldsOf (e : Element) (names : List String) : Except Fault (List Declaration) :=
  names.mapM fun field => do .ok (customName field, [← fieldText field (e.get field)])

/-- A custom property for the place of a value between two bounds. -/
def placeOf (name : String) (value lo hi : Value) : Except Fault (List Declaration) := do
  .ok [custom name (← (← Readout.normalized value lo hi).plain)]

/-- The custom property for the font of an element. -/
def fontOf (e : Element) : Declaration :=
  custom "font-family" (Font.stack (e.get "font_family").toText)

/-! ## §2. Gradients. -/

/-- Texts with commas between them. -/
def commaList (texts : List String) : String := Text.join ", " texts

/-- The stops of a gradient by position, each a colour with its place in percent. -/
def stopTexts (stops : List (Value × Value)) : Except Fault (List String) := do
  let ordered ← Value.sortBy (·.1) stops
  ordered.mapM fun (position, color) => do
    let percent ← match position with
      | .text _ => .error .badValue
      | _ => (← position.num).mul (.int 100)
    .ok s!"{color.toText} {percent.plain Value.defaultPlaces}%"

/-- The colour of a meter without colour stops. -/
def plainMeterColor : String := "#22c55e"

/-- The gradient of a meter, from its low end to its high end. -/
def meterGradient (stops : List (Value × Value)) (orientation : Value) : Except Fault String := do
  let texts ← stopTexts stops
  if texts.isEmpty then .ok plainMeterColor
  else
    let direction := if orientation.same (.text "vertical") then "to top" else "to right"
    .ok s!"linear-gradient({direction}, {commaList texts})"

/-- The colour stops of a meter. -/
def colorStops (e : Element) : Except Fault (List (Value × Value)) := do
  .ok ((← (e.get "color_stops").items).map fun stop =>
    let fields := (stop.fields?).getD []
    ((Value.find? fields "position").getD .null, (Value.find? fields "color").getD .null))

/-! ## §3. Custom properties of each kind. -/

/-- Whether an element has a caption. -/
def hasCaption (e : Element) : Bool := e.flag "show_label" || e.flag "show_value"

/-- The properties of captions, where there are any. -/
def captionFields (e : Element) : List String :=
  if hasCaption e then
    ["label_color", "label_font_size", "value_color", "value_font_size"]
  else []

/-- The properties of a dial. -/
def rotary (e : Element) : Except Fault (List Declaration) := do
  let own ← fieldsOf e ["track_color", "fill_color", "indicator_color", "start_angle", "end_angle"]
  let place ← placeOf "value" (e.get "value") (e.get "min") (e.get "max")
  let thumb ← fieldsOf e (if e.kind = .arcSlider then ["thumb_color"] else [])
  .ok (own ++ place ++ thumb ++ (← fieldsOf e (captionFields e)))

/-- The fields that all sliders hand on. -/
def sliderFields : List String :=
  ["track_color", "fill_color", "thumb_color", "thumb_width", "thumb_height"]

/-- The properties of a slider with one thumb. -/
def linear (e : Element) : Except Fault (List Declaration) := do
  let own ← fieldsOf e sliderFields
  let place ← placeOf "value" (e.get "value") (e.get "min") (e.get "max")
  let center ←
    if e.kind = .bipolarSlider then do
      let middle ← placeOf "center" (e.get "center_value") (e.get "min") (e.get "max")
      .ok (middle ++ (← fieldsOf e ["center_color"]))
    else .ok []
  let notches ← fieldsOf e (if e.kind = .notchedSlider then ["notch_color"] else [])
  let labels := ["label_color", "label_font_size"]
  let captions ←
    if e.kind = .crossfadeSlider then
      fieldsOf e (labels ++ (captionFields e).filter fun f => !labels.contains f)
    else fieldsOf e (captionFields e)
  .ok (own ++ place ++ center ++ notches ++ captions)

/-- The properties of a slider with two thumbs. -/
def range (e : Element) : Except Fault (List Declaration) := do
  let own ← fieldsOf e sliderFields
  let low ← placeOf "min-value" (e.get "min_value") (e.get "min") (e.get "max")
  let high ← placeOf "max-value" (e.get "max_value") (e.get "min") (e.get "max")
  .ok (own ++ low ++ high ++ (← fieldsOf e (captionFields e)))

/-- The fields that a control drawn with characters hands on. -/
def asciiFields (k : Kind) : List String :=
  match k with
  | .asciiSlider => ["font_size", "text_color"]
  | .asciiArt => ["font_size", "text_color", "background_color", "line_height"]
  | _ => ["font_size", "text_color", "background_color"]

/-- The fields that a switch or button hands on. -/
def switchFields (k : Kind) : List String :=
  ["background_color", "text_color", "border_color", "border_radius"] ++
    match k with
    | .iconButton => ["icon_color"]
    | .toggleSwitch => ["on_color", "off_color", "thumb_color"]
    | .powerButton => ["led_color", "led_off_color"]
    | _ => []

/-- The fields that controls with options hand on. -/
def selectionFields : List String :=
  ["background_color", "text_color", "border_color", "accent_color", "border_radius", "font_size"]

/-- The angle of the pointer of a switch that turns between positions. -/
def pointerAngle (e : Element) : Except Fault Num := do
  let count : Int := (← (e.get "positions").items).length
  let start ← (e.get "start_angle").num
  let step ←
    if 1 < count then do
      (← (← (e.get "end_angle").num).sub start).div (.int (count - 1))
    else .ok (.int 0)
  let position := (← (e.get "position").num).max (.int 0)
  start.add (← step.mul (position.min (.int (max (count - 1) 0))))

/-- The properties of a switch that turns between positions. -/
def rotarySwitch (e : Element) : Except Fault (List Declaration) := do
  let angle ← pointerAngle e
  let own ← fieldsOf e ["background_color", "text_color", "border_color", "pointer_color"]
  .ok (own ++ [custom "pointer-angle" (angle.plain Value.defaultPlaces ++ "deg")])

/-- Where a text stands in its box. -/
def justify (align : Value) : Except Fault String :=
  if !align.isKey then .error .wrongType
  else .ok (if align.same (.text "left") then "flex-start"
    else if align.same (.text "right") then "flex-end"
    else "center")

/-- The properties of a label. -/
def label (e : Element) : Except Fault (List Declaration) := do
  let place ← justify (e.get "text_align")
  let own ← fieldsOf e ["font_size", "font_weight", "color", "text_align"]
  .ok (fontOf e :: own ++ [custom "justify" place])

/-- The properties of a text field. -/
def textField (e : Element) : Except Fault (List Declaration) := do
  let shared ← fieldsOf e selectionFields
  .ok (shared ++ fontOf e :: (← fieldsOf e ["text_align", "padding", "border_width"]))

/-- The properties of a level meter. -/
def meter (e : Element) : Except Fault (List Declaration) := do
  let gradient ← meterGradient (← colorStops e) (e.get "orientation")
  let place ← placeOf "value" (e.get "value") (e.get "min") (e.get "max")
  .ok (custom "meter-gradient" gradient :: place ++ (← fieldsOf e ["background_color"]))

/-- The properties of a meter for gain reduction. -/
def reductionMeter (e : Element) : Except Fault (List Declaration) := do
  let place ← placeOf "value" (e.get "value") (.int 0) (e.get "max_reduction")
  let own ← fieldsOf e ["background_color", "font_size", "text_color"]
  .ok (custom "meter-gradient" (e.get "meter_color").toText :: place ++ own)

/-- The properties of a pad with two axes. -/
def xyPad (e : Element) : Except Fault (List Declaration) := do
  let x ← placeOf "x" (e.get "x_value") (.int 0) (.int 1)
  let y ← placeOf "y" (e.get "y_value") (.int 0) (.int 1)
  .ok (x ++ y ++ (← fieldsOf e ["background_color", "cursor_color", "grid_color", "cursor_size"]))

/-- The fields that a container hands on. -/
def containerFields (k : Kind) : List String :=
  ["background_color", "border_color", "border_width", "border_radius", "padding"] ++
    match k with
    | .frame => ["border_style"]
    | .groupBox => ["header_font_size", "header_color", "header_background"]
    | .collapsible =>
      ["header_font_size", "header_color", "header_background", "header_height",
       "content_background", "max_content_height", "scroll_behavior"]
    | _ => []

/-- The custom properties of an element. -/
def properties (e : Element) : Except Fault (List Declaration) :=
  match e.kind with
  | .knob | .steppedKnob | .centerDetentKnob | .dotIndicatorKnob | .arcSlider => rotary e
  | .slider | .bipolarSlider | .notchedSlider | .crossfadeSlider => linear e
  | .rangeSlider => range e
  | .multiSlider => fieldsOf e ["track_color", "fill_color", "band_gap"]
  | .asciiSlider | .asciiButton | .asciiArt => do
    .ok (fontOf e :: (← fieldsOf e (asciiFields e.kind)))
  | .button | .iconButton | .toggleSwitch | .powerButton | .rockerSwitch | .menuButton =>
    fieldsOf e (switchFields e.kind)
  | .rotarySwitch => rotarySwitch e
  | .segmentButton =>
    fieldsOf e ["background_color", "text_color", "border_color", "border_radius",
      "selected_color"]
  | .dropdown | .comboBox | .tabBar | .multiSelectDropdown | .checkbox | .stepper | .breadcrumb =>
    fieldsOf e selectionFields
  | .radioGroup => fieldsOf e (selectionFields ++ ["spacing"])
  | .treeView => fieldsOf e (selectionFields ++ ["row_height"])
  | .presetBrowser =>
    fieldsOf e ["background_color", "item_color", "selected_color", "text_color",
      "selected_text_color", "font_size", "item_height", "border_color", "border_radius"]
  | .label => label e
  | .textField => textField e
  | .meter => meter e
  | .gainReductionMeter => reductionMeter e
  | .dbDisplay | .frequencyDisplay => do
    .ok (fontOf e :: (← fieldsOf e ["font_size", "text_color", "background_color", "padding"]))
  | .modulationMatrix =>
    fieldsOf e ["cell_size", "cell_color", "active_color", "border_color", "header_background",
      "header_color", "header_font_size"]
  | .waveform | .oscilloscope | .spectrumAnalyzer | .spectrogram | .goniometer | .vectorscope
  | .scrollingWaveform | .eqCurve | .compressorCurve | .envelopeDisplay | .lfoDisplay
  | .filterResponse => fieldsOf e ["background_color", "border_color", "border_width"]
  | .pianoKeyboard => fieldsOf e ["white_key_color", "black_key_color", "pressed_color"]
  | .drumPad => fieldsOf e ["pad_color", "active_color", "text_color", "border_radius"]
  | .padGrid =>
    fieldsOf e ["pad_color", "active_color", "text_color", "border_radius", "rows", "columns",
      "gap"]
  | .stepSequencer => fieldsOf e ["steps", "rows", "gap", "step_color", "active_color"]
  | .xyPad => xyPad e
  | .loopPoints =>
    fieldsOf e ["loop_start", "loop_end", "background_color", "region_color", "marker_color"]
  | .harmonicEditor => fieldsOf e ["bar_color", "background_color"]
  | .panel | .frame | .groupBox | .collapsible => fieldsOf e (containerFields e.kind)
  | .image => fieldsOf e ["fit"]
  | .svgGraphic => fieldsOf e ["opacity"]
  | .rectangle =>
    fieldsOf e ["fill_color", "fill_opacity", "border_color", "border_width", "border_radius"]
  | .line => fieldsOf e ["stroke_color", "stroke_width", "stroke_style"]

/-! ## §4. The rule of an element. -/

/-- A length in pixels. -/
def pixels (v : Value) : Except Fault String := do .ok ((← v.plain) ++ "px")

/-- The place and size of an element, its turn and its height if it has any. -/
def placement (e : Element) : Except Fault (List Declaration) := do
  let box ← ["x", "y", "width", "height"].mapM fun field => pixels (e.get field)
  let turn ←
    if e.flag "rotation" then do
      let angle ← (e.get "rotation").plain
      .ok [("transform", [s!"rotate({angle}deg)"])]
    else .ok []
  let height := if e.zIndex.truthy then [("z-index", [e.zIndex.toText])] else []
  .ok ((["left", "top", "width", "height"].zip (box.map fun t => [t])) ++ turn ++ height)

/-- The rule of an element. -/
def elementRule (e : Element) : Except Fault Rule := do
  let declarations := (← placement e) ++ (← properties e)
  .ok ⟨"#" ++ (← e.domId), declarations⟩

end ControlSurface.Stylesheet
