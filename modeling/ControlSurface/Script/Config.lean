/-
  ControlSurface.Script.Config
  ────────────────────────────
  What the component script is told about an element: its first state and the numbers that its
  behaviour needs.  Elements without behaviour have no configuration.
-/
import ControlSurface.Markup.Dial
import ControlSurface.Number.Reading

namespace ControlSurface.Script

/-! ## §1. States. -/

/-- The decimals of a state. -/
def stateDecimals : Nat := 6

/-- A value rounded to the decimals of a state. -/
def rounded (v : Value) : Except Fault Value := do
  .ok (.float (Number.roundTo stateDecimals (← v.toFloat)))

/-- The place of a value between two bounds, rounded. -/
def state (value lo hi : Value) : Except Fault Value := do
  rounded (← Readout.normalized value lo hi)

/-- The place of the value of an element between its bounds. -/
def ownState (e : Element) : Except Fault Value := state (e.get "value") (e.get "min") (e.get "max")

/-- The number of items in a field. -/
def count (e : Element) (field : String) : Except Fault Value := do
  .ok (.int (← (e.get field).items).length)

/-- The items of a field. -/
def listOf (e : Element) (field : String) : Except Fault Value := do
  .ok (.list (← (e.get field).items))

/-! ## §2. Controls. -/

/-- What a caption needs to show a value. -/
def captionConfig (e : Element) : Fields :=
  [("min", e.get "min"), ("max", e.get "max"), ("format", e.get "value_format"),
   ("decimalPlaces", e.get "value_decimal_places"), ("suffix", e.get "value_suffix")]

/-- The configuration of a dial. -/
def rotary (e : Element) : Except Fault Fields := do
  let value ← ownState e
  let size ← Markup.dialSize e
  let stepped := e.kind = .steppedKnob
  let detent := e.kind = .centerDetentKnob
  .ok ([("value", value), ("defaultValue", value), ("startAngle", e.get "start_angle"),
    ("endAngle", e.get "end_angle"), ("size", size), ("trackWidth", e.get "track_width"),
    ("steps", if stepped then e.get "step_count" else .int 0), ("detent", .bool detent),
    ("detentWidth", if detent then e.get "detent_width" else .int 0)] ++ captionConfig e)

/-- The configuration of a slider. -/
def linear (e : Element) : Except Fault Fields := do
  let notched := e.kind = .notchedSlider
  .ok ([("value", ← ownState e), ("orientation", e.get "orientation"),
    ("notches", if notched then e.get "notch_count" else .int 0),
    ("snap", if notched then e.get "snap_to_notches" else .bool false)] ++ captionConfig e)

/-- The configuration of a slider with two thumbs. -/
def range (e : Element) : Except Fault Fields := do
  .ok [("minValue", ← state (e.get "min_value") (e.get "min") (e.get "max")),
    ("maxValue", ← state (e.get "max_value") (e.get "min") (e.get "max")),
    ("orientation", e.get "orientation")]

/-- The configuration of a bar of characters. -/
def asciiSlider (e : Element) : Except Fault Fields := do
  .ok [("value", ← ownState e), ("min", e.get "min"), ("max", e.get "max"),
    ("barWidth", e.get "bar_width"), ("fillChar", (e.get "fill_char").orElse (.text "#")),
    ("emptyChar", (e.get "empty_char").orElse (.text "-"))]

/-- How many cells fit into a length, at least one. -/
def cells (length cell : Num) : Except Fault Value := do
  .ok (.int (max (← (← length.floorDiv cell).truncate) 1))

/-- The configuration of moving noise; still text has none. -/
def asciiArt (e : Element) : Except Fault (Option Fields) := do
  if !(e.get "content_type").same (.text "noise") then return none
  let size ← (e.get "font_size").num
  let line := (← size.mul (← (e.get "line_height").num)).max (.int 1)
  let rows ← cells (← (e.get "height").num) line
  let column := (← size.mul (.float 0.6)).max (.int 1)
  let columns ← cells (← (e.get "width").num) column
  return some [("contentType", .text "noise"), ("rows", rows), ("columns", columns),
    ("characters", (e.get "noise_characters").orElse (.text " .:-=+*#%@")),
    ("interval", .int 100)]

/-- The configuration of a switch or button. -/
def switch (e : Element) : Except Fault Fields := do
  match e.kind with
  | .button =>
    let leads := (e.get "action").same (.text "navigate-window") && e.flag "target_window_id"
    .ok [("mode", e.get "mode"), ("on", e.get "pressed"), ("navigate", .bool leads)]
  | .iconButton => .ok [("mode", e.get "mode"), ("on", e.get "pressed")]
  | .toggleSwitch | .powerButton => .ok [("mode", .text "toggle"), ("on", e.get "is_on")]
  | .rockerSwitch =>
    let raised ← (e.get "position").larger (.int 0)
    .ok [("mode", e.get "mode"), ("position", ← raised.smaller (.int 2))]
  | _ => .ok [("on", e.get "checked")]

/-- The configuration of a control that chooses one of several. -/
def choice (e : Element) : Except Fault Fields := do
  match e.kind with
  | .rotarySwitch =>
    .ok [("count", ← count e "positions"), ("index", e.get "position"),
      ("startAngle", e.get "start_angle"), ("endAngle", e.get "end_angle")]
  | .segmentButton => .ok [("count", ← count e "segments"), ("index", e.get "selected_index")]
  | .tabBar => .ok [("count", ← count e "tabs"), ("index", e.get "active_index")]
  | .comboBox =>
    .ok [("count", ← count e "options"), ("index", e.get "selected_index"),
      ("options", ← listOf e "options")]
  | _ => .ok [("count", ← count e "options"), ("index", e.get "selected_index")]

/-! ## §3. Displays. -/

/-- The place of a frequency on a logarithmic scale from 20 Hz to 20 kHz. -/
def frequencyState (e : Element) : Except Fault Value := do
  let hertz := (← (e.get "value").num).max (.int 20)
  let ratio ← (← hertz.div (.int 20)).toFloat
  let place := Num.float (ratio.log / Float.log 1000.0)
  rounded ((place.max (.float 0.0)).min (.float 1.0)).value

/-- What is drawn on a display. -/
def painter : Kind → String
  | .spectrumAnalyzer => "spectrum"
  | .spectrogram => "spectrogram"
  | .goniometer | .vectorscope => "scope"
  | .eqCurve => "eq"
  | .compressorCurve => "compressor"
  | .envelopeDisplay => "envelope"
  | .lfoDisplay => "lfo"
  | .filterResponse => "filter"
  | _ => "wave"

/-- What a drawn display needs beside its colours. -/
def curveConfig (e : Element) : Fields :=
  match e.kind with
  | .eqCurve =>
    [("bands", e.get "bands"), ("minGain", e.get "min_gain"), ("maxGain", e.get "max_gain")]
  | .compressorCurve =>
    [("threshold", e.get "threshold"), ("ratio", (e.get "ratio").orElse (.int 1)),
     ("knee", e.get "knee")]
  | .envelopeDisplay =>
    [("attack", e.get "attack"), ("decay", e.get "decay"), ("sustain", e.get "sustain"),
     ("release", e.get "release")]
  | .lfoDisplay => [("shape", e.get "shape"), ("cycles", e.get "cycles")]
  | .filterResponse =>
    [("filterType", e.get "filter_type"), ("cutoff", e.get "cutoff"),
     ("resonance", e.get "resonance")]
  | _ => []

/-- The configuration of a drawn display. -/
def canvas (e : Element) : Fields :=
  [("painter", .text (painter e.kind)), ("background", e.get "background_color"),
   ("trace", e.get "trace_color"), ("grid", e.get "grid_color"),
   ("showGrid", e.get "show_grid"), ("divisions", e.get "grid_divisions"),
   ("fill", e.get "fill_color")] ++ curveConfig e

/-- The configuration of a pad with two axes; each axis has a parameter of its own.  -/
def xyPad (e : Element) (parameter : String) : Except Fault Fields := do
  .ok [("x", ← state (e.get "x_value") (.int 0) (.int 1)),
    ("y", ← state (e.get "y_value") (.int 0) (.int 1)),
    ("xParameterId", (e.get "x_parameter_id").orElse (.text s!"{parameter}_x")),
    ("yParameterId", (e.get "y_parameter_id").orElse (.text s!"{parameter}_y"))]

end ControlSurface.Script
