/-
  ControlSurface.Element.Catalog
  ──────────────────────────────
  The fields of every kind with their defaults.  A kind has the fields of all elements, then those
  of its group, then its own; an own field that is already there only changes the default.
-/
import ControlSurface.Element.Kind
import ControlSurface.Value.Basic

namespace ControlSurface

/-- Named values in order. -/
abbrev Fields := List (String × Value)

/-- A stop of a colour scale. -/
def colorStop (position color : Value) : Value :=
  .object [("position", position), ("color", color)]

/-- A band of an equalizer. -/
def eqBand (frequency gain q : Value) : Value :=
  .object [("frequency", frequency), ("gain", gain), ("q", q)]

namespace Catalog

/-! ## §1. Shared fields. -/

/-- Fields of every element: what it is called, where it stands and what it belongs to. -/
def commonFields : Fields :=
  [("id", .text ""), ("name", .text ""), ("x", .int 0), ("y", .int 0), ("width", .int 100),
   ("height", .int 100), ("rotation", .int 0), ("z_index", .int 0), ("locked", .bool false),
   ("visible", .bool true), ("parameter_id", .null), ("parent_id", .null), ("layer_id", .null)]

/-- Fields of dials. -/
def rotaryFields : Fields :=
  [("value", .float 0.5), ("min", .float 0.0), ("max", .float 1.0), ("start_angle", .int (-135)),
   ("end_angle", .int 135), ("style", .text "arc"), ("track_color", .text "#374151"),
   ("fill_color", .text "#3b82f6"), ("indicator_color", .text "#ffffff"),
   ("track_width", .int 4), ("show_label", .bool false), ("label_text", .text ""),
   ("label_position", .text "bottom"), ("label_font_size", .int 12),
   ("label_color", .text "#9ca3af"), ("show_value", .bool false),
   ("value_position", .text "top"), ("value_format", .text "numeric"),
   ("value_suffix", .text ""), ("value_decimal_places", .int 1), ("value_font_size", .int 12),
   ("value_color", .text "#e5e7eb")]

/-- Fields of sliders. -/
def linearFields : Fields :=
  [("orientation", .text "vertical"), ("value", .float 0.5), ("min", .float 0.0),
   ("max", .float 1.0), ("track_color", .text "#374151"), ("fill_color", .text "#3b82f6"),
   ("thumb_color", .text "#ffffff"), ("thumb_width", .int 20), ("thumb_height", .int 20),
   ("show_label", .bool false), ("label_text", .text ""), ("label_position", .text "bottom"),
   ("label_font_size", .int 12), ("label_color", .text "#9ca3af"), ("show_value", .bool false),
   ("value_position", .text "top"), ("value_format", .text "numeric"),
   ("value_suffix", .text ""), ("value_decimal_places", .int 1), ("value_font_size", .int 12),
   ("value_color", .text "#e5e7eb")]

/-- Fields of switches and buttons. -/
def switchFields : Fields :=
  [("background_color", .text "#374151"), ("text_color", .text "#ffffff"),
   ("border_color", .text "#4b5563"), ("border_radius", .int 4)]

/-- Fields of selections and inputs. -/
def selectionFields : Fields :=
  [("background_color", .text "#1f2937"), ("text_color", .text "#e5e7eb"),
   ("border_color", .text "#4b5563"), ("accent_color", .text "#3b82f6"),
   ("border_radius", .int 4), ("font_size", .int 13)]

/-- Fields of numeric displays. -/
def readoutFields : Fields :=
  [("decimal_places", .int 1), ("show_unit", .bool true), ("font_size", .int 14),
   ("font_family", .text "Roboto Mono"), ("text_color", .text "#22c55e"),
   ("background_color", .text "#111827"), ("padding", .int 4)]

/-- Fields of drawn displays. -/
def canvasFields : Fields :=
  [("background_color", .text "#0b0f17"), ("trace_color", .text "#22c55e"),
   ("border_color", .text "#374151"), ("border_width", .int 1), ("show_grid", .bool true),
   ("grid_color", .text "#1f2937"), ("grid_divisions", .int 4)]

/-- Fields of containers. -/
def containerFields : Fields :=
  [("background_color", .text "transparent"), ("border_color", .text "#374151"),
   ("border_width", .int 1), ("border_radius", .int 4), ("padding", .int 0)]

end Catalog

namespace Kind

open Catalog

/-! ## §2. The fields of a kind. -/

/-- The fields that a kind shares with its group. -/
def groupFields : Kind → Fields
  | knob | steppedKnob | centerDetentKnob | dotIndicatorKnob | arcSlider => rotaryFields
  | slider | bipolarSlider | notchedSlider | crossfadeSlider | rangeSlider | multiSlider
  | asciiSlider => linearFields
  | button | iconButton | toggleSwitch | powerButton | rockerSwitch | rotarySwitch
  | segmentButton | asciiButton | menuButton => switchFields
  | dropdown | multiSelectDropdown | comboBox | checkbox | radioGroup | textField | stepper
  | tabBar | breadcrumb | treeView => selectionFields
  | dbDisplay | frequencyDisplay => readoutFields
  | waveform | oscilloscope | spectrumAnalyzer | spectrogram | goniometer | vectorscope
  | scrollingWaveform | eqCurve | compressorCurve | envelopeDisplay | lfoDisplay
  | filterResponse => canvasFields
  | panel | frame | groupBox | collapsible => containerFields
  | _ => []

/-- The fields that a kind adds, and the defaults that it changes. -/
def ownFields : Kind → Fields
  | steppedKnob => [("step_count", .int 12), ("show_step_marks", .bool true)]
  | centerDetentKnob => [("detent_width", .float 0.05), ("style", .text "arc")]
  | dotIndicatorKnob => [("dot_radius", .int 3), ("style", .text "dot")]
  | arcSlider =>
    [("start_angle", .int (-120)), ("end_angle", .int 120), ("thumb_radius", .int 6),
     ("thumb_color", .text "#ffffff")]
  | bipolarSlider => [("center_value", .float 0.5), ("center_color", .text "#6b7280")]
  | notchedSlider =>
    [("notch_count", .int 5), ("notch_color", .text "#6b7280"), ("snap_to_notches", .bool false)]
  | crossfadeSlider =>
    [("orientation", .text "horizontal"), ("label_a", .text "A"), ("label_b", .text "B")]
  | rangeSlider => [("min_value", .float 0.25), ("max_value", .float 0.75)]
  | multiSlider => [("band_count", .int 8), ("band_values", .list []), ("band_gap", .int 2)]
  | asciiSlider =>
    [("orientation", .text "horizontal"), ("bar_width", .int 16), ("fill_char", .text "#"),
     ("empty_char", .text "-"), ("font_family", .text "Roboto Mono"), ("font_size", .int 12),
     ("text_color", .text "#22c55e")]
  | button =>
    [("mode", .text "momentary"), ("label", .text "Button"), ("pressed", .bool false),
     ("action", .text "parameter"), ("target_window_id", .null)]
  | iconButton =>
    [("mode", .text "momentary"), ("icon_svg", .text ""), ("pressed", .bool false),
     ("icon_color", .text "#e5e7eb")]
  | toggleSwitch =>
    [("is_on", .bool false), ("on_color", .text "#22c55e"), ("off_color", .text "#4b5563"),
     ("thumb_color", .text "#ffffff")]
  | powerButton =>
    [("is_on", .bool true), ("led_color", .text "#22c55e"), ("led_off_color", .text "#1f2937")]
  | rockerSwitch =>
    [("position", .int 1), ("mode", .text "latch"), ("show_labels", .bool true),
     ("up_label", .text "ON"), ("down_label", .text "OFF")]
  | rotarySwitch =>
    [("positions", .list [.text "1", .text "2", .text "3"]), ("position", .int 0),
     ("start_angle", .int (-120)), ("end_angle", .int 120), ("pointer_color", .text "#ffffff")]
  | segmentButton =>
    [("segments", .list [.text "A", .text "B", .text "C"]), ("selected_index", .int 0),
     ("selected_color", .text "#3b82f6"), ("orientation", .text "horizontal")]
  | asciiButton =>
    [("mode", .text "toggle"), ("label", .text "[ ON ]"), ("pressed_label", .text "[*ON*]"),
     ("pressed", .bool false), ("font_family", .text "Roboto Mono"), ("font_size", .int 12),
     ("background_color", .text "transparent"), ("text_color", .text "#22c55e")]
  | menuButton => [("label", .text "Menu"), ("items", .list [.text "Item 1", .text "Item 2"])]
  | dropdown =>
    [("options", .list [.text "Option 1", .text "Option 2"]), ("selected_index", .int 0)]
  | multiSelectDropdown =>
    [("options", .list [.text "Option 1", .text "Option 2"]), ("selected_indices", .list []),
     ("max_selections", .int 0)]
  | comboBox =>
    [("options", .list [.text "Option 1", .text "Option 2"]), ("selected_index", .int (-1)),
     ("placeholder", .text "Type or select...")]
  | checkbox =>
    [("checked", .bool false), ("label", .text "Checkbox"), ("label_position", .text "right"),
     ("background_color", .text "transparent")]
  | radioGroup =>
    [("options", .list [.text "Option 1", .text "Option 2"]), ("selected_index", .int 0),
     ("orientation", .text "vertical"), ("spacing", .int 8),
     ("background_color", .text "transparent")]
  | textField =>
    [("value", .text ""), ("placeholder", .text ""), ("max_length", .int 0),
     ("font_family", .text "Inter"), ("text_align", .text "left"), ("padding", .int 6),
     ("border_width", .int 1)]
  | stepper =>
    [("value", .int 0), ("min", .int 0), ("max", .int 10), ("step", .int 1),
     ("decimal_places", .int 0)]
  | tabBar =>
    [("tabs", .list [.text "Tab 1", .text "Tab 2"]), ("active_index", .int 0),
     ("orientation", .text "horizontal")]
  | breadcrumb => [("items", .list [.text "Home", .text "Presets"]), ("separator", .text "/")]
  | treeView => [("items", .list []), ("row_height", .int 20), ("expanded", .bool true)]
  | label =>
    [("text", .text "Label"), ("font_size", .int 14), ("font_family", .text "Inter"),
     ("font_weight", .int 400), ("color", .text "#ffffff"), ("text_align", .text "center")]
  | meter =>
    [("orientation", .text "vertical"), ("value", .float 0.0), ("min", .float (-60.0)),
     ("max", .float 0.0),
     ("color_stops", .list [colorStop (.float 0.0) (.text "#22c55e"),
       colorStop (.float 0.7) (.text "#eab308"), colorStop (.float 0.9) (.text "#ef4444")]),
     ("background_color", .text "#111827"), ("show_peak_hold", .bool false)]
  | dbDisplay => [("value", .float (-12.0)), ("min_db", .float (-60.0)), ("max_db", .float 0.0)]
  | frequencyDisplay => [("value", .float 1000.0), ("auto_switch_khz", .bool true)]
  | gainReductionMeter =>
    [("orientation", .text "vertical"), ("value", .float 0.0), ("max_reduction", .float (-24.0)),
     ("meter_color", .text "#f97316"), ("background_color", .text "#111827"),
     ("show_value", .bool true), ("font_size", .int 10), ("text_color", .text "#e5e7eb")]
  | presetBrowser =>
    [("presets", .list [.text "Init", .text "Bass/Sub", .text "Lead/Saw"]),
     ("selected_index", .int 0), ("show_folders", .bool true), ("show_search", .bool true),
     ("background_color", .text "#111827"), ("item_color", .text "#1f2937"),
     ("selected_color", .text "#3b82f6"), ("text_color", .text "#e5e7eb"),
     ("selected_text_color", .text "#ffffff"), ("font_size", .int 12), ("item_height", .int 24),
     ("border_color", .text "#374151"), ("border_radius", .int 4)]
  | modulationMatrix =>
    [("sources", .list [.text "LFO 1", .text "ENV 1"]),
     ("destinations", .list [.text "Pitch", .text "Cutoff"]), ("cell_size", .int 24),
     ("cell_color", .text "#1f2937"), ("active_color", .text "#3b82f6"),
     ("border_color", .text "#374151"), ("header_background", .text "#111827"),
     ("header_color", .text "#9ca3af"), ("header_font_size", .int 10),
     ("preview_active_connections", .list [])]
  | waveform => [("zoom_level", .int 1)]
  | oscilloscope =>
    [("time_div", .int 10), ("amplitude_scale", .int 1), ("trigger_level", .float 0.5)]
  | spectrumAnalyzer =>
    [("fft_size", .int 2048), ("frequency_scale", .text "log"), ("min_db", .int (-90)),
     ("max_db", .int 0), ("fill_color", .text "rgba(34, 197, 94, 0.25)")]
  | spectrogram => [("fft_size", .int 1024), ("color_map", .text "heat")]
  | goniometer => [("show_axes", .bool true)]
  | vectorscope => [("persistence", .float 0.6)]
  | scrollingWaveform => [("scroll_speed", .int 1), ("display_mode", .text "filled")]
  | eqCurve =>
    [("bands", .list [eqBand (.int 100) (.int 3) (.float 0.7),
       eqBand (.int 3000) (.int (-2)) (.float 1.2)]),
     ("min_gain", .int (-24)), ("max_gain", .int 24),
     ("fill_color", .text "rgba(59, 130, 246, 0.2)")]
  | compressorCurve => [("threshold", .int (-18)), ("ratio", .int 4), ("knee", .int 6)]
  | envelopeDisplay =>
    [("attack", .float 0.1), ("decay", .float 0.2), ("sustain", .float 0.7),
     ("release", .float 0.3), ("fill_color", .text "rgba(34, 197, 94, 0.2)")]
  | lfoDisplay => [("shape", .text "sine"), ("cycles", .int 2)]
  | filterResponse =>
    [("filter_type", .text "lowpass"), ("cutoff", .int 1000), ("resonance", .float 0.7),
     ("fill_color", .text "rgba(59, 130, 246, 0.2)")]
  | pianoKeyboard =>
    [("start_note", .int 48), ("octave_count", .int 2), ("white_key_color", .text "#f9fafb"),
     ("black_key_color", .text "#111827"), ("pressed_color", .text "#3b82f6")]
  | drumPad =>
    [("label", .text "Pad"), ("pad_color", .text "#374151"), ("active_color", .text "#f97316"),
     ("text_color", .text "#e5e7eb"), ("border_radius", .int 6)]
  | padGrid =>
    [("rows", .int 4), ("columns", .int 4), ("gap", .int 4), ("pad_color", .text "#374151"),
     ("active_color", .text "#f97316"), ("text_color", .text "#e5e7eb"),
     ("border_radius", .int 4)]
  | stepSequencer =>
    [("steps", .int 16), ("rows", .int 1), ("active_steps", .list []),
     ("step_color", .text "#1f2937"), ("active_color", .text "#22c55e"), ("gap", .int 2)]
  | xyPad =>
    [("x_value", .float 0.5), ("y_value", .float 0.5), ("x_parameter_id", .null),
     ("y_parameter_id", .null), ("background_color", .text "#111827"),
     ("cursor_color", .text "#3b82f6"), ("grid_color", .text "#1f2937"), ("cursor_size", .int 12)]
  | loopPoints =>
    [("loop_start", .float 0.25), ("loop_end", .float 0.75), ("background_color", .text "#111827"),
     ("region_color", .text "rgba(59, 130, 246, 0.25)"), ("marker_color", .text "#3b82f6")]
  | harmonicEditor =>
    [("harmonic_count", .int 16), ("harmonic_values", .list []), ("bar_color", .text "#3b82f6"),
     ("background_color", .text "#111827")]
  | panel => [("background_color", .text "#1f2937")]
  | frame => [("border_style", .text "solid")]
  | groupBox =>
    [("header_text", .text "Group"), ("header_font_size", .int 12),
     ("header_color", .text "#e5e7eb"), ("header_background", .text "#1f2937")]
  | collapsible =>
    [("header_text", .text "Section"), ("header_font_size", .int 12),
     ("header_color", .text "#e5e7eb"), ("header_background", .text "#1f2937"),
     ("header_height", .int 28), ("content_background", .text "#111827"),
     ("max_content_height", .int 200), ("scroll_behavior", .text "auto"),
     ("collapsed", .bool false), ("scrollbar_width", .int 10),
     ("scrollbar_thumb_color", .text "#4a4a4a"), ("scrollbar_track_color", .text "#1a1a1a")]
  | image => [("src", .text ""), ("fit", .text "contain"), ("alt", .text "")]
  | svgGraphic => [("svg_content", .text ""), ("opacity", .int 1)]
  | rectangle =>
    [("fill_color", .text "#374151"), ("fill_opacity", .int 1),
     ("border_color", .text "transparent"), ("border_width", .int 0), ("border_radius", .int 0)]
  | line =>
    [("stroke_color", .text "#4b5563"), ("stroke_width", .int 1), ("stroke_style", .text "solid")]
  | asciiArt =>
    [("content", .text ""), ("content_type", .text "static"),
     ("noise_characters", .text " .:-=+*#%@"), ("font_family", .text "Roboto Mono"),
     ("font_size", .int 10), ("line_height", .float 1.0), ("text_color", .text "#22c55e"),
     ("background_color", .text "transparent")]
  | _ => []

/-- Puts fields into fields: each in its place if it is there, else at the end. -/
def overlay (base top : Fields) : Fields :=
  top.foldl (fun fields f => Value.put f.1 f.2 fields) base

/-- All fields of a kind with their defaults, in order. -/
def defaults (k : Kind) : Fields := overlay (commonFields ++ k.groupFields) k.ownFields

/-- The names of the fields of a kind, in order. -/
def fieldNames (k : Kind) : List String := k.defaults.map (·.1)

end Kind

end ControlSurface
