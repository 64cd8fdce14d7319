/-
  ControlSurface.Element.Kind
  ───────────────────────────
  The catalog of element kinds.  A kind has a name in project files, belongs to a family that
  shares style rules and behaviour, and may be bindable (it talks to a host parameter), a container
  (its children render inside it), carry a font or carry inline SVG.
-/

namespace ControlSurface

/-! ## §1. Kinds and families. -/

/-- What an element is. -/
inductive Kind where
  | knob | steppedKnob | centerDetentKnob | dotIndicatorKnob | arcSlider | slider
  | bipolarSlider | notchedSlider | crossfadeSlider | rangeSlider | multiSlider | asciiSlider
  | button | iconButton | toggleSwitch | powerButton | rockerSwitch | rotarySwitch
  | segmentButton | asciiButton | menuButton | dropdown | multiSelectDropdown | comboBox
  | checkbox | radioGroup | textField | stepper | tabBar | breadcrumb | treeView | label
  | meter | dbDisplay | frequencyDisplay | gainReductionMeter | presetBrowser
  | modulationMatrix | waveform | oscilloscope | spectrumAnalyzer | spectrogram | goniometer
  | vectorscope | scrollingWaveform | eqCurve | compressorCurve | envelopeDisplay | lfoDisplay
  | filterResponse | pianoKeyboard | drumPad | padGrid | stepSequencer | xyPad | loopPoints
  | harmonicEditor | panel | frame | groupBox | collapsible | image | svgGraphic | rectangle
  | line | asciiArt
  deriving Repr, DecidableEq, Inhabited

/-- Elements that share style rules and behaviour. -/
inductive Family where
  | rotary | linear | range | multiSlider | ascii | switch | choice | menu | multiChoice | text
  | stepper | list | meter | readout | matrix | canvas | keyboard | pad | grid | xyPad | loop
  | harmonic | container | decor
  deriving Repr, DecidableEq, Inhabited

namespace Kind

/-- Every kind, in the order of the catalog. -/
def all : List Kind :=
  [.knob, .steppedKnob, .centerDetentKnob, .dotIndicatorKnob, .arcSlider, .slider,
   .bipolarSlider, .notchedSlider, .crossfadeSlider, .rangeSlider, .multiSlider, .asciiSlider,
   .button, .iconButton, .toggleSwitch, .powerButton, .rockerSwitch, .rotarySwitch,
   .segmentButton, .asciiButton, .menuButton, .dropdown, .multiSelectDropdown, .comboBox,
   .checkbox, .radioGroup, .textField, .stepper, .tabBar, .breadcrumb, .treeView, .label, .meter,
   .dbDisplay, .frequencyDisplay, .gainReductionMeter, .presetBrowser, .modulationMatrix,
   .waveform, .oscilloscope, .spectrumAnalyzer, .spectrogram, .goniometer, .vectorscope,
   .scrollingWaveform, .eqCurve, .compressorCurve, .envelopeDisplay, .lfoDisplay,
   .filterResponse, .pianoKeyboard, .drumPad, .padGrid, .stepSequencer, .xyPad, .loopPoints,
   .harmonicEditor, .panel, .frame, .groupBox, .collapsible, .image, .svgGraphic, .rectangle,
   .line, .asciiArt]

/-- The name of a kind in a project file. -/
def name : Kind → String
  | knob => "knob"
  | steppedKnob => "steppedknob"
  | centerDetentKnob => "centerdetentknob"
  | dotIndicatorKnob => "dotindicatorknob"
  | arcSlider => "arcslider"
  | slider => "slider"
  | bipolarSlider => "bipolarslider"
  | notchedSlider => "notchedslider"
  | crossfadeSlider => "crossfadeslider"
  | rangeSlider => "rangeslider"
  | multiSlider => "multislider"
  | asciiSlider => "asciislider"
  | button => "button"
  | iconButton => "iconbutton"
  | toggleSwitch => "toggleswitch"
  | powerButton => "powerbutton"
  | rockerSwitch => "rockerswitch"
  | rotarySwitch => "rotaryswitch"
  | segmentButton => "segmentbutton"
  | asciiButton => "asciibutton"
  | menuButton => "menubutton"
  | dropdown => "dropdown"
  | multiSelectDropdown => "multiselectdropdown"
  | comboBox => "combobox"
  | checkbox => "checkbox"
  | radioGroup => "radiogroup"
  | textField => "textfield"
  | stepper => "stepper"
  | tabBar => "tabbar"
  | breadcrumb => "breadcrumb"
  | treeView => "treeview"
  | label => "label"
  | meter => "meter"
  | dbDisplay => "dbdisplay"
  | frequencyDisplay => "frequencydisplay"
  | gainReductionMeter => "gainreductionmeter"
  | presetBrowser => "presetbrowser"
  | modulationMatrix => "modulationmatrix"
  | waveform => "waveform"
  | oscilloscope => "oscilloscope"
  | spectrumAnalyzer => "spectrumanalyzer"
  | spectrogram => "spectrogram"
  | goniometer => "goniometer"
  | vectorscope => "vectorscope"
  | scrollingWaveform => "scrollingwaveform"
  | eqCurve => "eqcurve"
  | compressorCurve => "compressorcurve"
  | envelopeDisplay => "envelopedisplay"
  | lfoDisplay => "lfodisplay"
  | filterResponse => "filterresponse"
  | pianoKeyboard => "pianokeyboard"
  | drumPad => "drumpad"
  | padGrid => "padgrid"
  | stepSequencer => "stepsequencer"
  | xyPad => "xypad"
  | loopPoints => "looppoints"
  | harmonicEditor => "harmoniceditor"
  | panel => "panel"
  | frame => "frame"
  | groupBox => "groupbox"
  | collapsible => "collapsible"
  | image => "image"
  | svgGraphic => "svggraphic"
  | rectangle => "rectangle"
  | line => "line"
  | asciiArt => "asciiart"

/-- The kind of a name. -/
def ofName? (name : String) : Option Kind := all.find? fun k => k.name == name

/-- The family of a kind. -/
def family : Kind → Family
  | knob | steppedKnob | centerDetentKnob | dotIndicatorKnob | arcSlider => .rotary
  | slider | bipolarSlider | notchedSlider | crossfadeSlider => .linear
  | rangeSlider => .range
  | multiSlider => .multiSlider
  | asciiSlider | asciiButton | asciiArt => .ascii
  | button | iconButton | toggleSwitch | powerButton | rockerSwitch | checkbox => .switch
  | rotarySwitch | segmentButton | dropdown | comboBox | radioGroup | tabBar => .choice
  | menuButton => .menu
  | multiSelectDropdown => .multiChoice
  | textField | label => .text
  | stepper => .stepper
  | breadcrumb | treeView | presetBrowser => .list
  | meter | gainReductionMeter => .meter
  | dbDisplay | frequencyDisplay => .readout
  | modulationMatrix => .matrix
  | waveform | oscilloscope | spectrumAnalyzer | spectrogram | goniometer | vectorscope
  | scrollingWaveform | eqCurve | compressorCurve | envelopeDisplay | lfoDisplay
  | filterResponse => .canvas
  | pianoKeyboard => .keyboard
  | drumPad | padGrid => .pad
  | stepSequencer => .grid
  | xyPad => .xyPad
  | loopPoints => .loop
  | harmonicEditor => .harmonic
  | panel | frame | groupBox | collapsible => .container
  | image | svgGraphic | rectangle | line => .decor

/-- Whether elements of a kind talk to a host parameter. -/
def bindable : Kind → Bool
  | knob | steppedKnob | centerDetentKnob | dotIndicatorKnob | arcSlider | slider
  | bipolarSlider | notchedSlider | crossfadeSlider | rangeSlider | multiSlider
  | asciiSlider | button | iconButton | toggleSwitch | powerButton | rockerSwitch
  | rotarySwitch | segmentButton | asciiButton | dropdown | multiSelectDropdown | comboBox
  | checkbox | radioGroup | stepper | tabBar | pianoKeyboard | drumPad | padGrid
  | stepSequencer | xyPad | loopPoints | harmonicEditor => true
  | _ => false

/-- Whether elements of a kind hold their children. -/
def container : Kind → Bool
  | panel | frame | groupBox | collapsible => true
  | _ => false

/-- The field that names the font of a kind that shows text of its own. -/
def fontField? : Kind → Option String
  | asciiSlider | asciiButton | textField | label | dbDisplay | frequencyDisplay | asciiArt =>
    some "font_family"
  | _ => none

/-- The field that holds the inline SVG of a kind. -/
def svgField? : Kind → Option String
  | iconButton => some "icon_svg"
  | svgGraphic => some "svg_content"
  | _ => none

end Kind

/-- The name of a family. -/
def Family.name : Family → String
  | rotary => "rotary"
  | linear => "linear"
  | range => "range"
  | multiSlider => "multislider"
  | ascii => "ascii"
  | switch => "switch"
  | choice => "choice"
  | menu => "menu"
  | multiChoice => "multichoice"
  | text => "text"
  | stepper => "stepper"
  | list => "list"
  | meter => "meter"
  | readout => "readout"
  | matrix => "matrix"
  | canvas => "canvas"
  | keyboard => "keyboard"
  | pad => "pad"
  | grid => "grid"
  | xyPad => "xypad"
  | loop => "loop"
  | harmonic => "harmonic"
  | container => "container"
  | decor => "decor"

end ControlSurface
