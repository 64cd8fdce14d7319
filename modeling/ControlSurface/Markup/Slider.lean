/-
  ControlSurface.Markup.Slider
  ────────────────────────────
  Sliders: with one thumb, with two, with a row of bars, and the ones drawn in characters; switches
  and buttons, and the graphics that some elements carry.
-/
import ControlSurface.Markup.Dial
import ControlSurface.Page.Setting
import ControlSurface.Svg.Sanitize

namespace ControlSurface.Markup

/-! ## §1. Sliders with thumbs. -/

/-- A custom property on an element, as its style. -/
def property (name value : String) : String × Value := ("style", .text s!"--{name}: {value}")

/-- The notches of a slider, spread evenly; a single one stands in the middle. -/
def notches (e : Element) : Except Fault (List Node) := do
  let count ← (e.get "notch_count").index
  (Value.upTo count).mapM fun i => do
    let place ← if 1 < count then (Num.int i).div (.int (count - 1)) else .ok (.float 0.5)
    .ok (tag "span" [("class", .text "slider-notch"),
      property "notch" (place.plain Value.defaultPlaces)] [])

/-- A slider. -/
def slider (e : Element) : Except Fault Fragment := do
  let marks ← if e.kind = .notchedSlider then notches e else .ok []
  let center := if e.kind = .bipolarSlider then [part "div" "slider-center" []] else []
  let ends := if e.kind = .crossfadeSlider then
      [part "span" "crossfade-label crossfade-label-a" [shown (e.get "label_a")],
       part "span" "crossfade-label crossfade-label-b" [shown (e.get "label_b")]]
    else []
  let shownCaptions ← captions e "slider"
  .ok (box ([("role", .text "slider"), ("data-orientation", e.get "orientation"),
       ("aria-orientation", e.get "orientation")]
      ++ rangeAttributes (e.get "value") (e.get "min") (e.get "max"))
    ([part "div" "slider-track" []] ++ marks ++ center
      ++ [part "div" "slider-fill" [], part "div" "slider-thumb" []] ++ ends ++ shownCaptions))

/-- A handle that can be dragged. -/
def handle (cssClass label : String) : Node :=
  tag "div" [("class", .text cssClass), ("role", .text "slider"), ("aria-label", .text label),
    ("tabindex", .int 0)] []

/-- A slider with a thumb at either end of a range. -/
def rangeSlider (e : Element) : Except Fault Fragment := do
  let shownCaptions ← captions e "slider"
  .ok (box [("data-orientation", e.get "orientation")]
    ([part "div" "slider-track" [], part "div" "range-fill" [],
      handle "range-thumb range-thumb-min" "Minimum",
      handle "range-thumb range-thumb-max" "Maximum"] ++ shownCaptions))

/-! ## §2. Rows of bars. -/

/-- The value at a place of a list, or another one if the list is too short. -/
def itemOr (items : Value) (i : Int) (fallback : Except Fault Value) : Except Fault Value := do
  match (← items.items)[i.toNat]? with
  | some v => .ok v
  | none => fallback

/-- The style of a bar whose height shows a value from 0 to 1. -/
def barStyle (value : Value) : Except Fault (String × Value) := do
  let place ← Readout.normalized value (.int 0) (.int 1)
  .ok (property "value" (← place.plain))

/-- A row of sliders. -/
def multiSlider (e : Element) : Except Fault Fragment := do
  let count ← (← (e.get "band_count").larger (.int 0)).index
  let bands ← (Value.upTo count).mapM fun i => do
    let value ← itemOr (e.get "band_values") i (.ok (.float 0.5))
    .ok (tag "div" [("class", .text "multislider-band"), ("data-index", .int i),
      ← barStyle value] [part "div" "multislider-fill" []])
  .ok (box [("data-orientation", e.get "orientation")] bands)

/-- A row of bars, one for each harmonic; a harmonic without value has the height that a saw wave
gives it. -/
def harmonics (e : Element) : Except Fault Fragment := do
  let bars ← (Value.upTo (← (e.get "harmonic_count").index)).mapM fun i => do
    let saw := do .ok (← (Num.int 1).div (.int (i + 1))).value
    let value ← itemOr (e.get "harmonic_values") i saw
    .ok (tag "div" [("class", .text "harmonic-bar"), ("data-index", .int i), ← barStyle value] [])
  .ok (box [("role", .text "group")] bars)

/-! ## §3. Drawn in characters. -/

/-- Text repeated; a count below zero gives none. -/
def repeated (v : Value) (count : Int) : Except Fault String :=
  match v with
  | .text s => .ok (String.join (List.replicate count.toNat s))
  | _ => .error .wrongType

/-- The bar of a slider drawn in characters. -/
def characterBar (e : Element) : Except Fault String := do
  let place ← (← Readout.normalized (e.get "value") (e.get "min") (e.get "max")).num
  let filled ← (← place.mul (← (e.get "bar_width").num)).nearest
  let full ← repeated (e.get "fill_char") filled
  let empty ← repeated (e.get "empty_char") ((← (e.get "bar_width").index) - filled)
  .ok s!"[{full}{empty}]"

/-- A slider, button or picture drawn in characters. -/
def characters (e : Element) : Except Fault Fragment := do
  match e.kind with
  | .asciiSlider =>
    .ok ⟨"pre", ("role", .text "slider")
      :: rangeAttributes (e.get "value") (e.get "min") (e.get "max"), [.text (← characterBar e)]⟩
  | .asciiButton =>
    let label := if e.flag "pressed" then e.get "pressed_label" else e.get "label"
    .ok ⟨"button", [("type", .text "button"), ("data-mode", e.get "mode"),
      ("aria-pressed", truthWord (e.flag "pressed"))], [shown label]⟩
  | _ => .ok ⟨"pre", [("data-content-type", e.get "content_type")], [shown (e.get "content")]⟩

/-! ## §4. Graphics. -/

/-- The graphic of an element: the prepared one, or else its own without active content; nothing
if it cannot be read. -/
def graphic (s : PageSetting) (e : Element) : Except Fault Node :=
  match s.graphic? e.id with
  | some markup => .ok (.raw markup)
  | none => do
    if !e.id.isKey then throw .wrongType
    let source ← ((e.kind.svgField?.map e.get).getD .null).string
    if Text.isBlankString source then .ok (.raw "")
    else
      match Svg.sanitize source with
      | .ok markup => .ok (.raw markup)
      | .error _ => .ok (.raw "")

/-! ## §5. Buttons. -/

/-- The attributes of a button that is pressed or not. -/
def pressable (e : Element) (field : String) : Attributes :=
  [("type", .text "button"), ("data-mode", e.get "mode"),
    ("aria-pressed", truthWord (e.flag field))]

/-- Whether a button opens a window. -/
def opensWindow (e : Element) : Bool :=
  (e.get "action").same (.text "navigate-window") && e.flag "target_window_id"

/-- The picture on a power button. -/
def powerIcon : Node :=
  let stroke : Attributes :=
    [("fill", .text "none"), ("stroke-width", .text "2"), ("stroke-linecap", .text "round")]
  tag "svg" [("class", .text "power-icon"), ("viewBox", .text "0 0 24 24"),
    ("aria-hidden", .text "true")]
    [tag "path" (("d", .text "M12 3 L12 12") :: stroke) [],
     tag "path" (("d", .text "M6.3 6.3 A8 8 0 1 0 17.7 6.3") :: stroke) []]

/-- A button with text. -/
def button (e : Element) : Fragment :=
  let leads := if opensWindow e then [("data-navigate-window", e.get "target_window_id")] else []
  ⟨"button", pressable e "pressed" ++ leads, [shown (e.get "label")]⟩

/-- A button with a graphic. -/
def iconButton (s : PageSetting) (e : Element) : Except Fault Fragment := do
  let icon ← graphic s e
  .ok ⟨"button", pressable e "pressed" ++ [("aria-label", e.name)], [part "span" "icon" [icon]]⟩

/-! ## §6. Switches. -/

/-- A rocker with a paddle, its ends labelled or not. -/
def rocker (e : Element) : Fragment :=
  let end_ (which field : String) : Node :=
    part "span" s!"rocker-label rocker-label-{which}" [shown (e.get field)]
  let paddle := part "div" "rocker-paddle" []
  box [("role", .text "switch"), ("data-position", e.get "position"), ("data-mode", e.get "mode"),
      ("tabindex", .int 0)]
    (if e.flag "show_labels" then [end_ "up" "up_label", paddle, end_ "down" "down_label"]
     else [paddle])

/-- A box that can be ticked. -/
def checkbox (s : PageSetting) (e : Element) : Except Fault Fragment := do
  let inputId := s.subId (← e.domId) "input"
  .ok (box [("data-label-position", e.get "label_position")]
    [tag "input"
        [("type", .text "checkbox"), ("id", .text inputId), ("checked", e.get "checked")] [],
     tag "label" [("for", .text inputId)] [shown (e.get "label")]])

/-- A switch or button. -/
def switch (s : PageSetting) (e : Element) : Except Fault Fragment :=
  match e.kind with
  | .button => .ok (button e)
  | .iconButton => iconButton s e
  | .toggleSwitch =>
    .ok ⟨"button", [("type", .text "button"), ("role", .text "switch"),
      ("aria-checked", truthWord (e.flag "is_on"))], [part "span" "toggle-thumb" []]⟩
  | .powerButton =>
    .ok ⟨"button", [("type", .text "button"), ("aria-pressed", truthWord (e.flag "is_on")),
      ("aria-label", e.name)], [part "span" "power-led" [], powerIcon]⟩
  | .rockerSwitch => .ok (rocker e)
  | _ => checkbox s e

end ControlSurface.Markup
