/-
  ControlSurface.Markup.Dial
  ──────────────────────────
  Dials: a drawn track with a filled part, marks for steps, and a pointer, dot or thumb at the
  value; and the captions that dials and sliders share.
-/
import ControlSurface.Element.Basic
import ControlSurface.Markup.Node
import ControlSurface.Readout

namespace ControlSurface.Markup

/-! ## §1. Captions. -/

/-- The classes of a caption: one for all of its group, one for where it stands. -/
def captionClass (group : String) (place : Value) : String := s!"{group} {group}-{place.toText}"

/-- The captions of a control: its label and its value, as far as they are shown. -/
def captions (e : Element) (group : String) : Except Fault (List Node) := do
  let label :=
    if e.flag "show_label" then
      [part "span" (captionClass s!"{group}-label" (e.get "label_position"))
        [shown ((e.get "label_text").orElse e.name)]]
    else []
  let value ←
    if e.flag "show_value" then do
      let text ← Readout.format (e.get "value") (e.get "min") (e.get "max") (e.get "value_format")
        (e.get "value_decimal_places") (e.get "value_suffix")
      .ok [part "span" (captionClass s!"{group}-value" (e.get "value_position"))
        [.text text]]
    else .ok []
  .ok (label ++ value)

/-! ## §2. The drawing. -/

/-- The measures of a dial. -/
structure DialShape where
  size : Num
  center : Num
  radius : Num
  start : Num
  stop : Num
  /-- The place of the value, from 0 to 1. -/
  place : Num
  /-- The angle of the value. -/
  angle : Num
  deriving Inhabited

/-- The size of the square that a dial is drawn in. -/
def dialSize (e : Element) : Except Fault Value := do
  .ok ((← (e.get "width").smaller (e.get "height")).orElse (.int 1))

/-- The measures of a dial. -/
def dialShape (e : Element) : Except Fault DialShape := do
  let size ← (← dialSize e).num
  let center ← size.div (.int 2)
  let width ← (e.get "track_width").num
  let radius := ((← (← size.sub width).div (.int 2))).max (.int 1)
  let place ← (← Readout.normalized (e.get "value") (e.get "min") (e.get "max")).num
  let start ← (e.get "start_angle").num
  let stop ← (e.get "end_angle").num
  let angle ← start.add (← place.mul (← stop.sub start))
  .ok ⟨size, center, radius, start, stop, place, angle⟩

/-- The path of an arc of a dial. -/
def arcNode (e : Element) (cssClass path : String) : Node :=
  tag "path" [("class", .text cssClass), ("d", .text path), ("stroke-width", e.get "track_width"),
    ("fill", .text "none")] []

/-- A line of a dial between two distances from its center. -/
def spoke (cssClass : String) (d : DialShape) (inner outer angle : Num) : Except Fault Node := do
  let (x1, y1) ← Readout.point d.center d.center inner angle
  let (x2, y2) ← Readout.point d.center d.center outer angle
  .ok (tag "line" [("class", .text cssClass), ("x1", x1.value), ("y1", y1.value), ("x2", x2.value),
    ("y2", y2.value)] [])

/-- A dot of a dial at a distance from its center. -/
def dot (cssClass : String) (d : DialShape) (distance : Num) (radius : Value) :
    Except Fault Node := do
  let (x, y) ← Readout.point d.center d.center distance d.angle
  .ok (tag "circle" [("class", .text cssClass), ("cx", x.value), ("cy", y.value), ("r", radius)] [])

/-- The filled part of a dial: from the start to the value, or from the middle if the dial rests
there. -/
def fillPath (e : Element) (d : DialShape) : Except Fault String := do
  if e.kind = .centerDetentKnob then
    let middle ← (← d.start.add d.stop).div (.int 2)
    if d.angle.lt middle then Readout.arc d.center d.center d.radius d.angle middle
    else Readout.arc d.center d.center d.radius middle d.angle
  else if (Num.float 0.001).lt d.place then
    Readout.arc d.center d.center d.radius d.start d.angle
  else .ok ""

/-- The marks of the steps of a dial. -/
def stepMarks (e : Element) (d : DialShape) : Except Fault (List Node) := do
  if e.kind = .steppedKnob && e.flag "show_step_marks" then
    let count ← (e.get "step_count").num
    if (Num.int 1).lt count then
      let width ← (e.get "track_width").num
      (Value.upTo (← (e.get "step_count").index)).mapM fun i => do
        let turn ← (← (Num.int i).mul (← d.stop.sub d.start)).div (← count.sub (.int 1))
        let angle ← d.start.add turn
        let outer ← d.radius.add (← width.div (.int 2))
        let inner ← d.radius.sub width
        spoke "rotary-step-mark" d outer inner angle
    else .ok []
  else .ok []

/-- What shows the value of a dial. -/
def indicator (e : Element) (d : DialShape) : Except Fault Node := do
  if e.kind = .arcSlider then dot "rotary-thumb" d d.radius (e.get "thumb_radius")
  else
    let rim ← d.radius.mul (.float 0.9)
    if (e.get "style").same (.text "dot") || e.kind = .dotIndicatorKnob then
      let radius := if e.kind = .dotIndicatorKnob then e.get "dot_radius" else .int 3
      dot "rotary-indicator" d rim radius
    else spoke "rotary-indicator" d (← d.radius.mul (.float 0.4)) rim d.angle

/-- Whether a dial has a filled part. -/
def isFilled (e : Element) : Bool :=
  (e.get "style").same (.text "arc") || (e.get "style").same (.text "filled")
    || e.kind = .arcSlider

/-- A dial. -/
def dial (e : Element) : Except Fault Fragment := do
  let d ← dialShape e
  let track ← Readout.arc d.center d.center d.radius d.start d.stop
  let fill ← if isFilled e then do .ok [arcNode e "rotary-fill" (← fillPath e d)] else .ok []
  let marks ← stepMarks e d
  let pointer ← indicator e d
  let size := d.size.plain Value.defaultPlaces
  let drawing := tag "svg"
    [("class", .text "rotary-svg"), ("viewBox", .text s!"0 0 {size} {size}"),
     ("aria-hidden", .text "true")]
    ([arcNode e "rotary-track" track] ++ fill ++ marks ++ [pointer])
  let shownCaptions ← captions e "knob"
  .ok (box ([("role", .text "slider"), ("data-style", e.get "style")]
      ++ rangeAttributes (e.get "value") (e.get "min") (e.get "max")) (drawing :: shownCaptions))

end ControlSurface.Markup
