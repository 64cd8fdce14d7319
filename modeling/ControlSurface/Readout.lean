/-
  ControlSurface.Readout
  ──────────────────────
  How the value of a control is shown: its place between two bounds, its text with unit, and the
  points and arcs of a dial.  The component script computes the same, so the first picture and
  the running one agree.
-/
import ControlSurface.Number.Plain

namespace ControlSurface.Readout

/-! ## §1. Values and their texts. -/

/-- The place of a value between two bounds, from 0 to 1; one half if the bounds are equal. -/
def normalized (value lo hi : Value) : Except Fault Value :=
  if hi.same lo then .ok (.float 0.5)
  else do
    let value ← value.num
    let lo ← lo.num
    let above ← value.sub lo
    let hi ← hi.num
    let span ← hi.sub lo
    let place ← above.div span
    let raised := (Num.float 0.0).max place
    .ok ((Num.float 1.0).min raised).value

/-- A frequency, in kilohertz from 1000 on if that is asked for. -/
def frequency (value decimals : Value) (autoKilo showUnit : Bool) : Except Fault String := do
  let kilo ← if autoKilo then do
      let n ← value.num
      .ok ((Num.int 1000).le n.abs)
    else .ok false
  let (text, unit) ←
    if kilo then do
      let n ← value.num
      let q ← n.div (.int 1000)
      .ok (← q.value.fixed decimals, "kHz")
    else .ok (← value.fixed decimals, "Hz")
  .ok (if showUnit then s!"{text} {unit}" else text)

/-- A level in decibels. -/
def decibels (value decimals : Value) (showUnit : Bool) : Except Fault String := do
  let text ← if value.same (.float Number.negInfinity) then .ok "-inf" else value.fixed decimals
  .ok (if showUnit then s!"{text} dB" else text)

/-- The text of a value in the format that a control asks for. -/
def format (value lo hi valueFormat decimals suffix : Value) : Except Fault String := do
  if valueFormat.same (.text "percentage") then
    let place ← (← normalized value lo hi).num
    let percent ← place.mul (.int 100)
    .ok s!"{← percent.value.fixed decimals}%"
  else if valueFormat.same (.text "db") then .ok s!"{← value.fixed decimals} dB"
  else if valueFormat.same (.text "hz") then frequency value decimals true true
  else .ok s!"{← value.fixed decimals}{suffix.toText}"

/-! ## §2. Points on a circle. -/

/-- The double nearest to the circle constant. -/
def pi : Float := Float.ofBits 0x400921FB54442D18

/-- The point of a circle at an angle in degrees; zero is at twelve o'clock and angles grow
clockwise.  An infinite angle points nowhere. -/
def point (cx cy r angle : Num) : Except Fault (Num × Num) := do
  let turned ← angle.sub (.int 90)
  let scaled ← turned.mul (.float pi)
  let radians ← (← scaled.div (.int 180)).toFloat
  if radians.isInf then throw .badValue
  let x ← cx.add (← r.mul (.float radians.cos))
  let y ← cy.add (← r.mul (.float radians.sin))
  .ok (x, y)

/-- The decimals of a coordinate in a path. -/
def pathPlaces : Nat := 3

/-- Path data of the arc between two angles.  It runs from the end back to the start with the sweep
flag cleared; an empty arc has no path, and a full circle stops just short of its start. -/
def arc (cx cy r start stop : Num) : Except Fault String := do
  let span ← stop.sub start
  if span.le (.int 0) then .ok ""
  else do
    let stop ← if (Num.int 360).le span then start.add (.float 359.99) else .ok stop
    let (x1, y1) ← point cx cy r stop
    let (x2, y2) ← point cx cy r start
    let large := if (Num.int 180).lt (← stop.sub start) then "1" else "0"
    let t (n : Num) : String := n.plain pathPlaces
    .ok s!"M {t x1} {t y1} A {t r} {t r} 0 {large} 0 {t x2} {t y2}"

end ControlSurface.Readout
