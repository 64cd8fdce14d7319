/-
  ControlSurface.Markup.Display
  ─────────────────────────────
  Displays: meters, numbers with units, a matrix of connections, and drawn displays; and what is
  played: keyboards, pads and grids, and surfaces on which a point or a region is moved.
-/
import ControlSurface.Markup.Listing

namespace ControlSurface.Markup

/-! ## §1. Meters and numbers. -/

/-- A meter. -/
def meter (e : Element) : Except Fault Fragment := do
  let fill := part "div" "meter-fill" []
  if e.kind = .meter then
    let peak := if e.flag "show_peak_hold" then [part "div" "meter-peak" []] else []
    .ok (box ([("role", .text "meter"), ("data-orientation", e.get "orientation")]
      ++ rangeAttributes (e.get "value") (e.get "min") (e.get "max")) (fill :: peak))
  else
    let readout ← if e.flag "show_value" then do
        .ok [part "span" "meter-readout" [.text (← Readout.decibels (e.get "value") (.int 1) true)]]
      else .ok []
    .ok (box [("role", .text "meter"), ("data-orientation", e.get "orientation")] (fill :: readout))

/-- The text and the unit of a numeric display. -/
def readoutParts (e : Element) : Except Fault (String × String) := do
  let value := e.get "value"
  if e.kind = .frequencyDisplay then
    let auto := e.flag "auto_switch_khz"
    let text ← Readout.frequency value (e.get "decimal_places") auto false
    let kilo ← if auto then do .ok ((Num.int 1000).le (← value.num).abs) else .ok false
    .ok (text, if kilo then "kHz" else "Hz")
  else .ok (← Readout.decibels value (e.get "decimal_places") false, "dB")

/-- A numeric display. -/
def readout (e : Element) : Except Fault Fragment := do
  let (text, unit) ← readoutParts e
  let shownUnit := if e.flag "show_unit" then [part "span" "readout-unit" [.raw unit]] else []
  .ok (box [("role", .text "status")] (part "span" "readout-value" [.text text] :: shownUnit))

/-! ## §2. The matrix. -/

/-- The pairs of places that are connected; what is no pair is passed over. -/
def connections (v : Value) : Except Fault (List (Value × Value)) := do
  let pairs ← (← v.items).mapM Value.items
  let found := pairs.filterMap fun
    | source :: destination :: _ => some (source, destination)
    | _ => none
  if found.any fun p => !(p.1.isKey && p.2.isKey) then throw .wrongType
  .ok found

/-- A matrix of connections between sources and destinations. -/
def matrix (e : Element) : Except Fault Fragment := do
  let active ← connections (e.get "preview_active_connections")
  let destinations ← options e "destinations"
  let heads := destinations.map fun (_, text) =>
    tag "th" [("class", .text "matrix-header"), ("scope", .text "col")] [shown text]
  let rows := (← options e "sources").map fun (s, text) =>
    let cells := destinations.map fun (d, _) =>
      let on := active.any fun p => p.1.same (.int s) && p.2.same (.int d)
      tag "td" [("class", .text "matrix-cell"), ("data-source", .int s),
        ("data-destination", .int d), ("data-active", truthWord on)] []
    let head :=
      tag "th" [("class", .text "matrix-row-header"), ("scope", .text "row")] [shown text]
    tag "tr" [] (head :: cells)
  .ok (box [] [part "table" "modulation-matrix"
    (tag "tr" [] (part "th" "matrix-corner" [] :: heads) :: rows)])

/-! ## §3. Drawn displays. -/

/-- A display that the component script draws. -/
def canvas (e : Element) : Except Fault Fragment := do
  let width ← (e.get "width").toInt
  let height ← (e.get "height").toInt
  .ok (box [("role", .text "img"), ("aria-label", e.name)]
    [tag "canvas"
      [("class", .text "viz-canvas"), ("width", .int width), ("height", .int height)] []])

/-! ## §4. The keyboard. -/

/-- Whether a note is on a black key. -/
def isBlackKey (note : Int) : Bool := [1, 3, 6, 8, 10].contains (note % 12)

/-- The keys of some notes and the number of white keys before the next one, given the number of
white keys so far. -/
def keys (white : Nat) : List Int → List Node × Nat
  | [] => ([], white)
  | note :: notes =>
    let black := isBlackKey note
    let colour := if black then "black" else "white"
    let key := tag "div" [("class", .text s!"key key-{colour}"), ("data-note", .int note),
      property "white-index" (toString white)] []
    let (rest, total) := keys (if black then white else white + 1) notes
    (key :: rest, total)

/-- A keyboard of whole octaves, at least one. -/
def keyboard (e : Element) : Except Fault Fragment := do
  let octaves ← (e.get "octave_count").larger (.int 1)
  let length ← (Num.int 12).mul (← octaves.num)
  let stop ← (← (e.get "start_note").num).add length
  let start ← (e.get "start_note").index
  let stop ← stop.value.index
  let (nodes, white) := keys 0 ((Value.upTo (stop - start)).map fun i => start + i)
  .ok (box [("role", .text "group"), property "white-keys" (toString white)] nodes)

/-! ## §5. Pads and grids. -/

/-- The product of two counts. -/
def cellCount (rows columns : Value) : Except Fault Int := do
  (← (← rows.num).mul (← columns.num)).value.index

/-- A pad, or a grid of them. -/
def pad (e : Element) : Except Fault Fragment := do
  if e.kind = .drumPad then
    .ok ⟨"button", [("type", .text "button"), ("class", .text "pad")], [shown (e.get "label")]⟩
  else
    let pads := (Value.upTo (← cellCount (e.get "rows") (e.get "columns"))).map fun i =>
      tag "button" [("type", .text "button"), ("class", .text "pad"), ("data-index", .int i)]
        [.text (toString (i + 1))]
    .ok (box [("role", .text "grid")] pads)

/-- A grid of steps. -/
def stepGrid (e : Element) : Except Fault Fragment := do
  let active ← (e.get "active_steps").items
  if active.any fun step => !step.isKey then throw .wrongType
  let cells := (Value.upTo (← cellCount (e.get "steps") (e.get "rows"))).map fun i =>
    let on := active.any (Value.int i).same
    let state := if on then " is-active" else ""
    tag "button" [("type", .text "button"), ("class", .text s!"step{state}"),
      ("data-index", .int i), ("aria-pressed", truthWord on)] []
  .ok (box [("role", .text "grid")] cells)

/-! ## §6. Surfaces. -/

/-- A surface on which a point is moved. -/
def xyPad (e : Element) : Fragment :=
  box [("role", .text "application"), ("aria-label", e.name)]
    [part "div" "xy-surface" [part "div" "xy-cursor" []]]

/-- A region with a marker at either end. -/
def loopPoints : Fragment :=
  box [] [part "div" "loop-region" [], handle "loop-marker loop-start" "Loop start",
    handle "loop-marker loop-end" "Loop end"]

end ControlSurface.Markup
