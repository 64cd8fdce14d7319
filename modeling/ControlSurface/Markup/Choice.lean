/-
  ControlSurface.Markup.Choice
  ────────────────────────────
  Controls that choose one of several options, or some of them, and text inputs.
-/
import ControlSurface.Markup.Slider

namespace ControlSurface.Markup

/-! ## §1. One of several. -/

/-- The options of a field with their places. -/
def options (e : Element) (field : String) : Except Fault (List (Int × Value)) := do
  .ok (numbered (← (e.get field).items))

/-- Whether a place is the one that a field names. -/
def isAt (e : Element) (field : String) (i : Int) : Bool := (Value.int i).same (e.get field)

/-- A switch that turns between positions, their labels spread over its angles. -/
def rotarySwitch (e : Element) : Except Fault Fragment := do
  let positions ← options e "positions"
  let count : Int := positions.length
  let labels ← positions.mapM fun (i, text) => do
    let start ← (e.get "start_angle").num
    let turn ←
      if 1 < count then do
        let span ← (← (e.get "end_angle").num).sub start
        (← (Num.int i).mul span).div (.int (count - 1))
      else .ok (.int 0)
    let angle ← start.add turn
    .ok (tag "span" [("class", .text "rotary-switch-label"), ("data-index", .int i),
      property "angle" (angle.plain Value.defaultPlaces ++ "deg")] [shown text])
  .ok (box [("role", .text "slider"), ("aria-valuenow", e.get "position"), ("tabindex", .int 0)]
    (part "div" "rotary-switch-body" [part "div" "rotary-switch-pointer" []] :: labels))

/-- A row of buttons of which one is selected. -/
def segments (e : Element) : Except Fault Fragment := do
  let buttons := (← options e "segments").map fun (i, text) =>
    let selected := if isAt e "selected_index" i then " is-selected" else ""
    tag "button" [("type", .text "button"), ("class", .text s!"segment{selected}"),
      ("data-index", .int i)] [shown text]
  .ok (box [("role", .text "group"), ("data-orientation", e.get "orientation")] buttons)

/-- A list that drops down. -/
def dropdown (e : Element) : Except Fault Fragment := do
  let entries := (← options e "options").map fun (i, text) =>
    tag "option" [("value", .int i), ("selected", .bool (isAt e "selected_index" i))] [shown text]
  .ok ⟨"select", [], entries⟩

/-- The option that an index names, if it names one. -/
def optionAt (items : List Value) (index : Value) : Except Fault (Option Value) := do
  let i ← index.num
  if (Num.int 0).le i && i.lt (.int items.length) then
    .ok items[(← index.index).toNat]?
  else .ok none

/-- An input with a list of suggestions. -/
def comboBox (s : PageSetting) (e : Element) : Except Fault Fragment := do
  let domId ← e.domId
  let items ← (e.get "options").items
  let value := (← optionAt items (e.get "selected_index")).getD (.text "")
  let listId := s.subId domId "options"
  .ok (box []
    [tag "input" [("type", .text "text"), ("list", .text listId), ("value", value),
       ("placeholder", e.get "placeholder")] [],
     tag "datalist" [("id", .text listId)]
       (items.map fun text => tag "option" [("value", text)] [])])

/-- A group of options of which one is marked. -/
def radioGroup (s : PageSetting) (e : Element) : Except Fault Fragment := do
  let domId ← e.domId
  let entries := (← options e "options").map fun (i, text) =>
    part "label" "radio-option"
      [tag "input" [("type", .text "radio"), ("name", .text (s.domScope ++ domId)),
         ("value", .int i), ("checked", .bool (isAt e "selected_index" i))] [],
       tag "span" [] [shown text]]
  .ok (box [("role", .text "radiogroup"), ("data-orientation", e.get "orientation")] entries)

/-- A row of tabs. -/
def tabBar (e : Element) : Except Fault Fragment := do
  let tabs := (← options e "tabs").map fun (i, text) =>
    tag "button" [("type", .text "button"), ("role", .text "tab"), ("class", .text "tab"),
      ("data-index", .int i), ("aria-selected", truthWord (isAt e "active_index" i))] [shown text]
  .ok (box [("role", .text "tablist"), ("data-orientation", e.get "orientation")] tabs)

/-- A control that chooses one of several options. -/
def choice (s : PageSetting) (e : Element) : Except Fault Fragment := do
  let _ ← e.domId
  match e.kind with
  | .rotarySwitch => rotarySwitch e
  | .segmentButton => segments e
  | .dropdown => dropdown e
  | .comboBox => comboBox s e
  | .radioGroup => radioGroup s e
  | _ => tabBar e

/-! ## §2. Some of several. -/

/-- A list that drops down and of which several options can be chosen. -/
def multiChoice (e : Element) : Except Fault Fragment := do
  let chosenPlaces ← (e.get "selected_indices").items
  let items ← if chosenPlaces.isEmpty then .ok [] else (e.get "options").items
  let chosen := (← chosenPlaces.mapM (optionAt items)).filterMap id
  let names ← chosen.mapM fun v => match v with
    | .text s => .ok s
    | _ => .error .wrongType
  let summary := if names.isEmpty then "Select..." else ", ".intercalate names
  let entries := (← options e "options").map fun (i, text) =>
    tag "li" [] [tag "label" [] [tag "input" [("type", .text "checkbox"), ("value", .int i),
      ("checked", .bool (chosenPlaces.any (Value.int i).same))] [], shown text]]
  .ok (box [("data-max-selections", e.get "max_selections")]
    [tag "button" [("type", .text "button"), ("class", .text "multiselect-toggle"),
       ("aria-expanded", .text "false")] [.text summary],
     tag "ul" [("class", .text "multiselect-options"), ("hidden", .bool true)] entries])

/-- A button that opens a menu. -/
def menu (e : Element) : Except Fault Fragment := do
  let entries := (← options e "items").map fun (i, text) =>
    tag "li" [("role", .text "menuitem"), ("data-index", .int i), ("tabindex", .int (-1))]
      [shown text]
  .ok (box []
    [tag "button" [("type", .text "button"), ("class", .text "menu-toggle"),
       ("aria-haspopup", .text "menu"), ("aria-expanded", .text "false")] [shown (e.get "label")],
     tag "ul" [("class", .text "menu-items"), ("role", .text "menu"), ("hidden", .bool true)]
       entries])

/-! ## §3. Text and numbers. -/

/-- A label, or a field to write in. -/
def textElement (e : Element) : Fragment :=
  if e.kind = .label then ⟨"span", [], [shown (e.get "text")]⟩
  else
    ⟨"input", [("type", .text "text"), ("value", e.get "value"),
      ("placeholder", (e.get "placeholder").orElse .null),
      ("maxlength", (e.get "max_length").orElse .null)], []⟩

/-- A number with buttons to step it. -/
def stepper (e : Element) : Except Fault Fragment := do
  let value ← (e.get "value").fixed (e.get "decimal_places")
  let step (which label : String) (sign : String) : Node :=
    tag "button" [("type", .text "button"), ("class", .text s!"stepper-{which}"),
      ("aria-label", .text label)] [.raw sign]
  .ok (box (("role", .text "spinbutton")
      :: rangeAttributes (e.get "value") (e.get "min") (e.get "max"))
    [step "dec" "Decrease" "&minus;", part "span" "stepper-value" [.text value],
     step "inc" "Increase" "+"])

end ControlSurface.Markup
