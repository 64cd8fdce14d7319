/-
  ControlSurface.Markup.Node
  ──────────────────────────
  Markup as trees.  `print` is the only place where a tree becomes text: character data and
  attribute values are escaped there, so no value can end the element or the quotes it stands in.
  Text that is markup already is kept apart as `raw`.
-/
import ControlSurface.Number.Plain
import ControlSurface.Text.Character

namespace ControlSurface.Markup

/-! ## §1. Trees. -/

/-- Attributes with their values, in order. -/
abbrev Attributes := List (String × Value)

/-- A piece of markup. -/
inductive Node where
  /-- Character data. -/
  | text (s : String)
  /-- Text that is markup already. -/
  | raw (s : String)
  | element (tag : String) (attributes : Attributes) (body : List Node)
  deriving Inhabited

/-- Elements that have no content and no end tag. -/
def voidTags : List String := ["img", "input", "link", "meta"]

/-! ## §2. Printing. -/

/-- An attribute, after a space.  Nothing and false leave it out, true gives the name alone. -/
def attributeText (a : String × Value) : String :=
  match a.2 with
  | .null => ""
  | .bool b => if b then s!" {a.1}" else ""
  | .int i => s!" {a.1}=\"{(Num.int i).plain Value.defaultPlaces}\""
  | .float x => s!" {a.1}=\"{(Num.float x).plain Value.defaultPlaces}\""
  | v => s!" {a.1}=\"{Text.escape v.toText}\""

/-- All attributes of a tag. -/
def attributesText (attributes : Attributes) : String := String.join (attributes.map attributeText)

mutual
/-- A piece of markup as text. -/
def print : Node → String
  | .text s => Text.escape s
  | .raw s => s
  | .element tag attributes body =>
    let opening := "<" ++ tag ++ attributesText attributes ++ ">"
    if voidTags.contains tag then opening
    else opening ++ printAll body ++ "</" ++ tag ++ ">"

/-- Pieces of markup as text, one after the other. -/
def printAll : List Node → String
  | [] => ""
  | n :: rest => print n ++ printAll rest
end

/-! ## §3. Building. -/

/-- An element. -/
def tag (name : String) (attributes : Attributes) (body : List Node) : Node :=
  .element name attributes body

/-- An element that only has a class. -/
def part (name cssClass : String) (body : List Node) : Node :=
  .element name [("class", .text cssClass)] body

/-- The text of a value as character data. -/
def shown (v : Value) : Node := .text v.toText

/-- The word for a truth value. -/
def truthWord (b : Bool) : Value := .text (if b then "true" else "false")

/-- The node of an element before the attributes that all elements have. -/
structure Fragment where
  tag : String
  attributes : Attributes
  body : List Node
  deriving Inhabited

/-- A fragment that is a plain box. -/
def box (attributes : Attributes) (body : List Node) : Fragment := ⟨"div", attributes, body⟩

/-- Items with their places. -/
def numbered {α : Type} (items : List α) : List (Int × α) :=
  items.zipIdx.map fun (x, i) => ((i : Int), x)

/-- The attributes of a control with a value between two bounds. -/
def rangeAttributes (value lo hi : Value) : Attributes :=
  [("aria-valuemin", lo), ("aria-valuemax", hi), ("aria-valuenow", value), ("tabindex", .int 0)]

end ControlSurface.Markup
