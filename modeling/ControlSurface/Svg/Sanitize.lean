/-
  ControlSurface.Svg.Sanitize
  ───────────────────────────
  Reading an SVG and taking everything active out of it: scripts, foreign content, event handlers
  and links that run code.  An element goes together with the text that follows it.
-/
import ControlSurface.Text.LowerCase
import ControlSurface.Xml.Tree
import ControlSurface.Xml.Reader

namespace ControlSurface.Svg

open ControlSurface.Text ControlSurface.Xml

/-! ## §1. Reading. -/

/-- The name of the root element of an SVG. -/
def rootName : String := "svg"

/-- Reads an SVG document. -/
def parse (keepsNotes : Bool) (text : String) : Except Fault Document :=
  match read? keepsNotes (trim text.toList) with
  | none => .error .malformedSvg
  | some d =>
    let found := (d.root.name?.map Name.base).getD ""
    if found = rootName then .ok d else .error (.notSvg found)

/-! ## §2. Removing nodes. -/

mutual
/-- Drops the elements of a class below a node. -/
def dropBelow (p : Name → Bool) : Node → Node
  | .element name declared attributes children =>
    .element name declared attributes (dropAmong p false children)
  | n => n

/-- Drops the elements of a class among nodes and below them, each with the text after it; `after`
tells that the node before was dropped. -/
def dropAmong (p : Name → Bool) (after : Bool) : List Node → List Node
  | [] => []
  | .text s :: rest =>
    -- the text after an element belongs to it
    if after then dropAmong p false rest else .text s :: dropAmong p false rest
  | n :: rest =>
    if (n.name?.map p).getD false then dropAmong p true rest
    else dropBelow p n :: dropAmong p false rest
end

mutual
/-- Changes the attributes of a node and of all nodes below it. -/
def mapAttributes (f : List Attribute → List Attribute) : Node → Node
  | .element name declared attributes children =>
    .element name declared (f attributes) (mapAttributesAmong f children)
  | n => n

/-- Changes the attributes of nodes and of all nodes below them. -/
def mapAttributesAmong (f : List Attribute → List Attribute) : List Node → List Node
  | [] => []
  | n :: rest => mapAttributes f n :: mapAttributesAmong f rest
end

mutual
/-- A measure summed over a node and all nodes below it. -/
def total (measure : Node → Nat) : Node → Nat
  | .element name declared attributes children =>
    measure (.element name declared attributes children) + totalAmong measure children
  | n => measure n

/-- A measure summed over nodes and all nodes below them. -/
def totalAmong (measure : Node → Nat) : List Node → Nat
  | [] => 0
  | n :: rest => total measure n + totalAmong measure rest
end

/-! ## §3. Active content. -/

/-- Names of elements that run code or hold foreign content. -/
def blockedNames : List String := ["script", "foreignObject"]

/-- Whether an element is blocked. -/
def isBlocked (n : Name) : Bool := blockedNames.contains n.base

/-- The name of attributes that hold a link. -/
def linkName : String := "href"

/-- The beginning of links that run code. -/
def codeScheme : List Char := "javascript:".toList

/-- Whether an attribute handles an event. -/
def isHandler (a : Attribute) : Bool := startsWith ['o', 'n'] (lower a.name.base.toList)

/-- Whether an attribute is a link that runs code. -/
def isCodeLink (d : Document) (a : Attribute) : Bool :=
  -- white space is taken from the ends of the value only, and the name keeps its case
  a.name.base == linkName && startsWith codeScheme (lower (trim (d.value a)))

/-- Whether an attribute is active. -/
def isActive (d : Document) (a : Attribute) : Bool := isHandler a || isCodeLink d a

/-- A document without its active content. -/
def strip (d : Document) : Document :=
  let inert (given : List Attribute) : List Attribute := given.filter fun a => !isActive d a
  { d with root := mapAttributes inert (dropBelow isBlocked d.root) }

/-- How many elements and attributes `strip` removes; an element inside a removed one counts if it
is blocked itself. -/
def activeCount (d : Document) : Nat :=
  total (fun n => if (n.name?.map isBlocked).getD false then 1 else 0) d.root
    + total (fun n => (n.attributes.filter (isActive d)).length) (dropBelow isBlocked d.root)

/-- An SVG without its active content, as text. -/
def sanitize (text : String) : Except Fault String := do
  let d ← parse true text
  .ok (print (strip d).root)

end ControlSurface.Svg
