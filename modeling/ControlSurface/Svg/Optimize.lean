/-
  ControlSurface.Svg.Optimize
  ───────────────────────────
  Making an SVG smaller without changing what it shows.  What goes is the bookkeeping of editors,
  comments and instructions, white space that is not content, empty groups, needless decimals and
  namespace declarations that nothing uses.  Where the numbers inside an attribute value are rounded,
  everything between them stays; a space is put in where a number would otherwise run into the one
  before it.
-/
import ControlSurface.Number.Plain
import ControlSurface.Svg.Sanitize

namespace ControlSurface.Svg

open ControlSurface.Text ControlSurface.Xml

/-! ## §1. Numbers in text. -/

/-- Digits at the start of a text. -/
def digitsOf (cs : List Char) : List Char := cs.takeWhile isDecimalDigit

/-- The text of an exponent at the start of a text, or nothing. -/
def exponentOf (cs : List Char) : List Char :=
  match cs with
  | e :: rest =>
    if e = 'e' ∨ e = 'E' then
      match rest with
      | s :: more =>
        if s = '-' ∨ s = '+' then
          (match digitsOf more with
           | [] => []
           | ds => e :: s :: ds)
        else match digitsOf rest with
          | [] => []
          | ds => e :: ds
      | [] => []
    else []
  | [] => []

/-- The text of an unsigned number at the start of a text without its exponent, or nothing: digits
with an optional point after or among them, or a point and digits. -/
def mantissaOf (cs : List Char) : List Char :=
  match digitsOf cs with
  | [] =>
    (match cs with
     | '.' :: rest =>
       (match digitsOf rest with
        | [] => []
        | ds => '.' :: ds)
     | _ => [])
  | ds =>
    match cs.drop ds.length with
    | '.' :: rest => ds ++ '.' :: digitsOf rest
    | _ => ds

/-- The text of the number at the start of a text, or nothing. -/
def numberOf (cs : List Char) : List Char :=
  let signed := match cs with
    | c :: _ => if c = '-' ∨ c = '+' then [c] else []
    | [] => []
  let rest := cs.drop signed.length
  match mantissaOf rest with
  | [] => []
  | m => signed ++ m ++ exponentOf (rest.drop m.length)

/-! ## §2. Rounding. -/

/-- A number rounded to some decimals. -/
def rounded (places : Nat) (number : List Char) : List Char :=
  match Number.readFloat? number with
  | some x => (Number.plainFloat places x).toList
  | none => number

/-- Whether a number that follows a character must be set apart from it. -/
def runsInto (before : Option Char) (number : List Char) : Bool :=
  match before, number with
  | some b, c :: _ => (isAsciiDigit b || b == '.') && isDecimalDigit c
  | _, _ => false

/-- Rounds every number of a text.  `skip` characters of a number are still to be passed over, and
`before` is the character before the current place. -/
def roundFrom (places : Nat) (skip : Nat) (before : Option Char) : List Char → List Char
  | [] => []
  | c :: cs =>
    match skip with
    | n + 1 => roundFrom places n (some c) cs
    | 0 =>
      match numberOf (c :: cs) with
      | [] => c :: roundFrom places 0 (some c) cs
      | number =>
        let r := rounded places number
        (if runsInto before r then ' ' :: r else r)
          ++ roundFrom places (number.length - 1) (some c) cs

/-- Rounds every number of a text to some decimals. -/
def roundNumbers (places : Nat) (value : List Char) : List Char := roundFrom places 0 none value

/-- Rounds every number of a text to the decimals that a value asks for.  A number has a digit, and
every digit is part of a number, so without one nothing is asked of the value. -/
def roundNumbersTo (places : Value) (value : List Char) : Except Fault (List Char) := do
  if value.any isDecimalDigit then return roundNumbers (← places.places) value
  return value

/-! ## §3. Editors. -/

/-- Namespaces in which editors keep their own data. -/
def editorSpaces : List String :=
  ["http://www.inkscape.org/namespaces/inkscape",
   "http://sodipodi.sourceforge.net/DTD/sodipodi-0.dtd",
   "http://www.bohemiancoding.com/sketch/ns",
   "http://ns.adobe.com/AdobeIllustrator/10.0/",
   "http://ns.adobe.com/AdobeSVGViewerExtensions/3.0/",
   "http://ns.adobe.com/Extensibility/1.0/",
   "http://ns.adobe.com/Flows/1.0/",
   "http://ns.adobe.com/GenericCustomNamespace/1.0/",
   "http://ns.adobe.com/Graphs/1.0/",
   "http://ns.adobe.com/ImageReplacement/1.0/",
   "http://ns.adobe.com/SaveForWeb/1.0/",
   "http://ns.adobe.com/Variables/1.0/",
   "http://ns.adobe.com/XPath/1.0/"]

/-- Whether a name belongs to an editor. -/
def isEditorName (n : Name) : Bool := (n.space.map editorSpaces.contains).getD false

/-- A tree without the data of editors. -/
def dropEditorData (root : Node) : Node :=
  mapAttributes (fun given => given.filter fun a => !isEditorName a.name)
    (dropBelow isEditorName root)

/-! ## §4. White space. -/

/-- Elements inside which white space is content. -/
def textNames : List String :=
  ["text", "tspan", "textPath", "title", "desc", "style", "metadata"]

/-- Whether white space directly inside an element is content. -/
def holdsText (n : Name) : Bool := textNames.contains n.base

/-- Whether a node is blank text. -/
def isBlankText : Node → Bool
  | .text s => isBlankString s
  | _ => false

mutual
/-- A tree without white space that is not content. -/
def collapseSpace : Node → Node
  | .element name declared attributes children =>
    .element name declared attributes (collapseAmong (holdsText name) true children)
  | n => n

/-- Nodes without white space that is not content; `inText` tells that they lie in an element where
it is.  White space is dropped only at the start (`droppable`) and after elements. -/
def collapseAmong (inText droppable : Bool) : List Node → List Node
  | [] => []
  | .text s :: rest =>
    if droppable && !inText && isBlankString s then collapseAmong inText false rest
    else .text s :: collapseAmong inText false rest
  | n :: rest => collapseSpace n :: collapseAmong inText n.name?.isSome rest
end

/-! ## §5. Empty groups. -/

/-- Elements that may go when they are empty. -/
def groupNames : List String := ["g", "defs"]

/-- Whether an element has an identity. -/
def hasId (attributes : List Attribute) : Bool :=
  attributes.any fun a => a.name.base == "id" && a.name.space == none

/-- Whether a node is an empty group without identity. -/
def isEmptyGroup : Node → Bool
  | .element name _ attributes children =>
    groupNames.contains name.base && !hasId attributes && children.all isBlankText
  | _ => false

mutual
/-- A tree without empty groups: from the leaves up, so that a group of empty groups goes too. -/
def pruneBelow : Node → Node
  | .element name declared attributes children =>
    .element name declared attributes (pruneAmong false children)
  | n => n

/-- Nodes without empty groups, each going with the text after it; `after` tells that the node
before was dropped. -/
def pruneAmong (after : Bool) : List Node → List Node
  | [] => []
  | .text s :: rest => if after then pruneAmong false rest else .text s :: pruneAmong false rest
  | n :: rest =>
    let pruned := pruneBelow n
    -- what is in a group has been pruned before the group is looked at
    if isEmptyGroup pruned then pruneAmong true rest else pruned :: pruneAmong false rest
end

/-! ## §6. Numbers. -/

/-- Attributes that hold transformations. -/
def transformNames : List String := ["transform", "gradientTransform", "patternTransform"]

/-- Attributes that hold coordinates. -/
def coordinateNames : List String := ["d", "points"]

/-- The decimals that are kept in an attribute of some name, if it holds numbers to round. -/
def decimals? (n : Name) : Option Nat :=
  if transformNames.contains n.base then some 7
  else if coordinateNames.contains n.base then some 3
  else none

/-- An attribute with its numbers rounded. -/
def roundAttribute (d : Document) (a : Attribute) : Attribute :=
  match decimals? a.name with
  | some places => { a with value := [.text (String.ofList (roundNumbers places (d.value a)))] }
  | none => a

/-! ## §7. Namespaces. -/

/-- The labels of an element and its attributes that stand for a namespace. -/
def ownLabels (name : Name) (attributes : List Attribute) : List (Option String) :=
  ((name :: attributes.map Attribute.name).filter fun n => n.space.isSome).map
    fun n => n.written.label

mutual
/-- The labels below and at a node that refer to declarations further up. -/
def usedLabels : Node → List (Option String)
  | .element name declared attributes children =>
    (ownLabels name attributes ++ usedLabelsAmong children).filter
      fun l => !declared.any fun d => d.label == l
  | _ => []

/-- The labels below and at nodes that refer to declarations further up. -/
def usedLabelsAmong : List Node → List (Option String)
  | [] => []
  | n :: rest => usedLabels n ++ usedLabelsAmong rest
end

mutual
/-- A tree without declarations that nothing uses. -/
def dropUnused : Node → Node
  | .element name declared attributes children =>
    let used := ownLabels name attributes ++ usedLabelsAmong children
    -- a declaration further in hides this one from what lies there
    .element name (declared.filter fun d => d.space ≠ "" && used.contains d.label) attributes
      (dropUnusedAmong children)
  | n => n

/-- Nodes without declarations that nothing uses. -/
def dropUnusedAmong : List Node → List Node
  | [] => []
  | n :: rest => dropUnused n :: dropUnusedAmong rest
end

/-! ## §8. Results. -/

/-- The size of a string in bytes. -/
def byteSize (s : String) : Nat := s.utf8ByteSize

/-- The share of bytes saved, in percent; nothing is saved of nothing. -/
def savedPercent (given optimized : Nat) : Float :=
  if given = 0 then 0.0
  else
    let saved : Int := (given : Int) - optimized
    let share := (Number.ofRatio? (saved < 0) saved.natAbs given).getD 0.0
    (if saved = 0 then 0.0 else share) * 100

/-- What optimizing an SVG gave. -/
structure Optimized where
  svg : String
  givenBytes : Nat
  optimizedBytes : Nat
  percent : Float
  deriving Inhabited

/-- What optimizing several SVGs gave. -/
structure Batch where
  svgs : List String
  givenBytes : Nat
  optimizedBytes : Nat
  percent : Float
  deriving Inhabited

/-- The result for an SVG of some bytes. -/
def Optimized.ofSizes (svg : String) (given optimized : Nat) : Optimized :=
  ⟨svg, given, optimized, savedPercent given optimized⟩

/-- An optimized tree. -/
def optimizeTree (d : Document) : Node :=
  let pruned := pruneBelow (collapseSpace (dropEditorData d.root))
  dropUnused (mapAttributes (fun given => given.map (roundAttribute d)) pruned)

/-- Optimizes an SVG. -/
def optimize (text : String) : Except Fault Optimized := do
  let d ← parse false text
  let svg := print (optimizeTree d)
  .ok (.ofSizes svg (byteSize text) (byteSize svg))

/-- Several results as one, the share saved being that of all bytes together. -/
def combine (results : List Optimized) : Batch :=
  let given := results.foldl (fun total r => total + r.givenBytes) 0
  let optimized := results.foldl (fun total r => total + r.optimizedBytes) 0
  ⟨results.map Optimized.svg, given, optimized, savedPercent given optimized⟩

/-- Optimizes several SVGs. -/
def optimizeAll (texts : List String) : Except Fault Batch := do
  .ok (combine (← texts.mapM optimize))

end ControlSurface.Svg
