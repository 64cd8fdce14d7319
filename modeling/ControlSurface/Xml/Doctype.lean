/-
  ControlSurface.Xml.Doctype
  ──────────────────────────
  The document type declaration: which entities it declares and which attributes it gives by
  default.  Element types and notations are only checked for their form.
-/
import ControlSurface.Text.Character
import ControlSurface.Xml.Item

namespace ControlSurface.Xml

open ControlSurface.Text

/-! ## §1. What a declaration holds. -/

/-- A default for an attribute of an element, and whether blanks in its values collapse. -/
structure AttributeRule where
  owner : QName
  name : QName
  collapses : Bool
  fallback : Option (List Piece)
  deriving Repr, DecidableEq, Inhabited

/-- The contents of a document type declaration. -/
structure Doctype where
  entities : List (String × Entity)
  parameters : List (String × List Char)
  rules : List AttributeRule
  /-- Declarations may stand elsewhere, in an external part or behind a parameter. -/
  isOpen : Bool
  deriving Inhabited

/-- No declarations. -/
def Doctype.empty : Doctype := { entities := [], parameters := [], rules := [], isOpen := false }

/-! ## §2. Small parts. -/

/-- What follows a word. -/
def word? (word : String) (cs : List Char) : Option (List Char) := after? word.toList cs

/-- What follows at least one blank. -/
def space? (cs : List Char) : Option (List Char) :=
  match cs with
  | c :: _ => if isSpace c then some (skipSpace cs) else none
  | [] => none

/-- What follows the end of a declaration. -/
def close? (cs : List Char) : Option (List Char) := word? ">" (skipSpace cs)

/-- A character of a public identifier. -/
def isPublicChar (c : Char) : Bool :=
  c == ' ' || c == '\n' || c == '\r' || isLetter c || isAsciiDigit c
    || "-'()+,./:=?;!*#@$_%".toList.contains c

/-- A place outside the document, and what follows it.  `lone` allows a public identifier alone. -/
def externalId? (lone : Bool) (cs : List Char) : Option (List Char) :=
  match word? "SYSTEM" cs with
  | some rest => do
    let (place, rest) ← quotedText? (← space? rest)
    if place.all isChar then some rest else none
  | none => do
    let rest ← word? "PUBLIC" cs
    let (known, rest) ← quotedText? (← space? rest)
    if !known.all isPublicChar then none
    else
      match (space? rest).bind quotedText? with
      | some (place, rest) => if place.all isChar then some rest else none
      | none => if lone then some rest else none

/-- The replacement text of an entity: characters that were referred to by number are put in,
references to entities stay. -/
def replacement (passed : List Char) (cs : List Char) : Option (List Char) :=
  match cs with
  | [] => some passed.reverse
  | c :: rest =>
    if c = '%' then none
    else if c = '&' then
      match reference? rest with
      | none => none
      | some (r, rest') =>
        if rest'.length ≤ rest.length then
          -- what has a name, such as `&lt;`, stays a reference, so that it is read with the entity
          let asWritten := (c :: rest.take (rest.length - rest'.length)).reverse
          let put := match r with
            | .char d => if rest.head? = some '#' then [d] else asWritten
            | .entity _ => asWritten
          replacement (put ++ passed) rest'
        else none
    else if isChar c then replacement (c :: passed) rest
    else none
termination_by cs.length

/-! ## §3. Declarations. -/

/-- Adds an entity unless it is there already. -/
def addEntity (name : String) (e : Entity) (d : Doctype) : Doctype :=
  -- the first declaration is the one that counts
  if (entity? d.entities name).isSome then d else { d with entities := d.entities ++ [(name, e)] }

/-- The declaration of an entity, after its keyword. -/
def entityDeclaration? (d : Doctype) (cs : List Char) : Option (Doctype × List Char) := do
  let rest ← space? cs
  match rest with
  | '%' :: more =>
    let (name, rest) ← name? (← space? more)
    let rest ← space? rest
    match quotedText? rest with
    | some (raw, rest) =>
      let text ← replacement [] raw
      let rest ← close? rest
      some ({ d with parameters := d.parameters ++ [(String.ofList name, text)] }, rest)
    | none => some (d, ← close? (← externalId? false rest))
  | _ =>
    let (name, rest) ← name? rest
    let name := String.ofList name
    let rest ← space? rest
    match quotedText? rest with
    | some (raw, rest) =>
      let text ← replacement [] raw
      some (addEntity name (.internal text) d, ← close? rest)
    | none =>
      let rest ← externalId? false rest
      match (space? rest).bind (word? "NDATA") with
      | some rest =>
        let (_, rest) ← name? (← space? rest)
        some (addEntity name .unparsed d, ← close? rest)
      | none => some (addEntity name .external d, ← close? rest)

/-- A list of names or tokens between brackets, set apart by bars. -/
def alternatives? (token : Bool) (cs : List Char) : Option (List Char) :=
  match cutAt? [')'] cs with
  | none => none
  | some (body, rest) =>
    let ok (cs : List Char) : Bool :=
      let t := trimBy isSpace cs
      if token then !t.isEmpty && t.all isNameChar else isName t
    if (splitAt ['|'] body).all ok then some rest else none

/-- The type of an attribute: whether blanks in its values collapse, and what follows it. -/
def attributeType? (cs : List Char) : Option (Bool × List Char) :=
  let words := ["CDATA", "IDREFS", "IDREF", "ID", "ENTITIES", "ENTITY", "NMTOKENS", "NMTOKEN"]
  match words.findSome? fun w => (word? w cs).map fun rest => (w != "CDATA", rest) with
  | some found => some found
  | none =>
    match word? "NOTATION" cs with
    | some rest => do
      let rest ← word? "(" (← space? rest)
      some (true, ← alternatives? false rest)
    | none => do
      let rest ← word? "(" cs
      some (true, ← alternatives? true rest)

/-- A default that is written out, and what follows it. -/
def quotedDefault? (cs : List Char) : Option (Option (List Piece) × List Char) := do
  let (raw, rest) ← quotedText? cs
  some (some (← valuePieces [] raw), rest)

/-- The default of an attribute, and what follows it. -/
def attributeDefault? (cs : List Char) : Option (Option (List Piece) × List Char) :=
  match word? "#REQUIRED" cs with
  | some rest => some (none, rest)
  | none =>
    match word? "#IMPLIED" cs with
    | some rest => some (none, rest)
    | none =>
      match word? "#FIXED" cs with
      | some rest => (space? rest).bind quotedDefault?
      | none => quotedDefault? cs

/-- One attribute of an element type, and what follows it. -/
def attributeRule? (element : QName) (cs : List Char) : Option (AttributeRule × List Char) := do
  let (name, rest) ← qname? cs
  let (collapses, rest) ← attributeType? (← space? rest)
  let (fallback, rest) ← attributeDefault? (← space? rest)
  some (⟨element, name, collapses, fallback⟩, rest)

/-- The attributes of an element type up to the end of their declaration. -/
def attributeRules? (element : QName) (rules : List AttributeRule) (cs : List Char) :
    Option (List AttributeRule × List Char) :=
  match skipSpace cs with
  | '>' :: rest => some (rules, rest)
  | found =>
    if found.length = cs.length then none
    else
      match attributeRule? element found with
      | none => none
      | some (rule, rest) =>
        if rest.length < cs.length then attributeRules? element (rules ++ [rule]) rest else none
termination_by cs.length

/-- Whether text has the form of a content model: names and groups set apart by commas or bars. -/
def isContentModel (depth : Nat) (expectName : Bool) : List Char → Bool
  | [] => depth = 0 && !expectName
  | c :: cs =>
    if isSpace c then isContentModel depth expectName cs
    else if expectName then
      if c = '(' then isContentModel (depth + 1) true cs
      else if isNameStart c || c = '#' then isContentModel depth false cs
      else false
    else if c = ')' then depth ≠ 0 && isContentModel (depth - 1) false cs
    else if c = ',' ∨ c = '|' then depth ≠ 0 && isContentModel depth true cs
    else if isNameChar c || c = ':' || c = '?' || c = '*' || c = '+' then
      isContentModel depth false cs
    else false

/-- What follows the declaration of an element type, after its keyword. -/
def elementDeclaration? (cs : List Char) : Option (List Char) := do
  let (_, rest) ← qname? (← space? cs)
  let (model, rest) ← cutAt? ['>'] (← space? rest)
  let model := trimBy isSpace model
  if model = "EMPTY".toList ∨ model = "ANY".toList then some rest
  else if model.head? = some '(' && isContentModel 0 true model then some rest
  else none

/-- What follows the declaration of a notation, after its keyword. -/
def notationDeclaration? (cs : List Char) : Option (List Char) := do
  let (_, rest) ← name? (← space? cs)
  close? (← externalId? true (← space? rest))

/-- Reads one declaration, comment or instruction. -/
def declaration? (d : Doctype) (cs : List Char) : Option (Doctype × List Char) :=
  match word? "<!ENTITY" cs with
  | some rest => entityDeclaration? d rest
  | none =>
  match word? "<!ATTLIST" cs with
  | some rest => do
    let (element, rest) ← qname? (← space? rest)
    let (rules, rest) ← attributeRules? element d.rules rest
    some ({ d with rules := rules }, rest)
  | none =>
  match word? "<!ELEMENT" cs with
  | some rest => (elementDeclaration? rest).map fun rest => (d, rest)
  | none =>
  match word? "<!NOTATION" cs with
  | some rest => (notationDeclaration? rest).map fun rest => (d, rest)
  | none =>
  match word? "<!--" cs with
  | some rest => (comment? rest).map fun (_, rest) => (d, rest)
  | none =>
  match word? "<?" cs with
  | some rest => (instruction? rest).map fun (_, _, rest) => (d, rest)
  | none => none

/-! ## §4. The document type. -/

/-- Reads declarations up to the end of the text or to a closing bracket, and what follows.  The
text of a parameter is read in its place, to a bounded depth of such texts. -/
def declarations? (depth : Nat) (d : Doctype) (cs : List Char) : Option (Doctype × List Char) :=
  match cs with
  | [] => some (d, [])
  | c :: rest =>
    if isSpace c then declarations? depth d rest
    else if c = ']' then some (d, c :: rest)
    else if c = '%' then
      match name? rest with
      | some (name, ';' :: rest') =>
        -- what stands behind a parameter may not be known, so unknown entities are no faults now
        let opened := { d with isOpen := true }
        let entered := match depth, (d.parameters.find? fun p => p.1 == String.ofList name) with
          | deeper + 1, some (_, text) =>
            (declarations? deeper opened text).bind fun (d, left) =>
              if left.isEmpty then some d else none
          | _, _ => some opened
        match entered with
        | some d =>
          if rest'.length ≤ rest.length then declarations? depth d rest' else none
        | none => none
      | _ => none
    else
      match declaration? d (c :: rest) with
      | some (d, rest') =>
        if rest'.length ≤ rest.length then declarations? depth d rest' else none
      | none => none
termination_by (depth, cs.length)

/-- How deep the texts of parameters may lie in each other. -/
def maxParameterDepth : Nat := 20

/-- Reads a document type declaration after its keyword, and what follows it. -/
def doctype? (cs : List Char) : Option (Doctype × List Char) := do
  let (_, rest) ← qname? (← space? cs)
  let (outside, rest) := match (space? rest).bind (externalId? false) with
    | some rest => (true, rest)
    | none => (false, rest)
  let d := { Doctype.empty with isOpen := outside }
  match skipSpace rest with
  | '[' :: rest =>
    let (d, rest) ← declarations? maxParameterDepth d rest
    match rest with
    | ']' :: rest => some (d, ← close? rest)
    | _ => none
  | rest => some (d, ← close? rest)

end ControlSurface.Xml
