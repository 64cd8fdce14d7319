/-
  ControlSurface.Xml.Item
  ───────────────────────
  The content of a document as a flat sequence of items: tags, character data, references, comments
  and processing instructions.  `nextItem?` reads the item that the text begins with.
-/
import ControlSurface.Text.LowerCase
import ControlSurface.Text.Search
import ControlSurface.Xml.Character
import ControlSurface.Xml.Tree

namespace ControlSurface.Xml

open ControlSurface.Text

/-! ## §1. Items. -/

/-- An attribute of a tag as written. -/
structure TagAttribute where
  name : QName
  value : List Piece
  deriving Repr, DecidableEq, Inhabited

/-- An item of content. -/
inductive Item where
  /-- Character data as written. -/
  | text (s : List Char)
  /-- Character data that stands for itself. -/
  | literal (s : List Char)
  /-- A character that was referred to. -/
  | char (c : Char)
  | reference (name : String)
  | comment (s : String)
  | instruction (target data : String)
  | start (name : QName) (attributes : List TagAttribute) (closed : Bool)
  | finish (name : QName)
  deriving Repr, DecidableEq, Inhabited

/-! ## §2. Names and values. -/

/-- A name with optional label, and what follows it.  What follows is never another colon. -/
def qname? (cs : List Char) : Option (QName × List Char) := do
  let (first, rest) ← name? cs
  match rest with
  | ':' :: more =>
    let (second, rest) ← name? more
    -- a name has one label at most
    if rest.head? = some ':' then none
    else some (⟨some (String.ofList first), String.ofList second⟩, rest)
  | _ => some (⟨none, String.ofList first⟩, rest)

/-- Adds a character to the parts of a value, the last part first. -/
def addChar (c : Char) : List (List Char ⊕ String) → List (List Char ⊕ String)
  | .inl cs :: rest => .inl (c :: cs) :: rest
  | parts => .inl [c] :: parts

/-- The finished parts of a value, from parts with the last one first. -/
def pieces (parts : List (List Char ⊕ String)) : List Piece :=
  parts.reverse.map fun
    | .inl cs => .text (String.ofList cs.reverse)
    | .inr name => .reference name

/-- The parts of an attribute value.  A blank character is a space; every reference takes at least
one character, which bounds the recursion. -/
def valuePieces (parts : List (List Char ⊕ String)) (cs : List Char) : Option (List Piece) :=
  match cs with
  | [] => some (pieces parts)
  | c :: rest =>
    if c = '<' then none
    else if c = '&' then
      match reference? rest with
      | some (r, rest') =>
        if rest'.length ≤ rest.length then
          match r with
          | .char d => valuePieces (addChar d parts) rest'
          | .entity name => valuePieces (.inr name :: parts) rest'
        else none
      | none => none
    else if isSpace c then valuePieces (addChar ' ' parts) rest
    else if isChar c then valuePieces (addChar c parts) rest
    else none
termination_by cs.length

/-- A value in quotes of either kind, and what follows it. -/
def quotedText? (cs : List Char) : Option (List Char × List Char) :=
  match cs with
  | q :: rest =>
    if q = '"' ∨ q = '\'' then
      match rest.dropWhile (· ≠ q) with
      | _ :: after => some (rest.takeWhile (· ≠ q), after)
      | [] => none
    else none
  | [] => none

/-! ## §3. Tags. -/

/-- The attributes of a tag up to its end: the attributes, whether the tag closes its element, and
what follows it.  Attributes are set apart by blanks. -/
def tagRest (passed : List TagAttribute) (cs : List Char) :
    Option (List TagAttribute × Bool × List Char) :=
  match skipSpace cs with
  | '>' :: rest => some (passed.reverse, false, rest)
  | '/' :: '>' :: rest => some (passed.reverse, true, rest)
  | found =>
    -- an attribute that touches what comes before it is a fault
    if found.length = cs.length then none
    else
      match qname? found with
      | none => none
      | some (name, rest) =>
        match skipSpace rest with
        | '=' :: rest =>
          match quotedText? (skipSpace rest) with
          | none => none
          | some (raw, rest) =>
            match valuePieces [] raw with
            | none => none
            | some value =>
              if rest.length < cs.length then tagRest (⟨name, value⟩ :: passed) rest else none
        | _ => none
termination_by cs.length

/-- A tag that begins an element. -/
def startTag? (cs : List Char) : Option (Item × List Char) := do
  let (name, rest) ← qname? cs
  let (attributes, closed, rest) ← tagRest [] rest
  some (.start name attributes closed, rest)

/-- A tag that ends an element. -/
def endTag? (cs : List Char) : Option (Item × List Char) := do
  let (name, rest) ← qname? cs
  match skipSpace rest with
  | '>' :: rest => some (.finish name, rest)
  | _ => none

/-! ## §4. Comments and instructions. -/

/-- A comment after its opening; it holds no two hyphens in a row. -/
def comment? (cs : List Char) : Option (String × List Char) := do
  let (body, rest) ← cutAt? ['-', '-'] cs
  match rest with
  -- two hyphens are the end of a comment or a fault
  | '>' :: rest => if body.all isChar then some (String.ofList body, rest) else none
  | _ => none

/-- A processing instruction after its opening.  Its target must not be the word of the
declaration, in any case. -/
def instruction? (cs : List Char) : Option (String × String × List Char) := do
  let (target, rest) ← name? cs
  let (body, after) ← cutAt? ['?', '>'] rest
  -- inside the document, `<?xml` opens nothing
  if target.map asciiLower = reservedLabel.toList then none
  else if !body.all isChar then none
  else match body with
    | [] => some (String.ofList target, "", after)
    | c :: _ =>
      if isSpace c then some (String.ofList target, String.ofList (skipSpace body), after)
      else none

/-- A literal section after its opening. -/
def literal? (cs : List Char) : Option (List Char × List Char) := do
  let (body, rest) ← cutAt? [']', ']', '>'] cs
  if body.all isChar then some (body, rest) else none

/-! ## §5. Content. -/

/-- Whether character data may stand in content: it does not end a literal section. -/
def isPlainText (cs : List Char) : Bool := cs.all isChar && !occursIn [']', ']', '>'] cs

/-- The item that a text begins with, and what follows it. -/
def nextItem? (cs : List Char) : Option (Item × List Char) :=
  match cs with
  | '<' :: '/' :: rest => endTag? rest
  | '<' :: '!' :: '-' :: '-' :: rest =>
    (comment? rest).map fun (s, rest) => (.comment s, rest)
  | '<' :: '!' :: '[' :: 'C' :: 'D' :: 'A' :: 'T' :: 'A' :: '[' :: rest =>
    (literal? rest).map fun (s, rest) => (.literal s, rest)
  | '<' :: '?' :: rest =>
    (instruction? rest).map fun (target, data, rest) => (.instruction target data, rest)
  | '<' :: rest => startTag? rest
  | '&' :: rest => (reference? rest).map fun
    | (.char c, rest) => (.char c, rest)
    | (.entity name, rest) => (.reference name, rest)
  | _ =>
    let isRun (c : Char) : Bool := c ≠ '<' && c ≠ '&'
    let run := cs.takeWhile isRun
    if isPlainText run then some (.text run, cs.dropWhile isRun) else none

/-- All items of a text, the ones already read in reverse.  Every item takes at least one
character, which bounds the recursion. -/
def itemsFrom (passed : List Item) (cs : List Char) : Option (List Item) :=
  if cs.isEmpty then some passed.reverse
  else match nextItem? cs with
    | none => none
    | some (item, rest) =>
      if rest.length < cs.length then itemsFrom (item :: passed) rest else none
termination_by cs.length

/-- All items of a text. -/
def items? (cs : List Char) : Option (List Item) := itemsFrom [] cs

end ControlSurface.Xml
