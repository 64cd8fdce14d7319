/-
  ControlSurface.Xml.Tree
  ───────────────────────
  XML documents as trees, and trees as text.  Names keep the label they were written with and the
  namespace that it stands for; attribute values and content keep references to entities of the
  document; character data between two other nodes is one text node.  In the text of a tree an
  element without children is closed in its tag, declarations stand before attributes, and what
  would be read back differently is written as a reference.
-/

namespace ControlSurface.Xml

/-! ## §1. Names. -/

/-- A name as written: an optional namespace label and the name proper. -/
structure QName where
  label : Option String
  base : String
  deriving Repr, DecidableEq, Inhabited

/-- The text of a name. -/
def QName.text (q : QName) : String :=
  match q.label with
  | some l => l ++ ":" ++ q.base
  | none => q.base

/-- A name with the namespace that its label stands for. -/
structure Name where
  written : QName
  space : Option String
  deriving Repr, DecidableEq, Inhabited

/-- The name proper. -/
def Name.base (n : Name) : String := n.written.base

/-- The label of the names that the format itself defines. -/
def reservedLabel : String := "xml"

/-- The namespace of the names that the format itself defines. -/
def reservedSpace : String := "http://www.w3.org/XML/1998/namespace"

/-- The label of namespace declarations. -/
def declarationLabel : String := "xmlns"

/-- The namespace of namespace declarations. -/
def declarationSpace : String := "http://www.w3.org/2000/xmlns/"

/-! ## §2. Nodes. -/

/-- A part of an attribute value: characters, or a reference to an entity. -/
inductive Piece where
  | text (s : String)
  | reference (name : String)
  deriving Repr, DecidableEq, Inhabited

/-- An attribute. -/
structure Attribute where
  name : Name
  value : List Piece
  deriving Repr, DecidableEq, Inhabited

/-- A namespace declaration; without label it names the default namespace. -/
structure Declaration where
  label : Option String
  space : String
  deriving Repr, DecidableEq, Inhabited

/-- A node of a document. -/
inductive Node where
  | element (name : Name) (declared : List Declaration) (attributes : List Attribute)
      (children : List Node)
  | text (s : String)
  | comment (s : String)
  | instruction (target data : String)
  | reference (name : String)
  deriving Inhabited

namespace Node

/-- The name of an element. -/
def name? : Node → Option Name
  | element name _ _ _ => some name
  | _ => none

/-- Whether a node is character data. -/
def isText : Node → Bool
  | text _ => true
  | _ => false

/-- The nodes inside a node. -/
def children : Node → List Node
  | element _ _ _ children => children
  | _ => []

/-- The attributes of a node. -/
def attributes : Node → List Attribute
  | element _ _ attributes _ => attributes
  | _ => []

end Node

/-! ## §3. Documents. -/

/-- What a document declares an entity to be. -/
inductive Entity where
  /-- Text of the document itself. -/
  | internal (text : List Char)
  /-- Text that stands elsewhere. -/
  | external
  /-- Something that is not text. -/
  | unparsed
  deriving Repr, DecidableEq, Inhabited

/-- A document: the entities that it declares, and its root element. -/
structure Document where
  entities : List (String × Entity)
  root : Node
  deriving Inhabited

/-- What a document declares an entity to be. -/
def entity? (entities : List (String × Entity)) (name : String) : Option Entity :=
  (entities.find? fun e => e.1 == name).map (·.2)

/-! ## §4. The text of characters. -/

/-- A character of text. -/
def textChar (c : Char) : List Char :=
  if c = '&' then "&amp;".toList
  else if c = '<' then "&lt;".toList
  else if c = '>' then "&gt;".toList
  else if c = '\r' then "&#13;".toList
  else [c]

/-- A character of an attribute value. -/
def valueChar (c : Char) : List Char :=
  if c = '"' then "&quot;".toList
  else if c = '\n' then "&#10;".toList
  else if c = '\t' then "&#9;".toList
  else textChar c

/-- A reference to an entity. -/
def referenceText (name : String) : List Char := '&' :: (name.toList ++ [';'])

/-! ## §5. The text of tags. -/

/-- A part of an attribute value. -/
def pieceText : Piece → List Char
  | .text s => s.toList.flatMap valueChar
  | .reference name => referenceText name

/-- A name with its value in quotes, after a space. -/
def assignment (name : String) (value : List Char) : List Char :=
  ' ' :: (name.toList ++ '=' :: '"' :: (value ++ ['"']))

/-- A namespace declaration. -/
def declarationText (d : Declaration) : List Char :=
  assignment (QName.text (match d.label with
    | some l => ⟨some declarationLabel, l⟩
    | none => ⟨none, declarationLabel⟩)) (d.space.toList.flatMap valueChar)

/-- An attribute. -/
def attributeText (a : Attribute) : List Char :=
  assignment a.name.written.text (a.value.flatMap pieceText)

/-- What stands in a tag after the name. -/
def tagBody (declared : List Declaration) (attributes : List Attribute) : List Char :=
  declared.flatMap declarationText ++ attributes.flatMap attributeText

/-! ## §6. The text of nodes. -/

mutual
/-- The text of a node. -/
def nodeText : Node → List Char
  | .element name declared attributes children =>
    let tag := name.written.text.toList
    '<' :: (tag ++ tagBody declared attributes ++
      (if children.isEmpty then ['/', '>']
       else '>' :: (nodesText children ++ '<' :: '/' :: (tag ++ ['>']))))
  | .text s => s.toList.flatMap textChar
  | .comment s => "<!--".toList ++ s.toList ++ "-->".toList
  | .instruction target data =>
    "<?".toList ++ target.toList ++ (if data = "" then [] else ' ' :: data.toList) ++ "?>".toList
  | .reference name => referenceText name

/-- The texts of nodes, one after the other. -/
def nodesText : List Node → List Char
  | [] => []
  | n :: rest => nodeText n ++ nodesText rest
end

/-- A node as text. -/
def print (n : Node) : String := String.ofList (nodeText n)

end ControlSurface.Xml
