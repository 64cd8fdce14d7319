/-
  ControlSurface.Xml.Reader
  ─────────────────────────
  From text to a tree.  A builder takes the items of a document one by one and keeps the elements
  that are still open on a stack.  Namespaces are resolved and checked; entities are not put in but
  stay references, though each one that is used must be declared and well formed.
-/
import ControlSurface.Fault
import ControlSurface.Xml.Doctype
import ControlSurface.Xml.Character

namespace ControlSurface.Xml

open ControlSurface.Text

/-! ## §1. Open elements. -/

/-- An element that is still open, with its finished children in reverse. -/
structure Frame where
  name : Name
  declared : List Declaration
  attributes : List Attribute
  children : List Node
  deriving Inhabited

/-- What a builder knows of its document. -/
structure Setting where
  doctype : Doctype
  /-- Nothing is declared elsewhere, so an unknown entity is a fault. -/
  standalone : Bool
  /-- Comments and instructions become nodes. -/
  keepsNotes : Bool
  deriving Inhabited

/-- The elements that are still open, the innermost first, and the finished root. -/
structure Builder where
  stack : List Frame
  root : Option Node
  deriving Inhabited

/-- Children with a node added, in reverse; text next to text is one node. -/
def addNode (n : Node) (children : List Node) : List Node :=
  match n, children with
  | .text s, .text t :: rest => .text (t ++ s) :: rest
  | n, children => n :: children

/-- Adds a node to the innermost open element. -/
def Builder.add (b : Builder) (n : Node) : Option Builder :=
  match b.stack with
  | f :: rest => some { b with stack := { f with children := addNode n f.children } :: rest }
  | [] => none

/-- Adds a finished element: to the innermost open one, or as the root if there is none yet. -/
def Builder.deliver (b : Builder) (n : Node) : Option Builder :=
  match b.stack, b.root with
  | [], none => some { b with root := some n }
  | [], some _ => none
  | _, _ => b.add n

/-- The element of a frame. -/
def Frame.node (f : Frame) : Node := .element f.name f.declared f.attributes f.children.reverse

/-! ## §2. Namespaces. -/

/-- The declarations in force, the nearest first. -/
def scope (stack : List Frame) : List Declaration :=
  stack.flatMap fun f => f.declared.reverse

/-- The namespace of a label: none for no label without default, a failure for an unknown label. -/
def resolve? (declared : List Declaration) (label : Option String) : Option (Option String) :=
  if label = some reservedLabel then some (some reservedSpace)
  else
    match declared.find? fun d => d.label == label, label with
    -- an empty default takes the one further out away
    | some d, _ => if d.space = "" then some none else some (some d.space)
    | none, none => some none
    | none, some _ => none

/-- The value of an attribute without references to entities. -/
def plainValue? (value : List Piece) : Option String :=
  match value with
  | [] => some ""
  | [.text s] => some s
  | _ => none

/-- Whether a label may be declared for a namespace. -/
def mayDeclare (label : Option String) (space : String) : Bool :=
  match label with
  | none => space != declarationSpace && space != reservedSpace && (space == "" || isAddress space)
  | some l =>
    if l = reservedLabel then space == reservedSpace
    else l != declarationLabel && space != "" && space != reservedSpace
      && space != declarationSpace && isAddress space

/-- The declaration that an attribute is, if it is one; a failure if it may not be made. -/
def declaration (a : TagAttribute) : Option (Option Declaration) :=
  let label? : Option (Option String) :=
    if a.name.label = some declarationLabel then some (some a.name.base)
    else if a.name.label = none ∧ a.name.base = declarationLabel then some none
    else none
  match label? with
  | none => some none
  | some label =>
    match plainValue? a.value with
    | none => none
    | some space => if mayDeclare label space then some (some ⟨label, space⟩) else none

/-- Whether no two items of a list have the same key. -/
def distinctBy {α β : Type} [BEq β] (key : α → β) : List α → Bool
  | [] => true
  | x :: xs => !(xs.any fun y => key y == key x) && distinctBy key xs

/-- A value whose blanks collapse to single spaces inside it. -/
def collapse (value : List Piece) : List Piece :=
  match value with
  | [.text s] =>
    [.text (String.ofList (joinWith [' '] ((splitAt [' '] s.toList).filter fun w => !w.isEmpty)))]
  | _ => value

/-- An attribute as the rule for it has it: a value that collapses is collapsed. -/
def ruled (rules : List AttributeRule) (a : TagAttribute) : TagAttribute :=
  match rules.find? fun r => r.name == a.name with
  | some r => if r.collapses then { a with value := collapse a.value } else a
  | none => a

/-- Attributes with the default of a rule, if they lack it. -/
def addDefault (attributes : List TagAttribute) (r : AttributeRule) : List TagAttribute :=
  match r.fallback with
  | some value =>
    if attributes.any fun a => a.name == r.name then attributes
    else attributes ++ [⟨r.name, if r.collapses then collapse value else value⟩]
  | none => attributes

/-- The attributes of a tag as the document type has them: values that collapse are collapsed, and
defaults are added at the end. -/
def withRules (rules : List AttributeRule) (element : QName) (given : List TagAttribute) :
    List TagAttribute :=
  let mine := rules.filter fun r => r.owner == element
  mine.foldl addDefault (given.map (ruled mine))

/-- Whether the value of an attribute that names an element for all documents is a name. -/
def namesProperly (a : Attribute) : Bool :=
  if a.name.space = some reservedSpace ∧ a.name.base = "id" then
    match plainValue? a.value with
    | some s => isName (trimBy isSpace s.toList)
    | none => true
  else true

/-- An attribute as it stands in an element, its label resolved. -/
def attribute? (inForce : List Declaration) (a : TagAttribute) : Option Attribute := do
  let space ← if a.name.label = none then some none else resolve? inForce a.name.label
  some ⟨⟨a.name, space⟩, a.value⟩

/-- An element as it opens: its names resolved, its declarations apart from its attributes. -/
def open? (d : Doctype) (stack : List Frame) (name : QName) (given : List TagAttribute) :
    Option Frame := do
  if !distinctBy TagAttribute.name given then none
  let given := withRules d.rules name given
  let declared := (← given.mapM declaration).filterMap id
  -- what a tag declares holds for the tag itself
  let inForce := declared.reverse ++ scope stack
  let own := given.filter fun a =>
    a.name.label ≠ some declarationLabel && a.name ≠ ⟨none, declarationLabel⟩
  let attributes ← own.mapM (attribute? inForce)
  -- two labels of one namespace make one name of two that are written differently
  if !distinctBy (fun a : Attribute => (a.name.space, a.name.base)) attributes then none
  if name.label = some declarationLabel then none
  if !attributes.all namesProperly then none
  let space ← resolve? inForce name.label
  some { name := ⟨name, space⟩, declared := declared.filter (fun x => x.label ≠ some reservedLabel)
         attributes := attributes, children := [] }

/-! ## §3. Entities. -/

/-- Whether the text of an entity, and of all entities that it refers to, may stand in an attribute
value.  No entity may lie in itself. -/
def fitsValue (entities : List (String × Entity)) (left : Nat) (name : String) : Bool :=
  match left, entity? entities name with
  | left + 1, some (.internal text) =>
    match valuePieces [] text with
    | some value => value.all fun
      | .text _ => true
      | .reference name => fitsValue entities left name
    | none => false
  | _, _ => false

/-- The entities that the values of attributes refer to. -/
def valueReferences (given : List TagAttribute) : List String :=
  given.flatMap fun a => a.value.filterMap fun
    | .reference name => some name
    | .text _ => none

/-! ## §4. The builder. -/

/-- Whether an entity that is not declared may be referred to. -/
def Setting.toleratesUnknown (s : Setting) : Bool := !s.standalone && s.doctype.isOpen

/-- Whether the attributes of a tag refer to entities that may stand there. -/
def Setting.accepts (s : Setting) (given : List TagAttribute) : Bool :=
  (valueReferences given).all fun name =>
    match entity? s.doctype.entities name with
    | some _ => fitsValue s.doctype.entities (s.doctype.entities.length + 1) name
    | none => s.toleratesUnknown

/-- Takes one item.  `refers` says whether an entity may be referred to in content. -/
def Builder.step (s : Setting) (refers : List Frame → String → Bool) (b : Builder) (item : Item) :
    Option Builder :=
  match item with
  | .text cs =>
    -- after the root there is nothing but blanks
    if b.stack.isEmpty then (if cs.all isSpace then some b else none)
    else b.add (.text (String.ofList cs))
  | .literal cs => b.add (.text (String.ofList cs))
  | .char c => b.add (.text (String.singleton c))
  | .reference name => if refers b.stack name then b.add (.reference name) else none
  | .comment t =>
    if s.keepsNotes && !b.stack.isEmpty then b.add (.comment t) else some b
  | .instruction target data =>
    if s.keepsNotes && !b.stack.isEmpty then b.add (.instruction target data) else some b
  | .start name given closed => do
    if !s.accepts given then none
    let f ← open? s.doctype b.stack name given
    if closed then b.deliver f.node
    -- a document has one root
    else if b.stack.isEmpty && b.root.isSome then none
    else some { b with stack := f :: b.stack }
  | .finish name =>
    match b.stack with
    | f :: rest =>
      if f.name.written = name then Builder.deliver { b with stack := rest } f.node else none
    | [] => none

/-- Takes items until they end or one does not fit. -/
def Builder.run (s : Setting) (refers : List Frame → String → Bool) (b : Builder) :
    List Item → Option Builder
  | [] => some b
  | item :: rest => (b.step s refers item).bind fun b' => b'.run s refers rest

/-- Whether an entity may be referred to in content, inside the given open elements: its text must
be content of its own, and so must the text of every entity in it. -/
def fitsContent (s : Setting) : Nat → List Frame → String → Bool
  | 0, _, _ => false
  | left + 1, stack, name =>
    match entity? s.doctype.entities name with
    | some (.internal text) =>
      match items? text with
      | some items =>
        -- a frame in the place of all open ones, with what they declare
        let top : Frame := ⟨⟨⟨none, ""⟩, none⟩, scope stack |>.reverse, [], []⟩
        match Builder.run s (fitsContent s left) ⟨[top], none⟩ items with
        -- the text closes what it opens, and nothing that was open before
        | some ⟨[_], none⟩ => true
        | _ => false
      | none => false
    | some .external => true
    | some .unparsed => false
    | none => s.toleratesUnknown

/-- Whether an entity may be referred to in content. -/
def Setting.refers (s : Setting) : List Frame → String → Bool :=
  fitsContent s (s.doctype.entities.length + 1)

/-! ## §5. The prolog. -/

/-- The name and value of a part of the declaration, after a blank. -/
def declarationPart? (word : String) (cs : List Char) : Option (List Char × List Char) := do
  let rest ← word? word (← space? cs)
  let rest ← word? "=" (skipSpace rest)
  quotedText? (skipSpace rest)

/-- Whether a version is one that can be read. -/
def isVersion (cs : List Char) : Bool :=
  match cs with
  | '1' :: '.' :: rest => rest.all isAsciiDigit
  | _ => false

/-- What the declaration of a document says: the encoding and whether the document stands alone. -/
structure Prolog where
  encoding : Option String
  standalone : Bool
  deriving Repr, DecidableEq, Inhabited

/-- The declaration after its opening, and what follows it. -/
def prolog? (cs : List Char) : Option (Prolog × List Char) := do
  let (version, rest) ← declarationPart? "version" cs
  if !isVersion version then none
  let (encoding, rest) ← match declarationPart? "encoding" rest with
    | some (e, rest) => some (some (String.ofList (e.map asciiLower)), rest)
    | none => some (none, rest)
  let (standalone, rest) ← match declarationPart? "standalone" rest with
    | some (v, rest) =>
      if v = "yes".toList then some (true, rest)
      else if v = "no".toList then some (false, rest) else none
    | none => some (false, rest)
  some (⟨encoding, standalone⟩, ← word? "?>" (skipSpace rest))

/-- Line ends as single line feeds. -/
def unifyLines : List Char → List Char
  | '\r' :: '\n' :: cs => '\n' :: unifyLines cs
  | '\r' :: cs => '\n' :: unifyLines cs
  | c :: cs => c :: unifyLines cs
  | [] => []

/-- Names of the encoding that text is in anyway. -/
def unicodeNames : List String := ["utf-8", "utf8"]

/-- Names of the encoding of the first 128 characters. -/
def asciiNames : List String := ["us-ascii", "ascii"]

/-- Text as it is read under a declared encoding: the bytes of the text are taken for that.  An
encoding of more than one byte other than UTF-8, or one that is not known, is refused. -/
def decode? (encoding : Option String) (cs : List Char) : Option (List Char) :=
  match encoding with
  | none => some cs
  | some e =>
    if unicodeNames.contains e then some cs
    else if asciiNames.contains e then (if cs.all fun c => c.toNat < 128 then some cs else none)
    else match charsets.find? fun s => s.names.contains e with
      | some s => (String.ofList cs).toUTF8.toList.mapM s.char?
      | none => none

/-- What is known of the document type after a comment, an instruction or a document type that text
begins with, and what follows it.  Other text stays as it is. -/
def pass? (d : Option Doctype) (cs : List Char) : Option (Option Doctype × List Char) :=
  match word? "<!--" cs with
  | some r => (comment? r).map fun (_, r) => (d, r)
  | none =>
  match word? "<?" cs with
  | some r => (instruction? r).map fun (_, _, r) => (d, r)
  | none =>
  match word? "<!DOCTYPE" cs, d with
  | some r, none => (doctype? r).map fun (found, r) => (some found, r)
  | some _, some _ => none
  | none, _ => some (d, cs)

/-- The document type before the root element, and the text from the root element on: blanks,
comments and instructions are passed over. -/
def beforeRoot? (d : Option Doctype) (cs : List Char) : Option (Doctype × List Char) :=
  match cs with
  | [] => none
  | c :: rest =>
    if isSpace c then beforeRoot? d rest
    else
      match pass? d (c :: rest) with
      | none => none
      | some (d, r) =>
        -- when nothing was passed over, the root begins here
        if r.length ≤ rest.length then beforeRoot? d r
        else some (d.getD Doctype.empty, r)
termination_by cs.length

/-! ## §6. Documents. -/

/-- Reads a document after its prolog. -/
def document? (keepsNotes : Bool) (prolog : Prolog) (cs : List Char) : Option Document := do
  let rest ← decode? prolog.encoding cs
  let (doctype, rest) ← beforeRoot? none (unifyLines rest)
  let s : Setting := ⟨doctype, prolog.standalone, keepsNotes⟩
  let b ← Builder.run s s.refers ⟨[], none⟩ (← items? rest)
  match b with
  | ⟨[], some root⟩ => some ⟨doctype.entities, root⟩
  | _ => none

/-- Reads a document. -/
def read? (keepsNotes : Bool) (text : List Char) : Option Document := do
  let cs := match text with
    | '\uFEFF' :: rest => rest
    | cs => cs
  -- without a blank it is an instruction whose target begins with these letters
  let opening := (word? "<?xml" cs).filter fun rest => (rest.head?.map isSpace).getD false
  let (prolog, rest) ← match opening with
    | some rest => prolog? rest
    | none => some (⟨none, false⟩, cs)
  document? keepsNotes prolog rest

/-! ## §7. Values. -/

/-- The characters of a value with the text of its entities put in, to a bounded depth. -/
def expand (entities : List (String × Entity)) : Nat → List Piece → List Char
  | 0, _ => []
  | left + 1, value => value.flatMap fun
    | .text s => s.toList
    | .reference name =>
      match entity? entities name with
      | some (.internal text) => expand entities left ((valuePieces [] text).getD [])
      | _ => []

/-- The value of an attribute with the text of its entities put in. -/
def Document.value (d : Document) (a : Attribute) : List Char :=
  expand d.entities (d.entities.length + 1) a.value

end ControlSurface.Xml
