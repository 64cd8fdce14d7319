/-
  ControlSurface.Proofs.Xml.Size
  ──────────────────────────────
  How many bytes a tree is written with, while it is built.  Each item has its own text as it would
  be written: character data with its escapes, a tag with its defaults, notes not at all.  A builder
  that keeps no notes holds no more than these texts, item by item (`size_of_step`) and after a
  whole run (`size_of_run`).
-/
import ControlSurface.Proofs.Xml.Opening
import ControlSurface.Proofs.Xml.Remainder
import ControlSurface.Proofs.Xml.Steps
import Mathlib.Algebra.GroupWithZero.Nat
import Mathlib.Data.List.Flatten
import Mathlib.Data.String.Basic

namespace ControlSurface.Xml

open ControlSurface.Outcome ControlSurface.Text
open String (utf8Len utf8Len_append utf8Len_cons utf8Len_nil)

/-! ## §1. The size of nodes. -/

/-- The bytes that a node is written with. -/
def Node.size (n : Node) : Nat := utf8Len (nodeText n)

/-- The bytes that nodes are written with. -/
def sizes (ns : List Node) : Nat := utf8Len (nodesText ns)

@[simp] theorem sizes_nil : sizes [] = 0 := rfl

@[simp] theorem sizes_cons (n : Node) (ns : List Node) : sizes (n :: ns) = n.size + sizes ns := by
  rw [sizes, nodesText, utf8Len_append]
  rfl

theorem sizes_append (ns ms : List Node) : sizes (ns ++ ms) = sizes ns + sizes ms := by
  induction ns with
  | nil => rw [List.nil_append, sizes_nil, Nat.zero_add]
  | cons n ns ih => rw [List.cons_append, sizes_cons, ih, sizes_cons, Nat.add_assoc]

theorem sizes_reverse (ns : List Node) : sizes ns.reverse = sizes ns := by
  induction ns with
  | nil => rfl
  | cons n ns ih =>
    rw [List.reverse_cons, sizes_append, ih, sizes_cons, sizes_cons, sizes_nil, Nat.add_zero,
      Nat.add_comm]

/-- The bytes of a tag that begins an element, without its end. -/
def tagSize (name : Name) (declared : List Declaration) (attributes : List Attribute) : Nat :=
  utf8Len ('<' :: (name.written.text.toList ++ tagBody declared attributes))

/-- A tag is as long as its name, its declarations and its attributes together. -/
theorem tagSize_eq (name : Name) (declared : List Declaration) (attributes : List Attribute) :
    tagSize name declared attributes
      = 1 + utf8Len name.written.text.toList + utf8Len (declared.flatMap declarationText)
        + utf8Len (attributes.flatMap attributeText) := by
  have hmark : ('<' : Char).utf8Size = 1 := rfl
  rw [tagSize, tagBody, utf8Len_cons, utf8Len_append, utf8Len_append]
  omega

theorem size_text (s t : String) : (Node.text (s ++ t)).size = (Node.text s).size
    + (Node.text t).size := by
  rw [Node.size, nodeText, String.toList_append, List.flatMap_append, utf8Len_append]
  rfl

/-- The bytes of the tag that ends an element. -/
def endSize (name : Name) : Nat := utf8Len ('<' :: '/' :: (name.written.text.toList ++ ['>']))

theorem endSize_eq (name : Name) : endSize name = utf8Len name.written.text.toList + 3 := by
  rw [endSize, utf8Len_cons, utf8Len_cons, utf8Len_append]
  rfl

theorem size_element (name : Name) (declared : List Declaration) (attributes : List Attribute)
    (children : List Node) :
    (Node.element name declared attributes children).size = tagSize name declared attributes
      + if children.isEmpty then 2 else 1 + (sizes children + endSize name) := by
  have hsplit : nodeText (.element name declared attributes children)
      = '<' :: (name.written.text.toList ++ tagBody declared attributes)
        ++ if children.isEmpty then ['/', '>']
          else ['>']
            ++ (nodesText children ++ '<' :: '/' :: (name.written.text.toList ++ ['>'])) := by
    rw [nodeText]
    rfl
  rw [Node.size, hsplit, utf8Len_append, tagSize]
  split
  next => rfl
  next =>
    rw [utf8Len_append, utf8Len_append]
    rfl

/-- An element takes no more than its tags and what is in it. -/
theorem size_element_le (name : Name) (declared : List Declaration) (attributes : List Attribute)
    (children : List Node) :
    (Node.element name declared attributes children).size
      ≤ tagSize name declared attributes + 1 + sizes children + endSize name := by
  have hend := endSize_eq name
  rw [size_element]
  split <;> omega

/-! ## §2. What a builder holds. -/

/-- The bytes of an open element and of what is in it. -/
def Frame.size (f : Frame) : Nat := tagSize f.name f.declared f.attributes + 1 + sizes f.children

/-- The bytes of the finished root, if there is one. -/
def rootSize : Option Node → Nat
  | some n => n.size
  | none => 0

/-- The bytes that a builder holds. -/
def Builder.size (b : Builder) : Nat := (b.stack.map Frame.size).sum + rootSize b.root

/-- What an item is written with, under rules for attributes; notes are not kept. -/
def Item.writing (rules : List AttributeRule) : Item → List Char
  | .text s | .literal s => s.flatMap textChar
  | .char c => textChar c
  | .reference name => referenceText name
  | .comment _ | .instruction _ _ => []
  | .start name given closed =>
    '<' :: (name.text.toList
      ++ ((withRules rules name given).flatMap TagAttribute.print ++ tagEnd closed))
  | .finish name => '<' :: '/' :: (name.text.toList ++ ['>'])

theorem sizes_addNode (n : Node) (children : List Node) :
    sizes (addNode n children) = n.size + sizes children := by
  unfold addNode
  split
  next s t rest =>
    rw [sizes_cons, sizes_cons, size_text]
    omega
  next => rw [sizes_cons]

theorem size_of_add {b : Builder} {n : Node} :
    Finds (fun b' => b'.size = b.size + n.size) (b.add n) := by
  obtain ⟨stack, root⟩ := b
  unfold Builder.add
  cases stack with
  | nil => exact finds_none
  | cons f rest =>
    refine finds_some ?_
    simp only [Builder.size, List.map_cons, List.sum_cons, Frame.size, sizes_addNode]
    omega

theorem size_of_deliver {b : Builder} {n : Node} :
    Finds (fun b' => b'.size = b.size + n.size) (b.deliver n) := by
  obtain ⟨stack, root⟩ := b
  unfold Builder.deliver
  cases stack with
  | nil =>
    cases root with
    | none => exact finds_some (by simp [Builder.size, rootSize])
    | some _ => exact finds_none
  | cons _ _ => exact size_of_add

/-- A declaration is written as the attribute that makes it. -/
theorem print_of_declaration {a : TagAttribute} {d : Declaration}
    (h : declaration a = some (some d)) : d.written.print = a.print := by
  have hname := (declaration_eq_some h).1
  have hvalue : plainValue? a.value = some d.space := by
    unfold declaration at h
    dsimp only at h
    split at h
    next => cases h
    next =>
      split at h
      next => cases h
      next space hspace =>
        split at h
        next =>
          cases h
          exact hspace
        next => cases h
  have hsame : d.written.value.flatMap pieceText = a.value.flatMap pieceText := by
    unfold plainValue? at hvalue
    split at hvalue
    next hnil =>
      rw [hnil, Declaration.written, ← Option.some.inj hvalue]
      rfl
    next s hs => rw [hs, Declaration.written, ← Option.some.inj hvalue]
    next => cases hvalue
  rw [TagAttribute.print, TagAttribute.print, ← hname, hsame]

/-- The declarations of a tag and its other attributes are among all of its attributes. -/
theorem sizes_of_declarations {given : List TagAttribute} {found : List (Option Declaration)}
    (h : given.mapM declaration = some found) :
    utf8Len ((found.filterMap id).flatMap fun d => d.written.print)
        + utf8Len ((ordinary given).flatMap TagAttribute.print)
      ≤ utf8Len (given.flatMap TagAttribute.print) := by
  have hall := mapM_eq_some_iff.mp h
  clear h
  induction hall with
  | nil => exact Nat.le_refl 0
  | @cons a d? given found hd hrest ih =>
    cases d? with
    | some d =>
      have hnot : ordinary (a :: given) = ordinary given := by
        refine List.filter_cons_of_neg ?_
        rw [(declaration_eq_some hd).1, Bool.and_eq_true, not_and_or]
        rcases isDeclaration_written d with hlabel | hdefault
        · exact Or.inl (by simp [hlabel])
        · exact Or.inr (by simp [hdefault])
      have hkept : (some d :: found).filterMap id = d :: found.filterMap id := rfl
      rw [hkept, List.flatMap_cons, List.flatMap_cons, utf8Len_append, utf8Len_append,
        print_of_declaration hd, hnot]
      omega
    | none =>
      have hmore : utf8Len ((ordinary (a :: given)).flatMap TagAttribute.print)
          ≤ utf8Len a.print + utf8Len ((ordinary given).flatMap TagAttribute.print) := by
        rw [ordinary, List.filter_cons]
        split
        next =>
          rw [List.flatMap_cons, utf8Len_append]
          rfl
        next => exact Nat.le_add_left _ _
      have hkept : (none :: found).filterMap id = found.filterMap id := rfl
      rw [hkept, List.flatMap_cons, utf8Len_append]
      omega

/-- What an element opens with is written with what its tag is written with. -/
theorem tagSize_of_open? {d : Doctype} {stack : List Frame} {name : QName}
    {given : List TagAttribute} (closed : Bool) :
    Finds (fun f => f.children = []
        ∧ tagSize f.name f.declared f.attributes + utf8Len (tagEnd closed)
          ≤ utf8Len ((Item.start name given closed).writing d.rules))
      (open? d stack name given) := by
  intro f h
  obtain ⟨found, space, -, hfound, hown, -, -, -, -, hname, hdeclared, hchildren⟩ := open?_eq_some h
  refine ⟨hchildren, ?_⟩
  have hbody : utf8Len (tagBody f.declared f.attributes)
      ≤ utf8Len ((withRules d.rules name given).flatMap TagAttribute.print) := by
    have hfewer : (f.declared.flatMap fun x => x.written.print).Sublist
        ((found.filterMap id).flatMap fun x => x.written.print) := by
      rw [hdeclared]
      exact List.filter_sublist.flatMap _
    have hle := String.utf8Len_le_of_sublist hfewer
    have hall := sizes_of_declarations hfound
    rw [tagBody_eq, written, List.flatMap_append, List.flatMap_map, map_written hown,
      utf8Len_append]
    omega
  have htag : utf8Len f.name.written.text.toList = utf8Len name.text.toList := by rw [hname]
  rw [tagSize, Item.writing, utf8Len_cons, utf8Len_cons, utf8Len_append, utf8Len_append,
    utf8Len_append]
  omega

/-- The node of an item is as long as the item is written. -/
theorem Adds.size {s : Setting} {refers : List Frame → String → Bool} {b : Builder} {item : Item}
    {n : Node} (hnotes : s.keepsNotes = false) (h : Adds s refers b item n) :
    n.size = utf8Len (item.writing s.doctype.rules) := by
  cases h with
  | text =>
    rw [Node.size, nodeText, String.toList_ofList]
    rfl
  | literal =>
    rw [Node.size, nodeText, String.toList_ofList]
    rfl
  | char =>
    rw [Node.size, nodeText, String.toList_singleton, List.flatMap_singleton]
    rfl
  | reference => rfl
  | comment hkeeps =>
    rw [hnotes] at hkeeps
    cases hkeeps
  | instruction hkeeps =>
    rw [hnotes] at hkeeps
    cases hkeeps

/-- **What an item adds to a builder** that keeps no notes is no more than the item is written
with. -/
theorem size_of_step {s : Setting} (hnotes : s.keepsNotes = false)
    (refers : List Frame → String → Bool) (b : Builder) (item : Item) :
    Finds (fun b' => b'.size ≤ b.size + utf8Len (item.writing s.doctype.rules))
      (b.step s refers item) := by
  intro b' h
  cases stepped_of_step s refers b item b' h with
  | blanks => exact Nat.le_add_right _ _
  | comment => exact Nat.le_add_right _ _
  | instruction => exact Nat.le_add_right _ _
  | node hnode hadd =>
    rw [← hnode.size hnotes]
    exact (size_of_add b' hadd).le
  | @closed _ _ f _ _ hopen hdeliver =>
    obtain ⟨hchildren, htag⟩ := tagSize_of_open? true f hopen
    have hnode : f.node.size = tagSize f.name f.declared f.attributes + 2 := by
      rw [Frame.node, hchildren, List.reverse_nil, size_element]
      rfl
    have hend : utf8Len (tagEnd true) = 2 := rfl
    have hsize := size_of_deliver b' hdeliver
    omega
  | @opened _ _ f _ hopen =>
    obtain ⟨hchildren, htag⟩ := tagSize_of_open? false f hopen
    have hend : utf8Len (tagEnd false) = 1 := rfl
    simp only [Builder.size, List.map_cons, List.sum_cons, Frame.size, hchildren, sizes_nil]
    omega
  | @finished f rest _ hstack hdeliver =>
    have hsize := size_of_deliver b' hdeliver
    have hnode : f.node.size ≤ tagSize f.name f.declared f.attributes + 1 + sizes f.children
        + endSize f.name := by
      rw [← sizes_reverse f.children]
      exact size_element_le f.name f.declared f.attributes f.children.reverse
    have hend : utf8Len ((Item.finish f.name.written).writing s.doctype.rules)
        = endSize f.name := rfl
    simp only [Builder.size, hstack, List.map_cons, List.sum_cons, Frame.size] at hsize ⊢
    omega

/-- **What a builder holds** that keeps no notes is no more than its items are written with. -/
theorem size_of_run {s : Setting} (hnotes : s.keepsNotes = false)
    (refers : List Frame → String → Bool) (b : Builder) (items : List Item) :
    Finds (fun b' => b'.size
        ≤ b.size + utf8Len (items.flatMap (Item.writing s.doctype.rules)))
      (b.run s refers items) := by
  induction items generalizing b with
  | nil => exact finds_some (Nat.le_refl _)
  | cons item rest ih =>
    refine finds_bind (size_of_step hnotes refers b item) fun b' hb' b'' hb'' => ?_
    have hrest := ih b' b'' hb''
    rw [List.flatMap_cons, utf8Len_append]
    omega

end ControlSurface.Xml
