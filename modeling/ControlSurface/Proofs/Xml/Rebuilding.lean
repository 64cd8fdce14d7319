/-
  ControlSurface.Proofs.Xml.Rebuilding
  ────────────────────────────────────
  A tree is built again from its text.  A builder that takes the items of a regular node puts the
  node to the innermost open element (`rebuilds_of_regular`), whatever runs its characters come in
  (`run_of_spell`), and nothing that stands before the root element or between lines gets in the
  way.  So the text of a regular element without references is read as that element
  (`read?_nodeText`), without texts that hold no characters.
-/
import ControlSurface.Proofs.Xml.Scoping

namespace ControlSurface.Xml

open ControlSurface.Text

/-! ## §1. Trees as they are read back. -/

/-- Whether a node is text without characters, such as an empty literal section leaves. -/
def Node.isEmptyText : Node → Bool
  | .text s => s = ""
  | _ => false

mutual
/-- A node without texts that hold no characters, in attribute values and among the nodes in it. -/
def Node.tidy : Node → Node
  | .element name declared attributes children =>
    .element name declared (attributes.map Attribute.tidy) (tidyNodes children)
  | n => n

/-- Nodes without texts that hold no characters. -/
def tidyNodes : List Node → List Node
  | [] => []
  | n :: rest => if n.isEmptyText then tidyNodes rest else n.tidy :: tidyNodes rest
end

mutual
/-- Whether a node is a reference to an entity, or holds one in itself or an attribute value. -/
def holdsReference : Node → Bool
  | .element _ _ attributes children =>
    attributes.any (fun a => a.value.any fun p => !p.isText) || anyHoldsReference children
  | .reference _ => true
  | _ => false

/-- Whether one of some nodes is or holds a reference to an entity. -/
def anyHoldsReference : List Node → Bool
  | [] => false
  | n :: rest => holdsReference n || anyHoldsReference rest
end

theorem tidyNodes_cons (n : Node) (rest : List Node) :
    tidyNodes (n :: rest) = tidyNodes [n] ++ tidyNodes rest := by
  rw [tidyNodes, tidyNodes]
  split <;> rfl

theorem tidyNodes_markup {n : Node} (h : n.isText = false) : tidyNodes [n] = [n.tidy] := by
  cases n with
  | text s => cases h
  | _ => rfl

theorem isText_tidy (n : Node) : n.tidy.isText = n.isText := by
  cases n <;> rfl

theorem Attribute.tidy_tidy (a : Attribute) : a.tidy.tidy = a.tidy := by
  simp [Attribute.tidy, tidyValue, List.filter_filter]

mutual
/-- Nothing is left out a second time. -/
theorem tidy_tidy : (n : Node) → n.tidy.tidy = n.tidy
  | .element name declared attributes children => by
    have hattributes : (attributes.map Attribute.tidy).map Attribute.tidy
        = attributes.map Attribute.tidy := by
      rw [List.map_map]
      exact List.map_congr_left fun a _ => a.tidy_tidy
    rw [Node.tidy, Node.tidy, hattributes, tidyNodes_tidyNodes children]
  | .text s => rfl
  | .comment s => rfl
  | .instruction target data => rfl
  | .reference name => rfl

theorem tidyNodes_tidyNodes : (ns : List Node) → tidyNodes (tidyNodes ns) = tidyNodes ns
  | [] => rfl
  | n :: rest => by
    rw [tidyNodes]
    split
    next => exact tidyNodes_tidyNodes rest
    next hfull =>
      have hstays : n.tidy.isEmptyText = n.isEmptyText := by cases n <;> rfl
      rw [tidyNodes, hstays, if_neg hfull, tidy_tidy n, tidyNodes_tidyNodes rest]
end

theorem Attribute.any_tidy (a : Attribute) :
    (a.tidy.value.any fun p => !p.isText) = a.value.any fun p => !p.isText := by
  rw [show a.tidy.value = tidyValue a.value from rfl, tidyValue, List.any_filter]
  refine congrArg (List.any a.value) (funext fun p => ?_)
  cases p with
  | text s => exact Bool.and_false _
  | reference name => rfl

mutual
/-- Texts without characters are no references. -/
theorem holdsReference_tidy : (n : Node) → holdsReference n.tidy = holdsReference n
  | .element name declared attributes children => by
    have hattributes : (attributes.map Attribute.tidy).any
        (fun a => a.value.any fun p => !p.isText)
          = attributes.any fun a => a.value.any fun p => !p.isText := by
      rw [List.any_map]
      exact congrArg (List.any attributes) (funext fun a => a.any_tidy)
    rw [Node.tidy, holdsReference, holdsReference, hattributes, anyHoldsReference_tidyNodes children]
  | .text s => rfl
  | .comment s => rfl
  | .instruction target data => rfl
  | .reference name => rfl

theorem anyHoldsReference_tidyNodes :
    (ns : List Node) → anyHoldsReference (tidyNodes ns) = anyHoldsReference ns
  | [] => rfl
  | n :: rest => by
    rw [tidyNodes]
    split
    next hempty =>
      have hnone : holdsReference n = false := by
        cases n with
        | text s => rfl
        | _ => cases hempty
      rw [anyHoldsReference, hnone, Bool.false_or, anyHoldsReference_tidyNodes rest]
    next =>
      rw [anyHoldsReference, anyHoldsReference, holdsReference_tidy n,
        anyHoldsReference_tidyNodes rest]
end

theorem holdsReference_of_mem {ns : List Node} (h : anyHoldsReference ns = false) :
    ∀ n ∈ ns, holdsReference n = false := by
  induction ns with
  | nil => simp
  | cons n ns ih =>
    rw [anyHoldsReference, Bool.or_eq_false_iff] at h
    exact List.forall_mem_cons.mpr ⟨h.1, ih h.2⟩

/-! ## §2. Characters one by one. -/

variable {s : Setting} {refers : List Frame → String → Bool}

theorem run_append (b : Builder) (items more : List Item) :
    b.run s refers (items ++ more) = (b.run s refers items).bind fun b' => b'.run s refers more := by
  induction items generalizing b with
  | nil => rfl
  | cons item items ih =>
    rw [List.cons_append, Builder.run, Builder.run]
    cases b.step s refers item with
    | none => rfl
    | some b' => exact ih b'

theorem run_singleton (b : Builder) (item : Item) : b.run s refers [item] = b.step s refers item := by
  rw [Builder.run]
  cases b.step s refers item <;> rfl

theorem addNode_text_text (t u : String) (children : List Node) :
    addNode (.text u) (addNode (.text t) children) = addNode (.text (t ++ u)) children := by
  cases children with
  | nil => rfl
  | cons n rest =>
    cases n with
    | text v =>
      show Node.text (v ++ t ++ u) :: rest = Node.text (v ++ (t ++ u)) :: rest
      rw [String.append_assoc]
    | _ => rfl

/-- Characters one by one are one text. -/
theorem run_chars (f : Frame) (rest : List Frame) (root : Option Node) (c : Char) (cs : List Char) :
    Builder.run s refers ⟨f :: rest, root⟩ ((c :: cs).map .char)
      = Builder.add ⟨f :: rest, root⟩ (.text (String.ofList (c :: cs))) := by
  induction cs generalizing f c with
  | nil => rfl
  | cons d cs ih =>
    have hstep : Builder.run s refers ⟨f :: rest, root⟩ ((c :: d :: cs).map .char)
        = Builder.run s refers
            ⟨{ f with children := addNode (.text (String.singleton c)) f.children } :: rest, root⟩
            ((d :: cs).map .char) := rfl
    have htext : String.singleton c ++ String.ofList (d :: cs) = String.ofList (c :: d :: cs) := by
      apply String.toList_inj.mp
      simp
    rw [hstep, ih]
    show some (Builder.mk (Frame.mk _ _ _ (addNode _ (addNode _ _)) :: rest) root) = _
    rw [addNode_text_text, htext]
    rfl

/-- A builder that takes the characters of an item one by one takes the item. -/
theorem step_of_spelled {b b' : Builder} {item : Item}
    (h : b.run s refers item.spelled = some b') : b.step s refers item = some b' := by
  have hone : item.spelled = [item] → b.step s refers item = some b' := by
    intro heq
    rw [heq, run_singleton] at h
    exact h
  cases item with
  | text cs =>
    cases cs with
    | nil => exact hone rfl
    | cons c cs =>
      obtain ⟨stack, root⟩ := b
      cases stack with
      | nil => cases h
      | cons f rest => exact (run_chars f rest root c cs).symm.trans h
  | _ => exact hone rfl

/-- **How characters are divided is nothing to a builder.** -/
theorem run_of_spell {b b' : Builder} {items : List Item}
    (h : b.run s refers (spell items) = some b') : b.run s refers items = some b' := by
  induction items generalizing b with
  | nil => exact h
  | cons item items ih =>
    rw [spell_cons, run_append] at h
    obtain ⟨between, hitem, hrest⟩ := Option.bind_eq_some_iff.mp h
    rw [Builder.run, step_of_spelled hitem]
    exact ih hrest

/-! ## §3. Nodes. -/

/-- A builder that takes the items of a node puts the node to the innermost open element, unless
that would be text next to text. -/
def Rebuilds (s : Setting) (refers : List Frame → String → Bool) (outer : List Declaration)
    (n : Node) : Prop :=
  ∀ (f : Frame) (rest : List Frame) (root : Option Node), scope (f :: rest) = outer →
    (n.isText = true → ∀ m ∈ f.children.head?, m.isText = false) →
    Builder.run s refers ⟨f :: rest, root⟩ (itemsIn n)
      = some ⟨{ f with children := (tidyNodes [n]).reverse ++ f.children } :: rest, root⟩

/-- A node that is not put to the text before it. -/
theorem add_cons {n : Node} {f : Frame} {rest : List Frame} {root : Option Node}
    (h : n.isText = true → ∀ m ∈ f.children.head?, m.isText = false) :
    Builder.add ⟨f :: rest, root⟩ n
      = some ⟨{ f with children := n :: f.children } :: rest, root⟩ := by
  have hadd : addNode n f.children = n :: f.children := by
    unfold addNode
    split
    next t u more heq =>
      rw [heq] at h
      cases h rfl (.text u) rfl
    next => rfl
  show some (Builder.mk (Frame.mk _ _ _ (addNode n f.children) :: rest) root) = _
  rw [hadd]

/-- The nodes in an element are put to it one after the other. -/
theorem run_itemsInAll {outer : List Declaration} {ns : List Node}
    (h : ∀ n ∈ ns, Rebuilds s refers outer n) (hapart : Apart Node.isText ns) (f : Frame)
    (rest : List Frame) (root : Option Node) (hscope : scope (f :: rest) = outer)
    (hfirst : ∀ n ∈ ns.head?, n.isText = true → ∀ m ∈ f.children.head?, m.isText = false) :
    Builder.run s refers ⟨f :: rest, root⟩ (itemsInAll ns)
      = some ⟨{ f with children := (tidyNodes ns).reverse ++ f.children } :: rest, root⟩ := by
  induction ns generalizing f with
  | nil => rfl
  | cons n ns ih =>
    obtain ⟨hn, hns⟩ := List.forall_mem_cons.mp h
    obtain ⟨hnext, hrest⟩ := List.isChain_cons.mp hapart
    rw [itemsInAll, run_append, hn f rest root hscope (hfirst n rfl), Option.bind_some,
      ih hns hrest { f with children := (tidyNodes [n]).reverse ++ f.children } hscope ?_,
      tidyNodes_cons n ns, List.reverse_append, List.append_assoc]
    -- the next node is text only behind markup, which is put before it
    intro m hm hmtext
    have hmarkup : n.isText = false := by
      rw [Bool.eq_false_iff]
      intro htext
      rw [hnext m hm htext] at hmtext
      cases hmtext
    intro k hk
    rw [tidyNodes_markup hmarkup] at hk
    obtain rfl : n.tidy = k := Option.some.inj hk
    rw [isText_tidy]
    exact hmarkup

/-- A value of text alone refers to nothing. -/
theorem references_tidyValue {value : List Piece} (h : ∀ p ∈ value, p.isText = true) :
    (tidyValue value).filterMap (fun
      | .reference name => some name
      | .text _ => none) = [] := by
  refine List.filterMap_eq_nil_iff.mpr fun p hp => ?_
  cases p with
  | text t => rfl
  | reference name => cases h _ (List.mem_of_mem_filter hp)

theorem valueReferences_written {declared : List Declaration} {attributes : List Attribute}
    (h : attributes.any (fun a => a.value.any fun p => !p.isText) = false) :
    valueReferences ((written declared attributes).map TagAttribute.tidy) = [] := by
  rw [valueReferences, map_tidy_written, List.flatMap_append, List.append_eq_nil_iff,
    List.map_map]
  refine ⟨List.flatMap_eq_nil_iff.mpr fun a ha => ?_, List.flatMap_eq_nil_iff.mpr fun a ha => ?_⟩
  · obtain ⟨d, _, rfl⟩ := List.mem_map.mp ha
    refine references_tidyValue fun p hp => ?_
    rw [List.mem_singleton.mp hp]
    rfl
  · obtain ⟨b, hb, rfl⟩ := List.mem_map.mp ha
    refine references_tidyValue fun p hp => ?_
    have hall := List.any_eq_false.mp h b hb
    simp only [Bool.not_eq_true, List.any_eq_false, Bool.not_eq_true', Bool.not_eq_false] at hall
    exact hall p hp

/-- **An element is built again**, inside an open one or as the root. -/
theorem run_element (hs : s.doctype = Doctype.empty) {b : Builder} {name : Name}
    {declared : List Declaration} {attributes : List Attribute} {children : List Node}
    (hroom : (b.stack.isEmpty && b.root.isSome) = false)
    (hopens : Reopens (scope b.stack) name declared attributes)
    (hvalues : ∀ a ∈ attributes, IsValue a.value)
    (hplain : attributes.any (fun a => a.value.any fun p => !p.isText) = false)
    (hapart : Apart Node.isText children)
    (hchildren : ∀ n ∈ children, Rebuilds s refers (declared.reverse ++ scope b.stack) n) :
    b.run s refers (itemsIn (.element name declared attributes children))
      = b.deliver (Node.tidy (.element name declared attributes children)) := by
  have haccepts : s.accepts ((written declared attributes).map TagAttribute.tidy) = true := by
    rw [Setting.accepts, valueReferences_written hplain]
    rfl
  have hstart : ∀ closed, b.step s refers
      (.start name.written ((written declared attributes).map TagAttribute.tidy) closed)
        = if closed then
            b.deliver (.element name declared (attributes.map Attribute.tidy) [])
          else some ⟨⟨name, declared, attributes.map Attribute.tidy, []⟩ :: b.stack, b.root⟩ := by
    intro closed
    rw [Builder.step, haccepts, hs, open?_written hopens hvalues]
    dsimp only [Bool.not_true, Option.bind_eq_bind, Option.bind_some]
    rw [hroom]
    rfl
  rw [itemsIn]
  cases children with
  | nil =>
    rw [List.isEmpty_nil, if_pos rfl, run_singleton, hstart, if_pos rfl]
    rfl
  | cons n ns =>
    rw [if_neg (by simp), Builder.run, hstart, if_neg (by simp), Option.bind_some, run_append,
      run_itemsInAll hchildren hapart _ _ _ rfl (by simp), Option.bind_some, run_singleton,
      Builder.step]
    dsimp only
    rw [if_pos rfl, List.append_nil, Frame.node, List.reverse_reverse]
    rfl

/-- **A regular node without references is built again.** -/
theorem rebuilds_of_regular (hs : s.doctype = Doctype.empty) {outer : List Declaration} {n : Node}
    (h : n.Regular s.keepsNotes outer) (hproper : n.Proper) (hplain : holdsReference n = false) :
    Rebuilds s refers outer n := by
  induction h with
  | @element outer name declared attributes children hopens hapart _ ih =>
    cases hproper with
    | element _ _ hattributes hchildren =>
      rw [holdsReference, Bool.or_eq_false_iff] at hplain
      intro f rest root hscope _
      have hinner : ∀ m ∈ children, Rebuilds s refers (declared.reverse ++ scope (f :: rest)) m := by
        intro m hm
        rw [hscope]
        exact ih m hm (hchildren m hm) (holdsReference_of_mem hplain.2 m hm)
      rw [run_element hs (b := ⟨f :: rest, root⟩) rfl (hscope ▸ hopens)
        (fun a ha => (hattributes a ha).value) hplain.1 hapart hinner, tidyNodes_markup rfl]
      exact add_cons fun htext => by cases htext
  | text t =>
    intro f rest root _ hfirst
    rw [itemsIn, tidyNodes]
    cases hcs : t.toList with
    | nil =>
      rw [if_pos (by simpa [Node.isEmptyText] using hcs)]
      rfl
    | cons c cs =>
      have hne : t ≠ "" := by
        rintro rfl
        cases hcs
      rw [if_neg (by simpa [Node.isEmptyText] using hne), run_chars, ← hcs, String.ofList_toList]
      exact add_cons hfirst
  | comment hkeeps _ =>
    intro f rest root _ _
    rw [itemsIn, run_singleton, Builder.step, hkeeps]
    exact if_pos rfl
  | instruction hkeeps _ =>
    intro f rest root _ _
    rw [itemsIn, run_singleton, Builder.step, hkeeps]
    exact if_pos rfl
  | reference name => cases hplain

/-! ## §4. Printed text. -/

theorem not_mem_textChar (c : Char) : '\r' ∉ textChar c := by
  unfold textChar
  split_ifs with hamp hlt hgt hreturn
  · decide
  · decide
  · decide
  · decide
  · simpa using fun heq => hreturn heq.symm

theorem not_mem_valueChar (c : Char) : '\r' ∉ valueChar c := by
  unfold valueChar
  split_ifs
  · decide
  · decide
  · decide
  · exact not_mem_textChar c

theorem not_mem_name {q : QName} (hq : q.Proper) : '\r' ∉ q.text.toList := by
  intro hmem
  rcases of_mem_text hq _ hmem with h | h
  · exact absurd h (by decide)
  · exact absurd h (by decide)

theorem not_mem_referenceText {name : String} (h : IsEntity name) : '\r' ∉ referenceText name := by
  intro hmem
  have hin : '\r' ∈ name.toList := by simpa [referenceText] using hmem
  exact absurd (isNameChar_of_isName h.1 _ hin) (by decide)

theorem not_mem_attributes {given : List TagAttribute} (h : ∀ a ∈ given, a.Proper) :
    '\r' ∉ given.flatMap TagAttribute.print := by
  intro hmem
  obtain ⟨a, ha, hin⟩ := List.mem_flatMap.mp hmem
  have hsplit : '\r' ∈ a.name.text.toList ∨ '\r' ∈ a.value.flatMap pieceText := by
    simpa [TagAttribute.print, assignment] using hin
  rcases hsplit with hname | hvalue
  · exact not_mem_name (h a ha).name hname
  · obtain ⟨p, hp, hin⟩ := List.mem_flatMap.mp hvalue
    cases p with
    | text t =>
      obtain ⟨c, _, hc⟩ := List.mem_flatMap.mp hin
      exact not_mem_valueChar c hc
    | reference name => exact not_mem_referenceText ((h a ha).value.proper _ hp) hin

theorem not_mem_nodesText {ns : List Node} (h : ∀ n ∈ ns, '\r' ∉ nodeText n) :
    '\r' ∉ nodesText ns := by
  induction ns with
  | nil => simp [nodesText]
  | cons n ns ih =>
    obtain ⟨hn, hns⟩ := List.forall_mem_cons.mp h
    rw [nodesText, List.mem_append]
    exact fun hmem => hmem.elim hn (ih hns)

/-- **The text of a regular node is on unified lines.** -/
theorem not_mem_nodeText {keepsNotes : Bool} {outer : List Declaration} {n : Node}
    (h : n.Regular keepsNotes outer) (hproper : n.Proper) : '\r' ∉ nodeText n := by
  induction h with
  | @element outer name declared attributes children _ _ _ ih =>
    cases hproper with
    | element hname hdeclared hattributes hchildren =>
      have hgiven := not_mem_attributes (proper_written hdeclared hattributes)
      have hinner := not_mem_nodesText fun m hm => ih m hm (hchildren m hm)
      have htag := not_mem_name hname
      rw [nodeText_element]
      split <;> simp [hgiven, hinner, htag]
  | text t =>
    intro hmem
    obtain ⟨c, _, hc⟩ := List.mem_flatMap.mp hmem
    exact not_mem_textChar c hc
  | comment _ hlines => simpa [nodeText] using hlines
  | @instruction _ target data _ hlines =>
    cases hproper with
    | instruction hi =>
      have htarget : '\r' ∉ target.toList := fun hmem =>
        absurd (isNameChar_of_isName hi.isName _ hmem) (by decide)
      rw [nodeText]
      split <;> simp [htarget, hlines]
  | reference name =>
    cases hproper with
    | reference hname => exact not_mem_referenceText hname

/-! ## §5. Documents. -/

theorem exists_nodeText_element {name : Name} (hname : name.written.Proper)
    (declared : List Declaration) (attributes : List Attribute) (children : List Node) :
    ∃ c more, nodeText (.element name declared attributes children) = '<' :: c :: more
      ∧ isNameStart c = true := by
  obtain ⟨c, more, hcons, hstart⟩ := exists_nameStart hname
  have htext := nodeText_element name declared attributes children
  rw [hcons, List.cons_append] at htext
  exact ⟨c, _, htext, hstart⟩

/-- A word that opens other markup does not open a tag. -/
theorem word?_tag {c d : Char} {word : String} {rest : List Char} (hword : word.toList = '<' :: d :: rest)
    (hc : isNameStart c = true) (hd : isNameStart d = false) (more : List Char) :
    word? word ('<' :: c :: more) = none := by
  have hne : d ≠ c := by
    rintro rfl
    rw [hc] at hd
    cases hd
  rw [word?, hword, after?, if_pos rfl, after?, if_neg hne]

/-- Nothing stands before a root element at the start of a text. -/
theorem beforeRoot?_tag {c : Char} (hc : isNameStart c = true) (more : List Char) :
    beforeRoot? none ('<' :: c :: more) = some (Doctype.empty, '<' :: c :: more) := by
  have hpass : pass? none ('<' :: c :: more) = some (none, '<' :: c :: more) := by
    unfold pass?
    rw [word?_tag rfl hc (by decide), word?_tag rfl hc (by decide), word?_tag rfl hc (by decide)]
  rw [beforeRoot?.eq_def]
  dsimp only
  rw [if_neg (by decide), hpass]
  exact if_neg (by simp)

/-- A text that begins with a tag has no prolog. -/
theorem read?_tag {c : Char} (hc : isNameStart c = true) (keepsNotes : Bool) (more : List Char) :
    read? keepsNotes ('<' :: c :: more) = document? keepsNotes ⟨none, false⟩ ('<' :: c :: more) := by
  have hopening : ((word? "<?xml" ('<' :: c :: more)).filter
      fun rest => (rest.head?.map isSpace).getD false) = none := by
    rw [word?_tag rfl hc (by decide)]
    rfl
  unfold read?
  dsimp only
  split
  next rest hsome => cases hopening.symm.trans hsome
  next => rfl

/-- The setting that the text of an element is read in: nothing is declared. -/
def bareSetting (keepsNotes : Bool) : Setting := ⟨Doctype.empty, false, keepsNotes⟩

/-- The text of a regular element is read by building its items, however their characters are
divided. -/
theorem exists_read?_nodeText {keepsNotes : Bool} {n : Node} (h : n.Regular keepsNotes [])
    (hproper : n.Proper) (hmarkup : n.name?.isSome = true) :
    ∃ items, spell items = itemsIn n ∧ read? keepsNotes (nodeText n)
      = (Builder.run (bareSetting keepsNotes) (bareSetting keepsNotes).refers ⟨[], none⟩ items).bind
          fun
          | ⟨[], some root⟩ => some ⟨[], root⟩
          | _ => none := by
  obtain ⟨items, hitems, hspell⟩ := exists_spelled_nodeText hproper hmarkup
  have hlines := unifyLines_of_not_mem (not_mem_nodeText h hproper)
  refine ⟨items, hspell, ?_⟩
  cases n with
  | element name declared attributes children =>
    cases hproper with
    | element hname =>
      obtain ⟨c, more, htext, hstart⟩ := exists_nodeText_element hname declared attributes children
      rw [htext, read?_tag hstart, ← htext, document?, decode?]
      dsimp only [Option.bind_eq_bind, Option.bind_some]
      rw [hlines, htext, beforeRoot?_tag hstart, ← htext]
      dsimp only [Option.bind_some]
      rw [hitems]
      rfl
  | _ => cases hmarkup

/-- **The text of a regular element without references is read as the element**, with texts that hold
no characters left out. -/
theorem read?_nodeText {keepsNotes : Bool} {n : Node} (h : n.Regular keepsNotes [])
    (hproper : n.Proper) (hmarkup : n.name?.isSome = true) (hplain : holdsReference n = false) :
    read? keepsNotes (nodeText n) = some ⟨[], n.tidy⟩ := by
  obtain ⟨items, hspell, hread⟩ := exists_read?_nodeText h hproper hmarkup
  cases h with
  | @element _ name declared attributes children hopens hapart hchildren =>
    cases hproper with
    | element _ _ hattributes hproper =>
      rw [holdsReference, Bool.or_eq_false_iff] at hplain
      -- the builder starts with nothing open, so the element is delivered as the root
      have hrun : Builder.run (bareSetting keepsNotes) (bareSetting keepsNotes).refers ⟨[], none⟩
          items = some ⟨[], some (Node.tidy (.element name declared attributes children))⟩ := by
        refine run_of_spell ?_
        rw [hspell, run_element (b := ⟨[], none⟩) rfl rfl hopens
          (fun a ha => (hattributes a ha).value) hplain.1 hapart
          fun m hm => rebuilds_of_regular rfl (hchildren m hm) (hproper m hm)
            (holdsReference_of_mem hplain.2 m hm)]
        rfl
      rw [hread, hrun]
      rfl
  | _ => cases hmarkup

end ControlSurface.Xml
