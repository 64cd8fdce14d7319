/-
  ControlSurface.Proofs.Svg.Remaining
  ───────────────────────────────────
  What sanitizing leaves.  Every element that is not blocked stays in its place with its inactive
  attributes, and so do comments, instructions and references; of the characters, those go that
  stand between a blocked element and the next node.  So everything but the active content is in the
  result exactly if no text follows a blocked element (`keeps_rest_iff`).
-/
import ControlSurface.Proofs.Svg.Inert
import ControlSurface.Proofs.Svg.Passes

namespace ControlSurface.Xml

/-! ## §1. The contents of a text. -/

/-- An item with the tag of an empty element as two tags. -/
def Item.opened : Item → List Item
  | .start name given true => [.start name given false, .finish name]
  | item => [item]

/-- What items hold: tags that open and close, and characters one by one. -/
def contents (items : List Item) : List Item := (spell items).flatMap Item.opened

/-- Whether an item is a character. -/
def Item.isCharacter : Item → Bool
  | .char _ => true
  | _ => false

/-- Items without the characters: tags with their attributes, comments, instructions, references. -/
def markup (items : List Item) : List Item := items.filter fun i => !i.isCharacter

theorem markup_append (items more : List Item) :
    markup (items ++ more) = markup items ++ markup more := List.filter_append ..

theorem markup_chars (cs : List Char) : markup (cs.map .char) = [] :=
  List.filter_eq_nil_iff.mpr fun i hi => by
    obtain ⟨c, _, rfl⟩ := List.mem_map.mp hi
    exact Bool.false_ne_true

theorem opened_chars (cs : List Char) : (cs.map Item.char).flatMap Item.opened = cs.map .char := by
  induction cs with
  | nil => rfl
  | cons c cs ih =>
    rw [List.map_cons, List.flatMap_cons, ih]
    rfl

/-- An element with its tags open, whether it has children or not. -/
theorem opened_element (name : Name) (declared : List Declaration) (attributes : List Attribute)
    (children : List Node) :
    (itemsIn (.element name declared attributes children)).flatMap Item.opened
      = .start name.written ((written declared attributes).map TagAttribute.tidy) false
        :: ((itemsInAll children).flatMap Item.opened ++ [.finish name.written]) := by
  rw [itemsIn]
  cases children with
  | nil => rfl
  | cons n rest =>
    show Item.opened _ ++ (itemsInAll (n :: rest) ++ [Item.finish name.written]).flatMap Item.opened
      = _
    rw [List.flatMap_append]
    rfl

end ControlSurface.Xml

namespace ControlSurface.Svg

open ControlSurface.Outcome ControlSurface.Text ControlSurface.Xml

/-! ## §2. Everything but the active content. -/

/-- Whether a node is a blocked element. -/
def isBlockedNode (n : Node) : Bool := (n.name?.map isBlocked).getD false

/-- The attributes of an element that are not active. -/
def inert (d : Document) (given : List Attribute) : List Attribute :=
  given.filter fun a => !isActive d a

mutual
/-- What a node holds besides active content, in document order.  Attributes stand as they are read
back. -/
def restIn (d : Document) : Node → List Xml.Item
  | .element name declared attributes children =>
    .start name.written ((written declared (inert d attributes)).map TagAttribute.tidy) false
      :: (restInAll d children ++ [.finish name.written])
  | .text s => s.toList.map .char
  | .comment s => [.comment s]
  | .instruction target data => [.instruction target data]
  | .reference name => [.reference name]

/-- What nodes hold besides active content, in document order. -/
def restInAll (d : Document) : List Node → List Xml.Item
  | [] => []
  | n :: rest => (if isBlockedNode n then [] else restIn d n) ++ restInAll d rest
end

/-- Text follows a blocked element, somewhere outside of all blocked elements. -/
inductive LosesText : Node → Prop where
  | here {name : Name} {declared : List Declaration} {attributes : List Attribute}
      {children : List Node} {n : Node} {s : String} (h : [n, .text s] <:+: children)
      (hn : isBlockedNode n = true) (hs : s ≠ "") :
      LosesText (.element name declared attributes children)
  | inside {name : Name} {declared : List Declaration} {attributes : List Attribute}
      {children : List Node} {n : Node} (h : n ∈ children) (hn : isBlockedNode n = false)
      (hlost : LosesText n) : LosesText (.element name declared attributes children)

/-- Whether nodes begin with text. -/
def textFirst : List Node → Bool
  | .text s :: _ => s != ""
  | _ => false

mutual
/-- Whether text follows a blocked element in a node. -/
def losesText : Node → Bool
  | .element _ _ _ children => losesAmong children
  | _ => false

/-- Whether text follows a blocked element among nodes or in one of them that is not blocked. -/
def losesAmong : List Node → Bool
  | [] => false
  | n :: rest => (if isBlockedNode n then textFirst rest else losesText n) || losesAmong rest
end

theorem textFirst_iff {ns : List Node} :
    textFirst ns = true ↔ ∃ s, [.text s] <+: ns ∧ s ≠ "" := by
  cases ns with
  | nil => simp [textFirst]
  | cons n rest => cases n <;> simp [textFirst, List.cons_prefix_cons]

/-- Text behind a node of some kind stands behind the first node or behind a later one. -/
theorem exists_text_behind_cons {P : Node → Prop} {n : Node} {rest : List Node} :
    (∃ m s, [m, .text s] <:+: n :: rest ∧ P m ∧ s ≠ "")
      ↔ (P n ∧ textFirst rest = true) ∨ ∃ m s, [m, .text s] <:+: rest ∧ P m ∧ s ≠ "" := by
  rw [textFirst_iff]
  constructor
  · rintro ⟨m, s, hinfix, hm, hs⟩
    rcases List.infix_cons_iff.mp hinfix with hprefix | hinfix
    · obtain ⟨rfl, hnext⟩ := List.cons_prefix_cons.mp hprefix
      exact Or.inl ⟨hm, s, hnext, hs⟩
    · exact Or.inr ⟨m, s, hinfix, hm, hs⟩
  · rintro (⟨hn, s, hprefix, hs⟩ | ⟨m, s, hinfix, hm, hs⟩)
    · exact ⟨n, s, (List.cons_prefix_cons.mpr ⟨rfl, hprefix⟩).isInfix, hn, hs⟩
    · exact ⟨m, s, List.infix_cons hinfix, hm, hs⟩

theorem losesAmong_iff {ns : List Node} : losesAmong ns = true
    ↔ (∃ n s, [n, .text s] <:+: ns ∧ isBlockedNode n = true ∧ s ≠ "")
      ∨ ∃ n ∈ ns, isBlockedNode n = false ∧ losesText n = true := by
  induction ns with
  | nil => simp [losesAmong]
  | cons n rest ih =>
    rw [losesAmong, Bool.or_eq_true, ih, exists_text_behind_cons, List.exists_mem_cons_iff]
    cases isBlockedNode n
    · simp [or_left_comm]
    · simp [or_assoc]

mutual
theorem losesText_of (n : Node) (h : losesText n = true) : LosesText n := by
  match n with
  | .element name declared attributes children =>
    obtain ⟨m, s, hinfix, hm, hs⟩ | ⟨m, hm, hkept, hlost⟩ := losesAmong_iff.mp h
    · exact .here hinfix hm hs
    · exact .inside hm hkept (losesText_of_mem children m hm hlost)
  | .text _ | .comment _ | .instruction _ _ | .reference _ => cases h

theorem losesText_of_mem (ns : List Node) :
    ∀ n ∈ ns, losesText n = true → LosesText n := by
  match ns with
  | [] => simp
  | n :: rest => exact List.forall_mem_cons.mpr ⟨losesText_of n, losesText_of_mem rest⟩
end

/-- **Whether text is lost can be computed.** -/
theorem losesText_iff {n : Node} : losesText n = true ↔ LosesText n := by
  refine ⟨losesText_of n, fun h => ?_⟩
  induction h with
  | here h hn hs => exact losesAmong_iff.mpr (Or.inl ⟨_, _, h, hn, hs⟩)
  | inside h hn _ ih => exact losesAmong_iff.mpr (Or.inr ⟨_, h, hn, ih⟩)

instance : DecidablePred LosesText := fun _ => decidable_of_iff _ losesText_iff

/-! ## §3. What is left. -/

/-- No part can make up for what another one lost. -/
theorem append_eq_iff_of_sublist {α : Type} {xs ys xs' ys' : List α} (h : xs.Sublist ys)
    (h' : xs'.Sublist ys') : xs ++ xs' = ys ++ ys' ↔ xs = ys ∧ xs' = ys' := by
  constructor
  · intro heq
    have hlength := congrArg List.length heq
    rw [List.length_append, List.length_append] at hlength
    have hle := h.length_le
    have hle' := h'.length_le
    exact ⟨h.eq_of_length (by omega), h'.eq_of_length (by omega)⟩
  · rintro ⟨rfl, rfl⟩
    rfl

/-- Items that are left of others: all markup and some characters, and all of them unless some are
lost. -/
structure Leaves (all left : List Xml.Item) (lost : Bool) : Prop where
  markup : markup left = markup all
  sublist : left.Sublist all
  same : left = all ↔ lost = false

theorem leaves_refl (items : List Xml.Item) : Leaves items items false :=
  ⟨rfl, List.Sublist.refl _, iff_of_true rfl rfl⟩

/-- Characters that are lost. -/
theorem leaves_nothing (s : String) : Leaves (s.toList.map .char) [] (s != "") := by
  refine ⟨(markup_chars _).symm, List.nil_sublist _, ?_⟩
  rw [bne_eq_false_iff_eq, eq_comm, List.map_eq_nil_iff, String.toList_eq_nil_iff]

theorem Leaves.append {all left more kept : List Xml.Item} {lost lost' : Bool}
    (h : Leaves all left lost) (h' : Leaves more kept lost') :
    Leaves (all ++ more) (left ++ kept) (lost || lost') := by
  refine ⟨?_, h.sublist.append h'.sublist, ?_⟩
  · rw [markup_append, markup_append, h.markup, h'.markup]
  · rw [Bool.or_eq_false_iff, ← h.same, ← h'.same, append_eq_iff_of_sublist h.sublist h'.sublist]

theorem Leaves.enclose {all left : List Xml.Item} {lost : Bool} (h : Leaves all left lost)
    (first last : Xml.Item) :
    Leaves (first :: (all ++ [last])) (first :: (left ++ [last])) lost := by
  have hall := (leaves_refl [first]).append (h.append (leaves_refl [last]))
  rwa [Bool.or_false, Bool.false_or] at hall

/-- What is left of a node. -/
def leftIn (d : Document) (n : Node) : List Xml.Item :=
  (itemsIn (mapAttributes (inert d) (dropBelow isBlocked n))).flatMap Xml.Item.opened

/-- What is left of nodes, after a blocked element or not. -/
def leftAmong (d : Document) (after : Bool) (ns : List Node) : List Xml.Item :=
  (itemsInAll (mapAttributesAmong (inert d) (dropAmong isBlocked after ns))).flatMap Xml.Item.opened

theorem leftIn_element (d : Document) (name : Name) (declared : List Declaration)
    (attributes : List Attribute) (children : List Node) :
    leftIn d (.element name declared attributes children)
      = .start name.written ((written declared (inert d attributes)).map TagAttribute.tidy) false
        :: (leftAmong d false children ++ [.finish name.written]) := by
  rw [leftIn, dropBelow, mapAttributes, opened_element]
  rfl

section Among

variable (d : Document) (after : Bool) (rest : List Node)

theorem leftAmong_text (s : String) : leftAmong d after (.text s :: rest)
    = (if after then [] else s.toList.map .char) ++ leftAmong d false rest := by
  rw [leftAmong, dropAmong]
  cases after with
  | true => rfl
  | false =>
    show (itemsInAll (mapAttributesAmong (inert d) (.text s :: _))).flatMap Xml.Item.opened = _
    rw [mapAttributesAmong, itemsInAll, List.flatMap_append, mapAttributes, itemsIn, opened_chars]
    · rfl
    · simp

/-- Of a node that is no text, what is left is left before the rest, if the node is not blocked. -/
theorem leftAmong_markup {n : Node} (h : n.isText = false) : leftAmong d after (n :: rest)
    = if isBlockedNode n then leftAmong d true rest else leftIn d n ++ leftAmong d false rest := by
  rw [leftAmong, dropAmong_eq, without, h, if_neg (by simp)]
  show (itemsInAll (mapAttributesAmong (inert d) (if isBlockedNode n then _ else _))).flatMap _ = _
  cases isBlockedNode n with
  | true =>
    rw [if_pos rfl, if_pos rfl, ← dropAmong_eq]
    rfl
  | false =>
    rw [if_neg (by simp), if_neg (by simp), ← dropAmong_eq, mapAttributesAmong, itemsInAll,
      List.flatMap_append]
    rfl

end Among

mutual
/-- **What is left of a node** is everything but active content, unless text follows a blocked
element in it. -/
theorem leaves_node (d : Document) : (n : Node) → Leaves (restIn d n) (leftIn d n) (losesText n)
  | .element name declared attributes children => by
    rw [leftIn_element, restIn, losesText]
    have hinner := leaves_nodes d false children
    rw [Bool.false_and, Bool.false_or] at hinner
    exact hinner.enclose _ _
  | .text s => by
    have hself : leftIn d (.text s) = s.toList.map .char := opened_chars s.toList
    rw [hself, restIn]
    exact leaves_refl _
  | .comment s => leaves_refl _
  | .instruction target data => leaves_refl _
  | .reference name => leaves_refl _

/-- What is left of nodes after a blocked element, or after another one. -/
theorem leaves_nodes (d : Document) (after : Bool) :
    (ns : List Node) → Leaves (restInAll d ns) (leftAmong d after ns)
      (after && textFirst ns || losesAmong ns)
  | [] => by
    cases after <;> exact leaves_refl []
  | n :: rest => by
    rw [restInAll, losesAmong]
    cases htext : n.isText with
    | true =>
      cases n with
      | text s =>
        -- this text goes if the node before is blocked, and is followed by the rest in any case
        have hrest := leaves_nodes d false rest
        rw [leftAmong_text]
        cases after with
        | true => exact (leaves_nothing s).append hrest
        | false => exact (leaves_refl _).append hrest
      | _ => cases htext
    | false =>
      have hfirst : textFirst (n :: rest) = false := by cases n <;> first | rfl | cases htext
      rw [leftAmong_markup d after rest htext, hfirst, Bool.and_false, Bool.false_or]
      cases isBlockedNode n with
      | true => exact leaves_nodes d true rest
      | false => exact (leaves_node d n).append (leaves_nodes d false rest)
end

/-! ## §4. Sanitized text. -/

/-- **Sanitizing removes only what it blocks, but for text after a blocked element.**  The text that
`sanitize` returns holds every element that is not blocked, in its place and with all attributes
that are not active, and every comment, instruction and reference.  It holds all characters outside
of blocked elements too, and so everything but the active content, exactly if no blocked element is
followed by text. -/
theorem keeps_rest_iff {text out : String} (h : sanitize text = .ok out) :
    ∃ d items, parse true text = .ok d ∧ items? out.toList = some items
      ∧ markup (contents items) = markup (restIn d d.root)
      ∧ (contents items).Sublist (restIn d d.root)
      ∧ (contents items = restIn d d.root ↔ ¬ LosesText d.root) := by
  obtain ⟨d, hd, hout⟩ := (bind_eq_ok_iff _ _ _).mp h
  cases hout
  obtain ⟨hproper, hmarkup, -⟩ := root_of_parse hd
  obtain ⟨items, hitems, hspell⟩ :=
    exists_spelled_nodeText (proper_strip hproper) (isSome_strip hmarkup)
  have hleft : contents items = leftIn d d.root := by
    rw [contents, hspell]
    rfl
  have hleaves := leaves_node d d.root
  rw [← hleft] at hleaves
  refine ⟨d, items, hd, ?_, hleaves.markup, hleaves.sublist, ?_⟩
  · rw [Xml.print, String.toList_ofList, hitems]
  · rw [hleaves.same, ← losesText_iff, Bool.not_eq_true]

/-- A graphic with text before a script, between elements and inside of foreign content, but none
after a blocked element. -/
def spacedGraphic : String :=
  "<svg onload='a()'>b<g id='c'>d<script>e</script></g>f<h href='javascript:i' j='k'>l</h>"
    ++ "<foreignObject>m<n>o</n>p</foreignObject><!-- q --></svg>"

theorem spacedGraphic_keeps_rest :
    sanitize spacedGraphic
        = .ok "<svg>b<g id=\"c\">d</g>f<h j=\"k\">l</h><!-- q --></svg>"
      ∧ ∃ d items, parse true spacedGraphic = .ok d
        ∧ items? "<svg>b<g id=\"c\">d</g>f<h j=\"k\">l</h><!-- q --></svg>".toList = some items
        ∧ contents items = restIn d d.root := by
  have hout : sanitize spacedGraphic
      = .ok "<svg>b<g id=\"c\">d</g>f<h j=\"k\">l</h><!-- q --></svg>" := by decide +kernel
  obtain ⟨d, items, hd, hitems, -, -, hiff⟩ := keeps_rest_iff hout
  have hall : (parse true spacedGraphic).toOption.all (fun d => decide (¬ LosesText d.root))
      = true := by decide +kernel
  rw [hd] at hall
  exact ⟨hout, d, items, hd, hitems, hiff.mpr (of_decide_eq_true hall)⟩

/-- Text after a script goes with it. -/
theorem text_after_script_lost :
    sanitize "<svg>a<script/>b</svg>" = .ok "<svg>a</svg>"
      ∧ (items? "<svg>a</svg>".toList).map contents
        = some [.start ⟨none, "svg"⟩ [] false, .char 'a', .finish ⟨none, "svg"⟩]
      ∧ ∃ d, parse true "<svg>a<script/>b</svg>" = .ok d
        ∧ restIn d d.root
          = [.start ⟨none, "svg"⟩ [] false, .char 'a', .char 'b', .finish ⟨none, "svg"⟩] := by
  refine ⟨by decide +kernel, by decide +kernel, ?_⟩
  have hfound : (parse true "<svg>a<script/>b</svg>").toOption.any (fun d => decide (restIn d d.root
      = [.start ⟨none, "svg"⟩ [] false, .char 'a', .char 'b', .finish ⟨none, "svg"⟩])) = true := by
    decide +kernel
  obtain ⟨d, hd, hrest⟩ := exists_of_any hfound
  exact ⟨d, hd, of_decide_eq_true hrest⟩

end ControlSurface.Svg
