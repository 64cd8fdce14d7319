/-
  ControlSurface.Proofs.Svg.Passes
  ────────────────────────────────
  Passes over a tree that thin it out.  A pass keeps the name and the declarations of an element,
  changes its attributes by one function, and leaves out some of the nodes in it; what it leaves is
  passed over in its turn.  All that is told of a pass is which elements it drops and what becomes
  of attributes, so passes can be put one after the other (`Pass.comp`), and what holds of every
  pass holds of the whole row.

  Main results:
    * `Pass.regular`, `Pass.proper`, `Pass.plain` — what a pass leaves can be written and read again
      if what it was given could.
    * `Pass.treeOf` — the elements of what is left are those of the tree without the dropped ones,
      in their order and nesting.
    * `pass_dropBelow`, `pass_collapseSpace`, `pass_pruneBelow`, `pass_mapAttributes` — the passes
      of the optimizer.
-/
import ControlSurface.Proofs.Xml.Rebuilding
import ControlSurface.Svg.Optimize

namespace ControlSurface.Svg

open ControlSurface.Text ControlSurface.Xml

/-! ## §1. Trees of elements. -/

/-- Whether a node is an element. -/
def isElement (n : Node) : Bool := n.name?.isSome

/-- The elements of a document: a view of the name of each, its attributes with what is read of
their values, and the elements in it. -/
inductive ElementTree (α : Type) where
  | element (name : α) (attributes : List (Name × List Char)) (children : List (ElementTree α))

section Trees

variable {α : Type} (view : Name → α) (read : List Attribute → List (Name × List Char))
  (gone : Node → Bool)

mutual
/-- The tree of an element, without the elements that are gone. -/
def treeOf : Node → Option (ElementTree α)
  | .element name _ attributes children =>
    some (.element (view name) (read attributes) (treesOf children))
  | _ => none

/-- The trees of the elements among nodes, without those that are gone. -/
def treesOf : List Node → List (ElementTree α)
  | [] => []
  | n :: rest => if gone n then treesOf rest else (treeOf n).toList ++ treesOf rest
end

theorem treesOf_eq (ns : List Node) :
    treesOf view read gone ns
      = ((ns.filter isElement).filter fun n => !gone n).filterMap (treeOf view read gone) := by
  induction ns with
  | nil => rfl
  | cons n ns ih =>
    rw [treesOf, ih]
    cases hgone : gone n with
    | true => cases n <;> simp [isElement, Node.name?, hgone]
    | false => cases n <;> simp [isElement, Node.name?, hgone, treeOf]

/-- All trees of the elements among nodes, none of which is gone. -/
theorem treesOf_all (ns : List Node) :
    treesOf view read (fun _ => false) ns = ns.filterMap (treeOf view read fun _ => false) := by
  induction ns with
  | nil => rfl
  | cons n ns ih =>
    rw [treesOf, if_neg Bool.false_ne_true, ih]
    cases n <;> rfl

end Trees

/-! ## §2. Passes. -/

/-- Whether the text at the start of some nodes is blank, if there is any. -/
def leadingBlank : List Node → Bool
  | .text s :: _ => isBlankString s
  | _ => true

/-- What a pass leaves of the nodes in an element, `drops` telling which elements it drops. -/
structure Thins (drops : Node → Bool) (pass : Node → Node) (before after : List Node) : Prop where
  nodes : ∀ m ∈ after, ∃ n ∈ before, m = pass n
  elements : after.filter isElement
    = ((before.filter isElement).filter fun n => !drops n).map pass
  apart : Apart Node.isText after
  leading : leadingBlank after = leadingBlank before

/-- A pass over a tree: `f` is what becomes of attributes, `drops` tells which elements are dropped
where they stand in other ones. -/
structure Pass (f : List Attribute → List Attribute) (drops : Node → Bool) (pass : Node → Node) :
    Prop where
  element : ∀ (name : Name) (declared : List Declaration) (attributes : List Attribute)
    {children : List Node}, Apart Node.isText children →
      ∃ after, pass (.element name declared attributes children)
          = .element name declared (f attributes) after
        ∧ Thins drops pass children after
  other : ∀ n, isElement n = false → pass n = n

variable {f g : List Attribute → List Attribute} {drops more : Node → Bool}
  {pass next : Node → Node}

theorem Thins.comp {before between after : List Node} (h : Thins drops pass before between)
    (hnext : Thins more next between after) :
    Thins (fun n => drops n || more (pass n)) (next ∘ pass) before after := by
  refine ⟨fun m hm => ?_, ?_, hnext.apart, hnext.leading.trans h.leading⟩
  · obtain ⟨k, hk, rfl⟩ := hnext.nodes m hm
    obtain ⟨n, hn, rfl⟩ := h.nodes k hk
    exact ⟨n, hn, rfl⟩
  · rw [hnext.elements, h.elements, List.filter_map, List.map_map, List.filter_filter]
    refine congrArg (List.map (next ∘ pass)) (congrArg (List.filter · _) (funext fun n => ?_))
    simp [Bool.not_or, Bool.and_comm]

/-- **Passes one after the other are one pass.** -/
theorem Pass.comp (h : Pass f drops pass) (hnext : Pass g more next) :
    Pass (g ∘ f) (fun n => drops n || more (pass n)) (next ∘ pass) := by
  constructor
  · intro name declared attributes children hapart
    obtain ⟨between, hpass, hthins⟩ := h.element name declared attributes hapart
    -- the first pass keeps text apart, as the second one needs it
    obtain ⟨after, hafter, hmore⟩ := hnext.element name declared (f attributes) hthins.apart
    exact ⟨after, by rw [Function.comp, hpass, hafter]; rfl, hthins.comp hmore⟩
  · intro n hn
    rw [Function.comp, h.other n hn, hnext.other n hn]

/-- The trees of what a pass leaves. -/
theorem Pass.treeOf {α : Type} (h : Pass f drops pass) (view : Name → α)
    (read : List Attribute → List (Name × List Char)) {keepsNotes : Bool}
    {outer : List Declaration} {n : Node} (hn : n.Regular keepsNotes outer) :
    treeOf view read (fun _ => false) (pass n) = treeOf view (read ∘ f) drops n := by
  induction hn with
  | @element outer name declared attributes children _ hapart _ ih =>
    obtain ⟨after, hpass, hthins⟩ := h.element name declared attributes hapart
    -- only elements have trees, and the elements that are left are those of the pass
    have helements : after.filterMap (Svg.treeOf view read fun _ => false)
        = (after.filter isElement).filterMap (Svg.treeOf view read fun _ => false) := by
      rw [← treesOf_all, treesOf_eq, List.filter_eq_self (p := fun _ => !false) |>.mpr
        fun _ _ => rfl]
    rw [hpass, Svg.treeOf, Svg.treeOf, treesOf_all, treesOf_eq, helements, hthins.elements,
      List.filterMap_map]
    refine congrArg (fun trees => some (ElementTree.element _ _ trees))
      (List.filterMap_congr fun c hc => ih c ?_)
    exact List.mem_of_mem_filter (List.mem_of_mem_filter hc)
  | _ => rw [h.other _ rfl]; rfl

/-- A pass makes an element of an element, and leaves text alone. -/
theorem Pass.element_or_text (h : Pass f drops pass) {keepsNotes : Bool}
    {outer : List Declaration} {n : Node} (hn : n.Regular keepsNotes outer)
    (hkind : isElement n = true ∨ n.isText = true) :
    isElement (pass n) = true ∨ (pass n).isText = true := by
  cases hn with
  | element _ hapart _ =>
    obtain ⟨after, hpass, _⟩ := h.element _ _ _ hapart
    rw [hpass]
    exact Or.inl rfl
  | _ =>
    rw [h.other _ rfl]
    exact hkind

/-- What a pass leaves is regular if elements with the changed attributes open as before. -/
theorem Pass.regular (h : Pass f drops pass)
    (hopens : ∀ {outer name declared attributes}, Reopens outer name declared attributes →
      Reopens outer name declared (f attributes))
    {keepsNotes : Bool} {outer : List Declaration} {n : Node} (hn : n.Regular keepsNotes outer) :
    (pass n).Regular keepsNotes outer := by
  induction hn with
  | @element outer name declared attributes children hown hapart _ ih =>
    obtain ⟨after, hpass, hthins⟩ := h.element name declared attributes hapart
    rw [hpass]
    refine .element (hopens hown) hthins.apart fun m hm => ?_
    obtain ⟨c, hc, rfl⟩ := hthins.nodes m hm
    exact ih c hc
  | text s => rw [h.other _ rfl]; exact .text s
  | comment hkeeps hlines => rw [h.other _ rfl]; exact .comment hkeeps hlines
  | instruction hkeeps hlines => rw [h.other _ rfl]; exact .instruction hkeeps hlines
  | reference name => rw [h.other _ rfl]; exact .reference name

/-- What a pass leaves is proper if the changed attributes are. -/
theorem Pass.proper (h : Pass f drops pass)
    (hattributes : ∀ given, (∀ a ∈ given, Attribute.Proper a) → ∀ a ∈ f given, a.Proper)
    {keepsNotes : Bool} {outer : List Declaration} {n : Node} (hn : n.Regular keepsNotes outer)
    (hproper : n.Proper) : (pass n).Proper := by
  induction hn with
  | @element outer name declared attributes children _ hapart _ ih =>
    obtain ⟨after, hpass, hthins⟩ := h.element name declared attributes hapart
    cases hproper with
    | element hname hdeclared hown hchildren =>
      rw [hpass]
      refine .element hname hdeclared (hattributes _ hown) fun m hm => ?_
      obtain ⟨c, hc, rfl⟩ := hthins.nodes m hm
      exact ih c hc (hchildren c hc)
  | _ =>
    rw [h.other _ rfl]
    exact hproper

/-- Whether some attributes refer to entities. -/
def refer (attributes : List Attribute) : Bool :=
  attributes.any fun a => a.value.any fun p => !p.isText

theorem holdsReference_element (name : Name) (declared : List Declaration)
    (attributes : List Attribute) (children : List Node) :
    holdsReference (.element name declared attributes children)
      = (refer attributes || anyHoldsReference children) := by
  rw [holdsReference, refer]

theorem anyHoldsReference_eq_false_iff {ns : List Node} :
    anyHoldsReference ns = false ↔ ∀ n ∈ ns, holdsReference n = false := by
  refine ⟨holdsReference_of_mem, fun h => ?_⟩
  induction ns with
  | nil => rfl
  | cons n ns ih =>
    obtain ⟨hn, hns⟩ := List.forall_mem_cons.mp h
    rw [anyHoldsReference, hn, ih hns, Bool.or_false]

/-- A pass that adds no reference to attributes adds none at all. -/
theorem Pass.plain (h : Pass f drops pass)
    (hattributes : ∀ given, refer given = false → refer (f given) = false)
    {keepsNotes : Bool} {outer : List Declaration} {n : Node} (hn : n.Regular keepsNotes outer)
    (hplain : holdsReference n = false) : holdsReference (pass n) = false := by
  induction hn with
  | @element outer name declared attributes children _ hapart _ ih =>
    obtain ⟨after, hpass, hthins⟩ := h.element name declared attributes hapart
    rw [holdsReference_element, Bool.or_eq_false_iff] at hplain
    rw [hpass, holdsReference_element, hattributes _ hplain.1, Bool.false_or,
      anyHoldsReference_eq_false_iff]
    intro m hm
    obtain ⟨c, hc, rfl⟩ := hthins.nodes m hm
    exact ih c hc (holdsReference_of_mem hplain.2 c hc)
  | _ =>
    rw [h.other _ rfl]
    exact hplain

/-! ## §3. Leaving nodes out. -/

theorem leadingBlank_of_start {ns : List Node} (h : ∀ n ∈ ns.head?, n.isText = false) :
    leadingBlank ns = true := by
  cases ns with
  | nil => rfl
  | cons n ns =>
    cases n with
    | text s => cases h _ rfl
    | _ => rfl

/-- What begins with text only where the nodes before did, begins without where they did. -/
theorem start_of_start {before after : List Node}
    (h : ∀ m ∈ after.head?, m.isText = true → ∃ n ∈ before.head?, n.isText = true)
    (hbefore : ∀ n ∈ before.head?, n.isText = false) : ∀ m ∈ after.head?, m.isText = false := by
  intro m hm
  rw [Bool.eq_false_iff]
  intro hmtext
  obtain ⟨n, hn, hntext⟩ := h m hm hmtext
  rw [hbefore n hn] at hntext
  cases hntext

theorem apart_cons_markup {n : Node} {ns : List Node} (hn : n.isText = false)
    (h : Apart Node.isText ns) : Apart Node.isText (n :: ns) :=
  List.isChain_cons.mpr ⟨fun _ _ htext => absurd htext (by simp [hn]), h⟩

theorem isElement_of_isText {n : Node} (h : n.isText = true) : isElement n = false := by
  cases n with
  | text s => rfl
  | _ => cases h

theorem isText_of_isElement {n : Node} (h : isElement n = true) : n.isText = false := by
  cases n with
  | text s => cases h
  | _ => rfl

/-- Nodes without the elements of a class, each with the text after it; `after` tells that the node
before was dropped. -/
def without (drops : Node → Bool) (pass : Node → Node) (after : Bool) : List Node → List Node
  | [] => []
  | n :: rest =>
    if n.isText then
      if after then without drops pass false rest else n :: without drops pass false rest
    else if drops n then without drops pass true rest
    else pass n :: without drops pass false rest

theorem without_cons (after : Bool) (n : Node) (rest : List Node) :
    without drops pass after (n :: rest)
      = if n.isText then
          if after then without drops pass false rest else n :: without drops pass false rest
        else if drops n then without drops pass true rest
        else pass n :: without drops pass false rest := rfl

/-- A pass that makes an element of an element and leaves other nodes alone, and the elements that
it drops. -/
structure Drops (drops : Node → Bool) (pass : Node → Node) : Prop where
  drops : ∀ n, drops n = true → isElement n = true
  element : ∀ n, isElement n = true → isElement (pass n) = true
  other : ∀ n, isElement n = false → pass n = n

namespace Drops

theorem isText_pass (h : Drops drops pass) (n : Node) : (pass n).isText = n.isText := by
  cases hn : isElement n with
  | true => rw [isText_of_isElement (h.element n hn), isText_of_isElement hn]
  | false => rw [h.other n hn]

theorem isElement_pass (h : Drops drops pass) (n : Node) : isElement (pass n) = isElement n := by
  cases hn : isElement n with
  | true => exact h.element n hn
  | false => rw [h.other n hn, hn]

theorem pass_text (h : Drops drops pass) {n : Node} (hn : n.isText = true) : pass n = n := by
  refine h.other n ?_
  rw [Bool.eq_false_iff]
  intro helement
  rw [isText_of_isElement helement] at hn
  cases hn

variable (h : Drops drops pass) {after : Bool} {ns : List Node}
include h

theorem nodes : ∀ m ∈ without drops pass after ns, ∃ n ∈ ns, m = pass n := by
  induction ns generalizing after with
  | nil => exact fun _ hm => absurd hm List.not_mem_nil
  | cons n ns ih =>
    have hlater : ∀ {b m}, m ∈ without drops pass b ns → ∃ k ∈ n :: ns, m = pass k := by
      intro b m hm
      obtain ⟨k, hk, heq⟩ := ih m hm
      exact ⟨k, List.mem_cons_of_mem n hk, heq⟩
    rw [without_cons]
    split_ifs with htext hafter hdrop
    · exact fun m hm => hlater hm
    · exact List.forall_mem_cons.mpr
        ⟨⟨n, List.mem_cons_self .., (h.pass_text htext).symm⟩, fun m hm => hlater hm⟩
    · exact fun m hm => hlater hm
    · exact List.forall_mem_cons.mpr ⟨⟨n, List.mem_cons_self .., rfl⟩, fun m hm => hlater hm⟩

theorem elements : (without drops pass after ns).filter isElement
    = ((ns.filter isElement).filter fun n => !drops n).map pass := by
  induction ns generalizing after with
  | nil => rfl
  | cons n ns ih =>
    rw [without_cons]
    split_ifs with htext hafter hdrop
    · simp [ih, isElement_of_isText htext]
    · simp [ih, isElement_of_isText htext]
    · simp [ih, h.drops n hdrop, hdrop]
    · cases helement : isElement n with
      | true => simp [ih, h.isElement_pass, helement, hdrop]
      | false => simp [ih, h.isElement_pass, helement]

/-- No text is left next to text, nor at the start unless there was text. -/
theorem apart (hapart : Apart Node.isText ns) :
    Apart Node.isText (without drops pass after ns)
      ∧ ∀ m ∈ (without drops pass after ns).head?, m.isText = true →
          after = false ∧ ∃ n ∈ ns.head?, n.isText = true := by
  induction ns generalizing after with
  | nil => exact ⟨List.isChain_nil, fun _ hm => by cases hm⟩
  | cons n ns ih =>
    obtain ⟨hnext, hrest⟩ := List.isChain_cons.mp hapart
    -- what comes after text does not begin with text, so neither does what is left of it
    have hbehind (htext : n.isText = true) :
        ∀ m ∈ (without drops pass false ns).head?, m.isText = false :=
      start_of_start (fun m hm hmtext => ((ih hrest).2 m hm hmtext).2)
        fun k hk => by simpa using hnext k hk htext
    rw [without_cons]
    split_ifs with htext hafter hdrop
    · -- text after what was dropped goes with it
      exact ⟨(ih hrest).1, fun m hm hmtext => absurd hmtext (by simp [hbehind htext m hm])⟩
    · refine ⟨List.isChain_cons.mpr ⟨fun m hm _ => hbehind htext m hm, (ih hrest).1⟩, ?_⟩
      exact fun _ _ _ => ⟨by simpa using hafter, n, rfl, htext⟩
    · -- what is left after a dropped element does not begin with text
      refine ⟨(ih hrest).1, fun m hm hmtext => ?_⟩
      cases ((ih hrest).2 m hm hmtext).1
    · have hmarkup : (pass n).isText = false := by simpa [h.isText_pass n] using htext
      refine ⟨apart_cons_markup hmarkup (ih hrest).1, fun m hm hmtext => ?_⟩
      obtain rfl : pass n = m := Option.some.inj hm
      rw [hmarkup] at hmtext
      cases hmtext

/-- **Nodes without some elements** are thinned out. -/
theorem thins (hapart : Apart Node.isText ns) :
    Thins drops pass ns (without drops pass false ns) := by
  obtain ⟨hleft, hstart⟩ : Apart Node.isText (without drops pass false ns) ∧ _ := h.apart hapart
  refine ⟨h.nodes, h.elements, hleft, ?_⟩
  cases ns with
  | nil => rfl
  | cons n ns =>
    cases htext : n.isText with
    | true =>
      cases n with
      | text s => rfl
      | _ => cases htext
    | false =>
      have hmarkup : ∀ k ∈ (n :: ns).head?, k.isText = false :=
        fun k hk => Option.some.inj hk ▸ htext
      rw [leadingBlank_of_start hmarkup]
      exact leadingBlank_of_start
        (start_of_start (fun m hm hmtext => (hstart m hm hmtext).2) hmarkup)

end Drops

/-! ## §4. The passes of the optimizer. -/

theorem dropAmong_eq (p : Name → Bool) (after : Bool) (ns : List Node) :
    dropAmong p after ns
      = without (fun n => (n.name?.map p).getD false) (dropBelow p) after ns := by
  induction ns generalizing after with
  | nil => rfl
  | cons n ns ih =>
    cases n with
    | text s => simp [dropAmong, without_cons, Node.isText, ih]
    | _ => simp [dropAmong, without_cons, Node.isText, ih]

theorem drops_dropBelow (p : Name → Bool) :
    Drops (fun n => (n.name?.map p).getD false) (dropBelow p) := by
  constructor
  · intro n hn
    cases n with
    | element => rfl
    | _ => cases hn
  · intro n hn
    cases n with
    | element => rfl
    | _ => cases hn
  · intro n hn
    cases n with
    | element => cases hn
    | _ => rfl

/-- Dropping the elements of a class. -/
theorem pass_dropBelow (p : Name → Bool) :
    Pass id (fun n => (n.name?.map p).getD false) (dropBelow p) := by
  refine ⟨fun name declared attributes children hapart => ?_, (drops_dropBelow p).other⟩
  refine ⟨dropAmong p false children, rfl, ?_⟩
  rw [dropAmong_eq]
  exact (drops_dropBelow p).thins hapart

theorem pruneAmong_eq (after : Bool) (ns : List Node) :
    pruneAmong after ns = without (fun n => isEmptyGroup (pruneBelow n)) pruneBelow after ns := by
  induction ns generalizing after with
  | nil => rfl
  | cons n ns ih =>
    cases n with
    | text s => simp [pruneAmong, without_cons, Node.isText, ih]
    | _ => simp [pruneAmong, without_cons, Node.isText, ih]

theorem drops_pruneBelow : Drops (fun n => isEmptyGroup (pruneBelow n)) pruneBelow := by
  constructor
  · intro n hn
    cases n with
    | element => rfl
    | _ => simp [pruneBelow, isEmptyGroup] at hn
  · intro n hn
    cases n with
    | element => rfl
    | _ => cases hn
  · intro n hn
    cases n with
    | element => cases hn
    | _ => rfl

/-- Dropping empty groups. -/
theorem pass_pruneBelow : Pass id (fun n => isEmptyGroup (pruneBelow n)) pruneBelow := by
  refine ⟨fun name declared attributes children hapart => ?_, drops_pruneBelow.other⟩
  refine ⟨pruneAmong false children, rfl, ?_⟩
  rw [pruneAmong_eq]
  exact drops_pruneBelow.thins hapart

theorem drops_mapAttributes (f : List Attribute → List Attribute) :
    Drops (fun _ => false) (mapAttributes f) := by
  constructor
  · intro n hn
    cases hn
  · intro n hn
    cases n with
    | element => rfl
    | _ => cases hn
  · intro n hn
    cases n with
    | element => cases hn
    | _ => rfl

theorem mapAttributesAmong_without (f : List Attribute → List Attribute) (ns : List Node) :
    mapAttributesAmong f ns = without (fun _ => false) (mapAttributes f) false ns := by
  induction ns with
  | nil => rfl
  | cons n ns ih =>
    cases n with
    | text s => simp [mapAttributesAmong, mapAttributes, without_cons, Node.isText, ih]
    | _ => simp [mapAttributesAmong, without_cons, Node.isText, ih]

/-- Changing attributes. -/
theorem pass_mapAttributes (f : List Attribute → List Attribute) :
    Pass f (fun _ => false) (mapAttributes f) := by
  refine ⟨fun name declared attributes children hapart => ?_, (drops_mapAttributes f).other⟩
  refine ⟨mapAttributesAmong f children, rfl, ?_⟩
  rw [mapAttributesAmong_without]
  exact (drops_mapAttributes f).thins hapart

section Collapse

variable {inText droppable : Bool} {ns : List Node}

theorem collapseSpace_of_not {n : Node} (hn : isElement n = false) : collapseSpace n = n := by
  cases n with
  | element => cases hn
  | _ => rfl

theorem isText_collapseSpace (n : Node) : (collapseSpace n).isText = n.isText := by
  cases n <;> rfl

theorem isElement_collapseSpace (n : Node) : isElement (collapseSpace n) = isElement n := by
  cases n <;> rfl

theorem collapseAmong_text (inText droppable : Bool) (s : String) (ns : List Node) :
    collapseAmong inText droppable (.text s :: ns)
      = if droppable && !inText && isBlankString s then collapseAmong inText false ns
        else .text s :: collapseAmong inText false ns := rfl

/-- What happens at one of some nodes: blank text may be left out, all else stays. -/
theorem collapseAmong_cons (inText droppable : Bool) (n : Node) (ns : List Node) :
    (n.isText = true ∧ collapseAmong inText droppable (n :: ns) = collapseAmong inText false ns)
      ∨ ∃ b, collapseAmong inText droppable (n :: ns)
          = collapseSpace n :: collapseAmong inText b ns := by
  cases n with
  | text s =>
    rw [collapseAmong_text]
    split_ifs with hdrop
    · exact Or.inl ⟨rfl, rfl⟩
    · exact Or.inr ⟨false, rfl⟩
  | _ => exact Or.inr ⟨_, rfl⟩

theorem nodes_collapseAmong :
    ∀ m ∈ collapseAmong inText droppable ns, ∃ n ∈ ns, m = collapseSpace n := by
  induction ns generalizing droppable with
  | nil => exact fun _ hm => absurd hm List.not_mem_nil
  | cons n ns ih =>
    have hlater : ∀ {b m}, m ∈ collapseAmong inText b ns → ∃ k ∈ n :: ns, m = collapseSpace k := by
      intro b m hm
      obtain ⟨k, hk, heq⟩ := ih m hm
      exact ⟨k, List.mem_cons_of_mem n hk, heq⟩
    rcases collapseAmong_cons inText droppable n ns with ⟨_, heq⟩ | ⟨b, heq⟩
    · rw [heq]
      exact fun m hm => hlater hm
    · rw [heq]
      exact List.forall_mem_cons.mpr ⟨⟨n, List.mem_cons_self .., rfl⟩, fun m hm => hlater hm⟩

theorem elements_collapseAmong :
    (collapseAmong inText droppable ns).filter isElement
      = (ns.filter isElement).map collapseSpace := by
  induction ns generalizing droppable with
  | nil => rfl
  | cons n ns ih =>
    rcases collapseAmong_cons inText droppable n ns with ⟨htext, heq⟩ | ⟨b, heq⟩
    · rw [heq, ih, List.filter_cons_of_neg (by simp [isElement_of_isText htext])]
    · cases helement : isElement n with
      | true => simp [heq, ih, isElement_collapseSpace, helement]
      | false => simp [heq, ih, isElement_collapseSpace, helement]

/-- No text is left next to text, nor at the start unless there was text. -/
theorem apart_collapseAmong (hapart : Apart Node.isText ns) :
    Apart Node.isText (collapseAmong inText droppable ns)
      ∧ ∀ m ∈ (collapseAmong inText droppable ns).head?, m.isText = true →
          ∃ n ∈ ns.head?, n.isText = true := by
  induction ns generalizing droppable with
  | nil => exact ⟨List.isChain_nil, fun _ hm => by cases hm⟩
  | cons n ns ih =>
    obtain ⟨hnext, hrest⟩ := List.isChain_cons.mp hapart
    have hbehind (htext : n.isText = true) (b : Bool) :
        ∀ m ∈ (collapseAmong inText b ns).head?, m.isText = false :=
      start_of_start (ih hrest).2 fun k hk => by simpa using hnext k hk htext
    rcases collapseAmong_cons inText droppable n ns with ⟨htext, heq⟩ | ⟨b, heq⟩
    · rw [heq]
      exact ⟨(ih hrest).1, fun m hm hmtext => absurd hmtext (by simp [hbehind htext false m hm])⟩
    · rw [heq]
      refine ⟨List.isChain_cons.mpr ⟨fun m hm htext => ?_, (ih hrest).1⟩, fun m hm hmtext => ?_⟩
      · rw [isText_collapseSpace] at htext
        exact hbehind htext b m hm
      · obtain rfl : collapseSpace n = m := Option.some.inj hm
        exact ⟨n, rfl, by rwa [isText_collapseSpace] at hmtext⟩

/-- White space at the start of an element is blank text or none. -/
theorem leading_collapseAmong (hapart : Apart Node.isText ns) :
    leadingBlank (collapseAmong inText true ns) = leadingBlank ns := by
  cases ns with
  | nil => rfl
  | cons n ns =>
    cases n with
    | text s =>
      obtain ⟨hnext, hrest⟩ := List.isChain_cons.mp hapart
      rw [collapseAmong_text]
      split_ifs with hdrop
      · rw [Bool.and_eq_true, Bool.and_eq_true] at hdrop
        show _ = isBlankString s
        rw [hdrop.2]
        -- after the blank text that goes there is no more text
        exact leadingBlank_of_start (start_of_start (apart_collapseAmong hrest).2
          fun k hk => by simpa using hnext k hk rfl)
      · rfl
    | _ =>
      refine leadingBlank_of_start fun m hm => ?_
      rw [← Option.some.inj hm, isText_collapseSpace]
      rfl

/-- Leaving out white space that is not content. -/
theorem pass_collapseSpace : Pass id (fun _ => false) collapseSpace := by
  refine ⟨fun name declared attributes children hapart => ?_, fun n => collapseSpace_of_not⟩
  refine ⟨collapseAmong (holdsText name) true children, rfl,
    nodes_collapseAmong, ?_, (apart_collapseAmong hapart).1, leading_collapseAmong hapart⟩
  rw [elements_collapseAmong, List.filter_eq_self (p := fun _ => !false) |>.mpr fun _ _ => rfl]

end Collapse

end ControlSurface.Svg
