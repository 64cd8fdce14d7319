/-
  ControlSurface.Proofs.Svg.Rescoping
  ───────────────────────────────────
  What a tree without unused declarations is read back as.  A label that stands for a namespace
  stands for it still, for the declaration that it refers to is used (`inForce?_kept`); so the
  elements open again where they stand (`regular_rescope`).  An element without label and without
  namespace refers to no declaration, so the one that takes the default namespace back for it may
  go, and then the default namespace of an element around it holds for it too
  (`treeOf_rescope_iff`).
-/
import ControlSurface.Proofs.Svg.Passes
import ControlSurface.Proofs.Svg.Inert

namespace ControlSurface.Svg

open ControlSurface.Text ControlSurface.Xml

/-! ## §1. Names resolved again. -/

mutual
/-- A node whose element names stand for what their labels stand for where the node is put. -/
def rescope (outer : List Declaration) : Node → Node
  | .element name declared attributes children =>
    let inner := declared.reverse ++ outer
    .element { name with space := (resolve? inner name.written.label).getD none } declared
      attributes (rescopeAmong inner children)
  | n => n

/-- Nodes whose element names stand for what their labels stand for. -/
def rescopeAmong (outer : List Declaration) : List Node → List Node
  | [] => []
  | n :: rest => rescope outer n :: rescopeAmong outer rest
end

theorem rescopeAmong_eq (outer : List Declaration) (ns : List Node) :
    rescopeAmong outer ns = ns.map (rescope outer) := by
  induction ns with
  | nil => rfl
  | cons n ns ih => rw [rescopeAmong, ih, List.map_cons]

theorem dropUnusedAmong_eq (ns : List Node) : dropUnusedAmong ns = ns.map dropUnused := by
  induction ns with
  | nil => rfl
  | cons n ns ih => rw [dropUnusedAmong, ih, List.map_cons]

theorem mem_usedLabelsAmong {label : Option String} {ns : List Node} :
    label ∈ usedLabelsAmong ns ↔ ∃ n ∈ ns, label ∈ usedLabels n := by
  induction ns with
  | nil => simp [usedLabelsAmong]
  | cons n ns ih => simp [usedLabelsAmong, ih]

mutual
/-- Namespaces are not written, only labels. -/
theorem nodeText_rescope (outer : List Declaration) :
    (n : Node) → nodeText (rescope outer n) = nodeText n
  | .element name declared attributes children => by
    rw [rescope, nodeText, nodeText, nodesText_rescopeAmong, rescopeAmong_eq, List.isEmpty_map]
  | .text s => by rw [rescope]; simp
  | .comment s => by rw [rescope]; simp
  | .instruction target data => by rw [rescope]; simp
  | .reference name => by rw [rescope]; simp

theorem nodesText_rescopeAmong (outer : List Declaration) :
    (ns : List Node) → nodesText (rescopeAmong outer ns) = nodesText ns
  | [] => rfl
  | n :: rest => by
    rw [rescopeAmong, nodesText, nodesText, nodeText_rescope outer n,
      nodesText_rescopeAmong outer rest]
end

/-! ## §2. The declarations that labels refer to. -/

/-- The declaration in force for a label. -/
def inForce? (declared : List Declaration) (label : Option String) : Option Declaration :=
  declared.find? fun d => d.label == label

/-- Whether only the default namespace is taken back by some declarations. -/
def Labelled (declared : List Declaration) : Prop := ∀ d ∈ declared, d.label ≠ none → d.space ≠ ""

theorem resolve?_congr {declared other : List Declaration} {label : Option String}
    (h : inForce? declared label = inForce? other label) :
    resolve? declared label = resolve? other label := by
  unfold inForce? at h
  unfold resolve?
  rw [h]

theorem inForce?_append (declared outer : List Declaration) (label : Option String) :
    inForce? (declared ++ outer) label
      = (inForce? declared label).or (inForce? outer label) := List.find?_append

/-- A label stands for a namespace. -/
theorem exists_of_resolve?_label {declared : List Declaration} (hlabelled : Labelled declared)
    {label : String} {space : Option String} (h : resolve? declared (some label) = some space) :
    ∃ u, space = some u := by
  unfold resolve? at h
  split at h
  next =>
    cases h
    exact ⟨_, rfl⟩
  next =>
    split at h
    next _ d hfind =>
      have hlabel : d.label = some label := by simpa using List.find?_some hfind
      rw [if_neg (hlabelled d (List.mem_of_find?_eq_some hfind) (by simp [hlabel]))] at h
      cases h
      exact ⟨_, rfl⟩
    next heq => cases heq
    next => cases h

theorem Labelled.inner {outer declared : List Declaration} {name : Name}
    {attributes : List Attribute} (hlabelled : Labelled outer)
    (h : Reopens outer name declared attributes) : Labelled (declared.reverse ++ outer) := by
  intro d hd hlabel
  rcases List.mem_append.mp hd with hd | hd
  · -- a declaration with a label may not take a namespace back
    have hallowed := (h.allowed d (List.mem_reverse.mp hd)).1
    obtain ⟨l, hl⟩ := Option.ne_none_iff_exists'.mp hlabel
    rintro hspace
    rw [hl, hspace, mayDeclare] at hallowed
    split at hallowed
    next => exact absurd hallowed (by decide)
    next => simp at hallowed
  · exact hlabelled d hd hlabel

/-- An attribute has neither label nor namespace, or a label that stands for its namespace. -/
theorem resolve?_of_attribute? {declared : List Declaration} {a : Attribute}
    (h : attribute? declared a.written = some a) :
    (a.name.written.label = none ∧ a.name.space = none)
      ∨ resolve? declared a.name.written.label = some a.name.space := by
  unfold attribute? at h
  dsimp only at h
  split at h
  next hlabel =>
    have hnone := congrArg (fun b : Attribute => b.name.space) (Option.some.inj h)
    exact Or.inl ⟨hlabel, hnone.symm⟩
  next =>
    obtain ⟨space, hfound, h⟩ := Option.bind_eq_some_iff.mp h
    have heq : space = a.name.space :=
      congrArg (fun b : Attribute => b.name.space) (Option.some.inj h)
    exact Or.inr (heq ▸ hfound)

/-- Only the label of an attribute is looked up. -/
theorem attribute?_congr {declared other : List Declaration} {a : TagAttribute}
    (h : a.name.label ≠ none → resolve? declared a.name.label = resolve? other a.name.label) :
    attribute? declared a = attribute? other a := by
  unfold attribute?
  by_cases hlabel : a.name.label = none
  · simp only [hlabel, if_true]
  · simp only [hlabel, if_false, h hlabel]

/-- The labels of an element and its attributes stand for namespaces. -/
theorem resolve?_ownLabels {outer declared : List Declaration} {name : Name}
    {attributes : List Attribute} (h : Reopens outer name declared attributes)
    {label : Option String} (hlabel : label ∈ ownLabels name attributes) :
    ∃ u, resolve? (declared.reverse ++ outer) label = some (some u) := by
  obtain ⟨n, hn, rfl⟩ := List.mem_map.mp hlabel
  obtain ⟨hn, hspace⟩ := List.mem_filter.mp hn
  obtain ⟨u, hu⟩ := Option.isSome_iff_exists.mp hspace
  refine ⟨u, ?_⟩
  rcases List.mem_cons.mp hn with rfl | hn
  · rw [h.space, hu]
  · obtain ⟨a, ha, rfl⟩ := List.mem_map.mp hn
    rcases resolve?_of_attribute? (h.resolved a ha) with ⟨_, hnone⟩ | hfound
    · rw [hnone] at hspace
      cases hspace
    · rw [hfound, hu]

theorem inForce?_eq_none {declared : List Declaration} {label : Option String}
    (h : ∀ d ∈ declared, d.label ≠ label) : inForce? declared label = none :=
  List.find?_eq_none.mpr fun d hd => by simpa using h d hd

/-- The labels that refer to declarations further up stand for namespaces. -/
theorem resolve?_usedLabels {keepsNotes : Bool} {outer : List Declaration} {n : Node}
    (h : n.Regular keepsNotes outer) :
    ∀ label ∈ usedLabels n, ∃ u, resolve? outer label = some (some u) := by
  induction h with
  | @element outer name declared attributes children hopens _ _ ih =>
    intro label hlabel
    rw [usedLabels] at hlabel
    obtain ⟨hlabel, hfree⟩ := List.mem_filter.mp hlabel
    -- the element does not declare the label itself, so it refers further up
    have hnone : inForce? declared.reverse label = none := by
      refine inForce?_eq_none fun d hd heq => ?_
      have hany : (declared.any fun d => d.label == label) = true :=
        List.any_eq_true.mpr ⟨d, List.mem_reverse.mp hd, by simp [heq]⟩
      rw [hany] at hfree
      cases hfree
    have hsame : resolve? (declared.reverse ++ outer) label = resolve? outer label :=
      resolve?_congr (by rw [inForce?_append, hnone, Option.none_or])
    rw [← hsame]
    rcases List.mem_append.mp hlabel with hlabel | hlabel
    · exact resolve?_ownLabels hopens hlabel
    · obtain ⟨c, hc, hlabel⟩ := mem_usedLabelsAmong.mp hlabel
      exact ih c hc label hlabel
  | _ => simp [usedLabels]

/-! ## §3. Declarations that stay. -/

/-- The labels that the declarations of an element are there for. -/
def labelsAt (name : Name) (attributes : List Attribute) (children : List Node) :
    List (Option String) := ownLabels name attributes ++ usedLabelsAmong children

/-- The declarations that are used, of those of an element. -/
def keptOf (used : List (Option String)) (declared : List Declaration) : List Declaration :=
  declared.filter fun d => d.space ≠ "" && used.contains d.label

theorem dropUnused_element (name : Name) (declared : List Declaration)
    (attributes : List Attribute) (children : List Node) :
    dropUnused (.element name declared attributes children)
      = .element name (keptOf (labelsAt name attributes children) declared) attributes
          (children.map dropUnused) := by
  rw [dropUnused, dropUnusedAmong_eq]
  rfl

theorem find?_filter_of_find? {α : Type} {p q : α → Bool} {xs : List α} {a : α}
    (h : xs.find? p = some a) (ha : q a = true) : (xs.filter q).find? p = some a := by
  induction xs with
  | nil => cases h
  | cons x xs ih =>
    cases hx : p x with
    | true =>
      rw [List.find?_cons_of_pos hx] at h
      cases h
      rw [List.filter_cons_of_pos ha, List.find?_cons_of_pos hx]
    | false =>
      rw [List.find?_cons_of_neg (by simp [hx])] at h
      cases hq : q x with
      | true => rw [List.filter_cons_of_pos hq, List.find?_cons_of_neg (by simp [hx]), ih h]
      | false => rw [List.filter_cons_of_neg (by simp [hq]), ih h]

/-- **A label that stands for a namespace refers to the same declaration**, without those that are
not used. -/
theorem inForce?_kept {outer outer' declared : List Declaration} {used : List (Option String)}
    {label : Option String} {u : String} (hlabel : label ∈ used)
    (hspace : resolve? (declared.reverse ++ outer) label = some (some u))
    (hreserved : ∀ d ∈ declared, d.label ≠ some reservedLabel)
    (houter : (∀ d ∈ declared, d.label ≠ label) → inForce? outer' label = inForce? outer label) :
    inForce? ((keptOf used declared).reverse ++ outer') label
      = inForce? (declared.reverse ++ outer) label := by
  have hkept : (keptOf used declared).reverse
      = declared.reverse.filter fun d => d.space ≠ "" && used.contains d.label :=
    (List.filter_reverse ..).symm
  rw [inForce?_append, inForce?_append, hkept]
  cases hfind : inForce? declared.reverse label with
  | none =>
    have hnone : ∀ d ∈ declared, d.label ≠ label := fun d hd => by
      simpa using List.find?_eq_none.mp hfind d (List.mem_reverse.mpr hd)
    rw [inForce?_eq_none fun d hd => hnone d (List.mem_reverse.mp (List.mem_of_mem_filter hd)),
      houter hnone]
  | some d =>
    have hd : d ∈ declared := List.mem_reverse.mp (List.mem_of_find?_eq_some hfind)
    have hown : d.label = label := by simpa using List.find?_some hfind
    -- the declaration names a namespace and is used, so it is kept
    have hfull : d.space ≠ "" := by
      have hmine : inForce? (declared.reverse ++ outer) label = some d := by
        rw [inForce?_append, hfind, Option.some_or]
      unfold inForce? at hmine
      unfold resolve? at hspace
      rw [if_neg (hown ▸ hreserved d hd), hmine] at hspace
      intro hempty
      simp [hempty] at hspace
    have hstays : (d.space ≠ "" && used.contains d.label) = true := by
      simp [hfull, hown, hlabel]
    rw [show inForce? (declared.reverse.filter _) label = some d from
      find?_filter_of_find? hfind hstays]
    rfl

/-- Whether the labels of a node refer to the same declarations in two places. -/
def SameUses (outer outer' : List Declaration) (n : Node) : Prop :=
  ∀ label ∈ usedLabels n, inForce? outer' label = inForce? outer label

section Kept

variable {keepsNotes : Bool} {outer outer' declared : List Declaration} {name : Name}
  {attributes : List Attribute} {children : List Node}

/-- What the labels of an element and of what is in it refer to stays. -/
theorem SameUses.inForce
    (hsame : SameUses outer outer' (.element name declared attributes children))
    (hopens : Reopens outer name declared attributes)
    (hchildren : ∀ n ∈ children, n.Regular keepsNotes (declared.reverse ++ outer))
    {label : Option String} (hlabel : label ∈ labelsAt name attributes children) :
    inForce? ((keptOf (labelsAt name attributes children) declared).reverse ++ outer') label
      = inForce? (declared.reverse ++ outer) label := by
  obtain ⟨u, hu⟩ : ∃ u, resolve? (declared.reverse ++ outer) label = some (some u) := by
    rcases List.mem_append.mp hlabel with hown | hbelow
    · exact resolve?_ownLabels hopens hown
    · obtain ⟨c, hc, hbelow⟩ := mem_usedLabelsAmong.mp hbelow
      exact resolve?_usedLabels (hchildren c hc) label hbelow
  refine inForce?_kept hlabel hu (fun d hd => (hopens.allowed d hd).2) fun hfree => hsame label ?_
  rw [usedLabels]
  refine List.mem_filter.mpr ⟨hlabel, ?_⟩
  rw [Bool.not_eq_true', List.any_eq_false]
  exact fun d hd => by simpa using hfree d hd

theorem SameUses.child
    (hsame : SameUses outer outer' (.element name declared attributes children))
    (hopens : Reopens outer name declared attributes)
    (hchildren : ∀ n ∈ children, n.Regular keepsNotes (declared.reverse ++ outer))
    {c : Node} (hc : c ∈ children) :
    SameUses (declared.reverse ++ outer)
      ((keptOf (labelsAt name attributes children) declared).reverse ++ outer') c :=
  fun _ hlabel => hsame.inForce hopens hchildren
    (List.mem_append_right _ (mem_usedLabelsAmong.mpr ⟨c, hc, hlabel⟩))

/-- The label of a name or an attribute that has one is used. -/
theorem mem_ownLabels {n : Name} (hn : n ∈ name :: attributes.map Attribute.name)
    (hspace : n.space.isSome = true) : n.written.label ∈ ownLabels name attributes :=
  List.mem_map_of_mem (List.mem_filter.mpr ⟨hn, hspace⟩)

theorem resolve?_none_isSome (declared : List Declaration) :
    (resolve? declared none).isSome = true := by
  unfold resolve?
  rw [if_neg (by simp)]
  cases declared.find? fun d => d.label == none with
  | none => rfl
  | some d =>
    dsimp only
    split <;> rfl

/-- The name of an element that is in a namespace stands for that one without the declarations that
are not used. -/
theorem SameUses.elementName
    (hsame : SameUses outer outer' (.element name declared attributes children))
    (hopens : Reopens outer name declared attributes)
    (hchildren : ∀ n ∈ children, n.Regular keepsNotes (declared.reverse ++ outer))
    (hspace : name.space.isSome = true) :
    resolve? ((keptOf (labelsAt name attributes children) declared).reverse ++ outer')
      name.written.label = some name.space := by
  have hlabel : name.written.label ∈ ownLabels name attributes :=
    mem_ownLabels (List.mem_cons_self ..) hspace
  rw [← hopens.space]
  exact resolve?_congr (hsame.inForce hopens hchildren (List.mem_append_left _ hlabel))

/-- A name without namespace has no label. -/
theorem label_eq_none (hlabelled : Labelled outer) (hopens : Reopens outer name declared attributes)
    (hspace : name.space = none) : name.written.label = none := by
  cases hlabel : name.written.label with
  | none => rfl
  | some l =>
    have hfound := hopens.space
    rw [hlabel] at hfound
    obtain ⟨u, hu⟩ := exists_of_resolve?_label (hlabelled.inner hopens) hfound
    rw [hspace] at hu
    cases hu

theorem SameUses.reopens
    (hsame : SameUses outer outer' (.element name declared attributes children))
    (hlabelled : Labelled outer) (hopens : Reopens outer name declared attributes)
    (hchildren : ∀ n ∈ children, n.Regular keepsNotes (declared.reverse ++ outer)) :
    Reopens outer' { name with space := (resolve?
        ((keptOf (labelsAt name attributes children) declared).reverse ++ outer')
          name.written.label).getD none }
      (keptOf (labelsAt name attributes children) declared) attributes := by
  refine ⟨fun d hd => hopens.allowed d (List.mem_of_mem_filter hd),
    hopens.labels.sublist (List.filter_sublist.map _), hopens.plain, hopens.names, fun a ha => ?_,
    hopens.apart, hopens.identity, hopens.label, ?_⟩
  · -- an attribute with a label is in a namespace, so its declaration is used
    rw [← hopens.resolved a ha]
    refine attribute?_congr fun hlabel => ?_
    obtain ⟨l, hl⟩ := Option.ne_none_iff_exists'.mp hlabel
    have hspace : a.name.space.isSome = true := by
      rcases resolve?_of_attribute? (hopens.resolved a ha) with ⟨hnone, _⟩ | hfound
      · exact absurd hnone hlabel
      · rw [show a.name.written.label = some l from hl] at hfound
        obtain ⟨u, hu⟩ := exists_of_resolve?_label (hlabelled.inner hopens) hfound
        rw [hu]
        rfl
    have hown : a.name.written.label ∈ ownLabels name attributes :=
      mem_ownLabels (List.mem_cons_of_mem _ (List.mem_map_of_mem ha)) hspace
    exact resolve?_congr (hsame.inForce hopens hchildren (List.mem_append_left _ hown))
  · have hsome : (resolve? ((keptOf (labelsAt name attributes children) declared).reverse
        ++ outer') name.written.label).isSome = true := by
      cases hspace : name.space with
      | none =>
        rw [label_eq_none hlabelled hopens hspace]
        exact resolve?_none_isSome _
      | some u => rw [hsame.elementName hopens hchildren (by rw [hspace]; rfl)]; rfl
    obtain ⟨space, hfound⟩ := Option.isSome_iff_exists.mp hsome
    rw [hfound]
    rfl

end Kept

/-! ## §4. Trees without unused declarations. -/

theorem rescope_dropUnused_of_not {outer : List Declaration} {n : Node} (hn : isElement n = false) :
    rescope outer (dropUnused n) = n := by
  cases n with
  | element => cases hn
  | _ => simp [dropUnused, rescope]

theorem isText_rescope_dropUnused (outer : List Declaration) (n : Node) :
    (rescope outer (dropUnused n)).isText = n.isText := by
  cases n with
  | element => rw [dropUnused, rescope]; rfl
  | _ => rw [rescope_dropUnused_of_not rfl]

/-- **A tree without unused declarations opens again**, with names that stand for what their labels
stand for there. -/
theorem regular_rescope {keepsNotes : Bool} {outer : List Declaration} {n : Node}
    (h : n.Regular keepsNotes outer) (hlabelled : Labelled outer) {outer' : List Declaration}
    (hsame : SameUses outer outer' n) :
    (rescope outer' (dropUnused n)).Regular keepsNotes outer' := by
  induction h generalizing outer' with
  | @element outer name declared attributes children hopens hapart hchildren ih =>
    rw [dropUnused_element, rescope, rescopeAmong_eq, List.map_map]
    refine .element (hsame.reopens hlabelled hopens hchildren) ?_ fun m hm => ?_
    · refine (List.isChain_map _).mpr (hapart.imp fun a b hab ha => ?_)
      rw [Function.comp, isText_rescope_dropUnused] at ha ⊢
      exact hab ha
    · obtain ⟨c, hc, rfl⟩ := List.mem_map.mp hm
      exact ih c hc (hlabelled.inner hopens) (hsame.child hopens hchildren hc)
  | text s => rw [rescope_dropUnused_of_not rfl]; exact .text s
  | comment hkeeps hlines => rw [rescope_dropUnused_of_not rfl]; exact .comment hkeeps hlines
  | instruction hkeeps hlines =>
    rw [rescope_dropUnused_of_not rfl]
    exact .instruction hkeeps hlines
  | reference name => rw [rescope_dropUnused_of_not rfl]; exact .reference name

theorem proper_rescope {n : Node} (h : n.Proper) (outer : List Declaration) :
    (rescope outer (dropUnused n)).Proper := by
  induction h generalizing outer with
  | element hname hdeclared hattributes _ ih =>
    rw [dropUnused_element, rescope, rescopeAmong_eq, List.map_map]
    refine .element hname (fun d hd => hdeclared d (List.mem_of_mem_filter hd)) hattributes
      fun m hm => ?_
    obtain ⟨c, hc, rfl⟩ := List.mem_map.mp hm
    exact ih c hc _
  | text hs => rw [rescope_dropUnused_of_not rfl]; exact .text hs
  | comment hs => rw [rescope_dropUnused_of_not rfl]; exact .comment hs
  | instruction hi => rw [rescope_dropUnused_of_not rfl]; exact .instruction hi
  | reference hname => rw [rescope_dropUnused_of_not rfl]; exact .reference hname

mutual
theorem holdsReference_rescope (outer : List Declaration) :
    (n : Node) → holdsReference (rescope outer n) = holdsReference n
  | .element name declared attributes children => by
    rw [rescope, holdsReference, holdsReference, anyHoldsReference_rescopeAmong]
  | .text s => by rw [rescope]; simp
  | .comment s => by rw [rescope]; simp
  | .instruction target data => by rw [rescope]; simp
  | .reference name => by rw [rescope]; simp

theorem anyHoldsReference_rescopeAmong (outer : List Declaration) :
    (ns : List Node) → anyHoldsReference (rescopeAmong outer ns) = anyHoldsReference ns
  | [] => rfl
  | n :: rest => by
    rw [rescopeAmong, anyHoldsReference, anyHoldsReference, holdsReference_rescope outer n,
      anyHoldsReference_rescopeAmong outer rest]
end

/-! ## §5. Elements without a namespace. -/

/-- Whether a node is an element without label that is in no namespace. -/
def Bare : Node → Prop
  | .element name _ _ _ => name.written.label = none ∧ name.space = none
  | _ => False

/-- Whether some declarations name a default namespace. -/
def NameDefault (declared : List Declaration) : Prop := ∃ d ∈ declared, d.label = none

/-- Whether a node is an element that names a default namespace. -/
def DeclaresDefault : Node → Prop
  | .element _ declared _ _ => NameDefault declared
  | _ => False

/-- Whether every element without namespace lies outside of those that name a default one. -/
def BareOutside (root : Node) : Prop :=
  ∀ n ∈ nodesIn root, DeclaresDefault n → ∀ m ∈ nodesIn n, ¬ Bare m

theorem bareOutside_element {name : Name} {declared : List Declaration}
    {attributes : List Attribute} {children : List Node} :
    BareOutside (.element name declared attributes children)
      ↔ (NameDefault declared →
          ∀ m ∈ nodesIn (.element name declared attributes children), ¬ Bare m)
        ∧ ∀ c ∈ children, BareOutside c := by
  constructor
  · intro h
    refine ⟨h _ (mem_nodesIn_element.mpr (Or.inl rfl)), fun c hc n hn => ?_⟩
    exact h n (mem_nodesIn_element.mpr (Or.inr ⟨c, hc, hn⟩))
  · rintro ⟨hself, hchildren⟩ n hn
    rcases mem_nodesIn_element.mp hn with rfl | ⟨c, hc, hn⟩
    · exact hself
    · exact hchildren c hc n hn

theorem nameDefault_append {declared outer : List Declaration} :
    NameDefault (declared.reverse ++ outer) ↔ NameDefault declared ∨ NameDefault outer := by
  simp [NameDefault, or_and_right, exists_or]

/-- Where every declaration names a namespace, no label stands for one iff there is a default. -/
theorem resolve?_none_iff {declared : List Declaration} (hfull : ∀ d ∈ declared, d.space ≠ "") :
    (resolve? declared none).getD none = none ↔ ¬ NameDefault declared := by
  unfold resolve?
  rw [if_neg (by simp)]
  cases hfind : declared.find? fun d => d.label == none with
  | none =>
    have hnone : ∀ d ∈ declared, d.label ≠ none := fun d hd => by
      simpa using List.find?_eq_none.mp hfind d hd
    exact iff_of_true rfl fun ⟨d, hd, hlabel⟩ => hnone d hd hlabel
  | some d =>
    have hd : d ∈ declared := List.mem_of_find?_eq_some hfind
    have hlabel : d.label = none := by simpa using List.find?_some hfind
    dsimp only
    rw [if_neg (hfull d hd)]
    exact iff_of_false (fun h => by cases h) fun h => h ⟨d, hd, hlabel⟩

/-- Two lists made from one by functions that succeed on the same items agree item by item. -/
theorem filterMap_eq_iff {α β : Type} {f g : α → Option β} {xs : List α}
    (h : ∀ x ∈ xs, (f x).isSome = (g x).isSome) :
    xs.filterMap f = xs.filterMap g ↔ ∀ x ∈ xs, f x = g x := by
  refine ⟨fun heq => ?_, List.filterMap_congr⟩
  induction xs with
  | nil => simp
  | cons x xs ih =>
    obtain ⟨hx, hxs⟩ := List.forall_mem_cons.mp h
    cases hf : f x with
    | none =>
      have hg : g x = none := by simpa [hf] using hx.symm
      rw [List.filterMap_cons_none hf, List.filterMap_cons_none hg] at heq
      exact List.forall_mem_cons.mpr ⟨hf.trans hg.symm, ih hxs heq⟩
    | some a =>
      obtain ⟨b, hg⟩ : ∃ b, g x = some b := by
        rw [← Option.isSome_iff_exists, ← hx, hf]
        rfl
      rw [List.filterMap_cons_some hf, List.filterMap_cons_some hg] at heq
      obtain ⟨rfl, hrest⟩ := List.cons.inj heq
      exact List.forall_mem_cons.mpr ⟨hf.trans hg.symm, ih hxs hrest⟩

section Trees

variable {α : Type} (view : Name → α) (read : List Attribute → List (Name × List Char))

theorem isSome_treeOf (gone : Node → Bool) (n : Node) :
    (treeOf view read gone n).isSome = isElement n := by
  cases n <;> rfl

theorem isElement_rescope (outer : List Declaration) (n : Node) :
    isElement (rescope outer n) = isElement n := by
  cases n with
  | element => rw [rescope]; rfl
  | _ => simp [rescope]

mutual
/-- A tree without the namespaces of its elements is the same in every place. -/
theorem treeOf_written_rescope (outer : List Declaration) :
    (n : Node) → treeOf Name.written read (fun _ => false) (rescope outer n)
      = treeOf Name.written read (fun _ => false) n
  | .element name declared attributes children => by
    rw [rescope, treeOf, treeOf, treesOf_written_rescopeAmong]
  | .text s => by rw [rescope]; simp
  | .comment s => by rw [rescope]; simp
  | .instruction target data => by rw [rescope]; simp
  | .reference name => by rw [rescope]; simp

theorem treesOf_written_rescopeAmong (outer : List Declaration) :
    (ns : List Node) → treesOf Name.written read (fun _ => false) (rescopeAmong outer ns)
      = treesOf Name.written read (fun _ => false) ns
  | [] => rfl
  | n :: rest => by
    rw [rescopeAmong, treesOf, treesOf, treeOf_written_rescope outer n,
      treesOf_written_rescopeAmong outer rest]
end

/-- The name of an element is the same without unused declarations, unless it has no namespace and a
default one is in force. -/
theorem SameUses.name_eq_iff {keepsNotes : Bool} {outer outer' declared : List Declaration}
    {name : Name} {attributes : List Attribute} {children : List Node}
    (hsame : SameUses outer outer' (.element name declared attributes children))
    (hlabelled : Labelled outer) (hopens : Reopens outer name declared attributes)
    (hchildren : ∀ n ∈ children, n.Regular keepsNotes (declared.reverse ++ outer))
    {inner : List Declaration}
    (hinner : inner = (keptOf (labelsAt name attributes children) declared).reverse ++ outer')
    (hfull : ∀ d ∈ inner, d.space ≠ "") :
    { name with space := (resolve? inner name.written.label).getD none } = name
      ↔ (NameDefault inner → ¬ (name.written.label = none ∧ name.space = none)) := by
  have hname : { name with space := (resolve? inner name.written.label).getD none } = name
      ↔ (resolve? inner name.written.label).getD none = name.space := by
    cases name
    simp
  rw [hname]
  cases hspace : name.space with
  | none =>
    -- without a namespace there is no label, and a default would be the namespace
    have hlabel := label_eq_none hlabelled hopens hspace
    rw [hlabel, resolve?_none_iff hfull]
    simp
  | some u =>
    -- a namespace is found again
    have hfound := hsame.elementName hopens hchildren (by rw [hspace]; rfl)
    rw [← hinner, hspace] at hfound
    rw [hfound]
    simp

/-- **When a tree without unused declarations has its elements' namespaces still**: when no element
without namespace lies under a default one. -/
theorem treeOf_rescope_iff {keepsNotes : Bool} {outer outer' : List Declaration} {n : Node}
    (h : n.Regular keepsNotes outer) (hlabelled : Labelled outer)
    (hfull : ∀ d ∈ outer', d.space ≠ "") (hsame : SameUses outer outer' n) :
    treeOf id read (fun _ => false) (rescope outer' (dropUnused n))
        = treeOf id read (fun _ => false) (dropUnused n)
      ↔ (NameDefault outer' → ∀ m ∈ nodesIn (dropUnused n), ¬ Bare m)
        ∧ BareOutside (dropUnused n) := by
  induction h generalizing outer' with
  | @element outer name declared attributes children hopens _ hchildren ih =>
    generalize hinner : (keptOf (labelsAt name attributes children) declared).reverse ++ outer'
      = inner
    -- what is kept takes no namespace back, so no label stands for none in the element
    have hinnerFull : ∀ d ∈ inner, d.space ≠ "" := by
      intro d hd
      rw [← hinner] at hd
      rcases List.mem_append.mp hd with hd | hd
      · have hkept := (List.mem_filter.mp (List.mem_reverse.mp hd)).2
        rw [Bool.and_eq_true] at hkept
        exact of_decide_eq_true hkept.1
      · exact hfull d hd
    have hname := hsame.name_eq_iff hlabelled hopens hchildren hinner.symm hinnerFull
    have hbelow := fun c hc =>
      ih c hc (hlabelled.inner hopens) (hinner ▸ hinnerFull) (hsame.child hopens hchildren hc)
    rw [hinner] at hbelow
    -- the trees agree iff the names do and the trees of all elements inside do
    have htree : treeOf id read (fun _ => false)
          (rescope outer' (dropUnused (.element name declared attributes children)))
        = treeOf id read (fun _ => false) (dropUnused (.element name declared attributes children))
        ↔ { name with space := (resolve? inner name.written.label).getD none } = name
          ∧ ∀ c ∈ children, treeOf id read (fun _ => false) (rescope inner (dropUnused c))
              = treeOf id read (fun _ => false) (dropUnused c) := by
      rw [dropUnused_element, rescope, hinner, rescopeAmong_eq, treeOf, treeOf, treesOf_all,
        treesOf_all, List.map_map, List.filterMap_map, List.filterMap_map, Option.some.injEq,
        ElementTree.element.injEq, filterMap_eq_iff fun c _ => ?_]
      · simp
      · simp [isSome_treeOf, isElement_rescope]
    have hdefault : NameDefault inner
        ↔ NameDefault (keptOf (labelsAt name attributes children) declared)
          ∨ NameDefault outer' := by
      rw [← hinner, nameDefault_append]
    rw [htree, hname, forall₂_congr hbelow, dropUnused_element, bareOutside_element, hdefault]
    -- what is bare is the element itself or lies in one of those in it
    have hbare : ∀ declared, (∀ m ∈ nodesIn (.element name declared attributes
          (children.map dropUnused)), ¬ Bare m)
        ↔ ¬ (name.written.label = none ∧ name.space = none)
          ∧ ∀ c ∈ children, ∀ m ∈ nodesIn (dropUnused c), ¬ Bare m := by
      intro declared
      simp only [nodesIn, List.forall_mem_cons, mem_nodesInAll, List.mem_map]
      refine and_congr_right fun _ => ⟨fun h c hc m hm => ?_, ?_⟩
      · exact h m ⟨_, ⟨c, hc, rfl⟩, hm⟩
      · rintro h m ⟨_, ⟨c, hc, rfl⟩, hm⟩
        exact h c hc m hm
    rw [hbare, List.forall_mem_map]
    constructor
    · rintro ⟨hself, hkids⟩
      exact ⟨fun houter => ⟨hself (Or.inr houter), fun c hc => (hkids c hc).1 (Or.inr houter)⟩,
        fun hown => ⟨hself (Or.inl hown), fun c hc => (hkids c hc).1 (Or.inl hown)⟩,
        fun c hc => (hkids c hc).2⟩
    · rintro ⟨houter, hown, hkids⟩
      have hboth := fun h => Or.elim h hown houter
      exact ⟨fun h => (hboth h).1, fun c hc => ⟨fun h => (hboth h).2 c hc, hkids c hc⟩⟩
  | _ =>
    rw [rescope_dropUnused_of_not rfl]
    simp [dropUnused, nodesIn, Bare, BareOutside, DeclaresDefault]

end Trees

end ControlSurface.Svg
