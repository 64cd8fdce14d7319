/-
  ControlSurface.Proofs.Svg.Kept
  ──────────────────────────────
  What the optimizer keeps of elements and attributes.  The attributes of editors go; the numbers in
  transformations and coordinates are rounded, which puts in nothing but spaces and the characters
  of numbers (`isText_roundFrom`), so what can be written and read again can be after rounding
  (`proper_keptAttributes`), and elements open with it as before (`reopens_keptAttributes`).
  `Goes` is the least class that holds the elements of editors and all groups without identity that
  hold no text before their first element and nothing but elements which may go themselves.  The
  passes of the optimizer drop just these (`dropped_eq_goes`): whether a group is empty is asked of
  what the passes left of it, so by induction of what in it may not go.
-/
import ControlSurface.Proofs.Number.Plain
import ControlSurface.Proofs.Svg.Passes

namespace ControlSurface.Svg

open ControlSurface.Outcome ControlSurface.Text ControlSurface.Xml

/-! ## §1. Attributes that are kept. -/

/-- The characters of a value without references. -/
def plainText (value : List Piece) : List Char :=
  value.flatMap fun
    | .text s => s.toList
    | .reference _ => []

/-- The attributes of an element with the characters of their values. -/
def values (d : Document) (attributes : List Attribute) : List (Name × List Char) :=
  attributes.map fun a => (a.name, d.value a)

/-- The characters of a value after optimizing. -/
def optimizedValue (d : Document) (a : Attribute) : List Char :=
  match decimals? a.name with
  | some places => roundNumbers places (d.value a)
  | none => d.value a

/-- The attributes of an element that are kept, with the characters of their values. -/
def keptValues (d : Document) (attributes : List Attribute) : List (Name × List Char) :=
  (attributes.filter fun a => !isEditorName a.name).map fun a => (a.name, optimizedValue d a)

/-- What becomes of the attributes of an element. -/
def keptAttributes (d : Document) (attributes : List Attribute) : List Attribute :=
  (attributes.filter fun a => !isEditorName a.name).map (roundAttribute d)

theorem value_of_plain {d : Document} {a : Attribute}
    (h : (a.value.any fun p => !p.isText) = false) : d.value a = plainText a.value := by
  unfold Document.value plainText
  rw [expand]
  refine List.flatMap_congr fun p hp => ?_
  cases p with
  | text s => rfl
  | reference name => exact absurd (List.any_eq_false.mp h _ hp) (by simp [Piece.isText])

theorem refer_eq_false_iff {attributes : List Attribute} :
    refer attributes = false ↔ ∀ a ∈ attributes, (a.value.any fun p => !p.isText) = false := by
  rw [refer, List.any_eq_false]
  simp only [Bool.not_eq_true]

theorem values_of_plain {d : Document} {attributes : List Attribute}
    (h : refer attributes = false) :
    values d attributes = attributes.map fun a => (a.name, plainText a.value) :=
  List.map_congr_left fun a ha => by rw [value_of_plain (refer_eq_false_iff.mp h a ha)]

theorem plainText_tidyValue (value : List Piece) :
    plainText (tidyValue value) = plainText value := by
  induction value with
  | nil => rfl
  | cons p value ih =>
    rw [tidyValue] at ih ⊢
    by_cases hp : p = .text ""
    · rw [List.filter_cons_of_neg (by simp [hp]), ih, hp]
      rfl
    · rw [List.filter_cons_of_pos (by simpa using hp), plainText, plainText, List.flatMap_cons,
        List.flatMap_cons]
      exact congrArg _ ih

theorem refer_map_tidy (attributes : List Attribute) :
    refer (attributes.map Attribute.tidy) = refer attributes := by
  rw [refer, refer, List.any_map]
  exact congrArg (List.any attributes) (funext fun a => a.any_tidy)

theorem refer_keptAttributes (d : Document) {attributes : List Attribute}
    (h : refer attributes = false) : refer (keptAttributes d attributes) = false := by
  refine refer_eq_false_iff.mpr fun b hb => ?_
  obtain ⟨a, ha, rfl⟩ := List.mem_map.mp hb
  unfold roundAttribute
  split
  next => rfl
  next => exact refer_eq_false_iff.mp h a (List.mem_of_mem_filter ha)

/-- Kept attributes have the values that they are said to have. -/
theorem plainText_keptAttributes (d : Document) {attributes : List Attribute}
    (h : refer attributes = false) :
    (keptAttributes d attributes).map (fun a => (a.name, plainText a.value))
      = keptValues d attributes := by
  rw [keptAttributes, keptValues, List.map_map]
  refine List.map_congr_left fun a ha => ?_
  unfold optimizedValue
  simp only [Function.comp, roundAttribute]
  cases decimals? a.name with
  | none =>
    dsimp only
    rw [value_of_plain (refer_eq_false_iff.mp h a (List.mem_of_mem_filter ha))]
  | some places => simp [plainText]

/-! ## §2. Rounded text. -/

theorem digitsOf_subset (cs : List Char) : digitsOf cs ⊆ cs := (List.takeWhile_prefix _).subset

theorem exponentOf_subset (cs : List Char) : exponentOf cs ⊆ cs := by
  unfold exponentOf
  split
  next e rest =>
    split_ifs
    · split
      next s more =>
        split_ifs
        · split
          next => exact List.nil_subset _
          next ds _ =>
            exact List.cons_subset_cons _ (List.cons_subset_cons _ (digitsOf_subset more))
        · split
          next => exact List.nil_subset _
          next ds _ => exact List.cons_subset_cons _ (digitsOf_subset _)
      next => exact List.nil_subset _
    · exact List.nil_subset _
  next => exact List.nil_subset _

theorem mantissaOf_subset (cs : List Char) : mantissaOf cs ⊆ cs := by
  unfold mantissaOf
  split
  next =>
    split
    next rest _ =>
      split
      next => exact List.nil_subset _
      next ds _ => exact List.cons_subset_cons _ (digitsOf_subset rest)
    next => exact List.nil_subset _
  next ds _ =>
    split
    next rest hdrop =>
      have hpoint : '.' :: rest ⊆ cs := hdrop ▸ List.drop_subset _ cs
      refine List.append_subset.mpr ⟨digitsOf_subset cs, ?_⟩
      exact List.Subset.trans (List.cons_subset_cons _ (digitsOf_subset rest)) hpoint
    next => exact digitsOf_subset cs

/-- The text of a number is made of characters that were there. -/
theorem numberOf_subset (cs : List Char) : numberOf cs ⊆ cs := by
  unfold numberOf
  extract_lets signed rest
  have hrest : rest ⊆ cs := List.drop_subset _ cs
  split
  next => exact List.nil_subset _
  next m hm =>
    have hmore : exponentOf (rest.drop (mantissaOf rest).length) ⊆ rest :=
      List.Subset.trans (exponentOf_subset _) (List.drop_subset _ rest)
    refine List.append_subset.mpr
      ⟨List.append_subset.mpr ⟨?_, ?_⟩, List.Subset.trans hmore hrest⟩
    · show signed ⊆ cs
      unfold signed
      split
      next c _ => split_ifs <;> simp
      next => exact List.nil_subset _
    · exact List.Subset.trans (mantissaOf_subset rest) hrest

theorem isChar_of_isNumberChar {c : Char} (h : Number.isNumberChar c = true) : isChar c = true := by
  rw [Number.isNumberChar, Bool.or_eq_true] at h
  rcases h with h | h
  · -- a digit
    have hdigit : 48 ≤ c.toNat ∧ c.toNat ≤ 57 := of_decide_eq_true h
    unfold isChar isCharCode
    simp
    omega
  · have hall : ∀ d ∈ ['-', '.', 'i', 'n', 'f', 'a'], isChar d = true :=
      List.all_iff_forall_prop.mp (by decide)
    exact hall c (List.contains_iff_mem.mp h)

theorem isText_rounded {places : Nat} {number : List Char} (h : IsText number) :
    IsText (rounded places number) := by
  unfold rounded
  split
  next x _ =>
    exact fun c hc => isChar_of_isNumberChar (Number.plain_chars places (.float x) c hc)
  next => exact h

/-- Rounding puts in nothing but spaces and the characters of numbers. -/
theorem isText_roundFrom {places skip : Nat} {before : Option Char} {cs : List Char}
    (h : IsText cs) : IsText (roundFrom places skip before cs) := by
  induction cs generalizing skip before with
  | nil =>
    rw [roundFrom]
    exact h
  | cons c cs ih =>
    have hc : isChar c = true := h c (List.mem_cons_self ..)
    have hcs : IsText cs := fun d hd => h d (List.mem_cons_of_mem c hd)
    rw [roundFrom.eq_def]
    dsimp only
    split
    next => exact ih hcs
    next =>
      split
      next => exact IsText.cons hc (ih hcs)
      next number _ =>
        have hnumber : IsText (rounded places (numberOf (c :: cs))) :=
          isText_rounded fun d hd => h d (numberOf_subset _ hd)
        intro d hd
        rcases List.mem_append.mp hd with hd | hd
        · split at hd
          next =>
            -- a space keeps the number from the one before it
            rcases List.mem_cons.mp hd with rfl | hd
            · decide
            · exact hnumber d hd
          next => exact hnumber d hd
        · exact ih hcs d hd

/-! ## §3. Attributes that can be written. -/

/-- The text of a value with its entities put in is text. -/
theorem isText_expand (entities : List (String × Entity)) (left : Nat) {value : List Piece}
    (h : IsValue value) : IsText (expand entities left value) := by
  -- the induction is on how deep entities may still be put in
  induction left generalizing value with
  | zero => exact IsText.nil
  | succ left ih =>
    intro c hc
    rw [expand] at hc
    obtain ⟨p, hp, hc⟩ := List.mem_flatMap.mp hc
    have hproper := h.proper p hp
    cases p with
    | text s => exact hproper c hc
    | reference name =>
      dsimp only at hc
      split at hc
      next text _ =>
        refine ih ?_ c hc
        cases hvalue : valuePieces [] text with
        | none => exact ⟨by simp, List.isChain_nil⟩
        | some value => exact isValue_of_valuePieces isParts_nil value hvalue
      next => cases hc

theorem proper_roundAttribute (d : Document) {a : Attribute} (h : a.Proper) :
    (roundAttribute d a).Proper := by
  unfold roundAttribute
  split
  next places _ =>
    refine ⟨h.name, fun p hp => ?_, List.isChain_singleton _⟩
    rw [List.mem_singleton.mp hp]
    show IsText _
    rw [String.toList_ofList]
    exact isText_roundFrom (isText_expand _ _ h.value)
  next => exact h

theorem proper_keptAttributes (d : Document) {attributes : List Attribute}
    (h : ∀ a ∈ attributes, Attribute.Proper a) : ∀ a ∈ keptAttributes d attributes, a.Proper := by
  intro b hb
  obtain ⟨a, ha, rfl⟩ := List.mem_map.mp hb
  exact proper_roundAttribute d (h a (List.mem_of_mem_filter ha))

theorem name_roundAttribute (d : Document) (a : Attribute) :
    (roundAttribute d a).name = a.name := by
  unfold roundAttribute
  split <;> rfl

theorem attribute?_roundAttribute {declared : List Declaration} {a : Attribute} (d : Document)
    (h : attribute? declared a.written = some a) :
    attribute? declared (roundAttribute d a).written = some (roundAttribute d a) := by
  unfold roundAttribute
  split
  next places _ =>
    generalize [Piece.text _] = value
    rw [show (Attribute.written { a with value := value })
      = { a.written with value := value } from rfl, attribute?_value, h]
    rfl
  next => exact h

/-- No attribute that holds numbers names its element. -/
theorem namesProperly_roundAttribute {a : Attribute} (d : Document) (h : namesProperly a = true) :
    namesProperly (roundAttribute d a) = true := by
  unfold roundAttribute
  split
  next places hplaces =>
    have hbase : a.name.base ≠ "id" := by
      intro hid
      have hnone : decimals? a.name = none := by
        rw [decimals?, hid, if_neg (by decide), if_neg (by decide)]
      rw [hnone] at hplaces
      cases hplaces
    exact if_neg fun hboth => hbase hboth.2
  next => exact h

/-- Elements open with the attributes that are kept. -/
theorem reopens_keptAttributes (d : Document) {outer declared : List Declaration} {name : Name}
    {attributes : List Attribute} (h : Reopens outer name declared attributes) :
    Reopens outer name declared (keptAttributes d attributes) := by
  -- the names are those of attributes that were there, in their order
  have hkept : ∀ {α : Type} (view : Name → α),
      (keptAttributes d attributes).map (fun a => view a.name)
      = (attributes.filter fun a => !isEditorName a.name).map fun a => view a.name := by
    intro α view
    rw [keptAttributes, List.map_map]
    exact List.map_congr_left fun a _ => by rw [Function.comp, name_roundAttribute]
  have hof : ∀ {P : Attribute → Prop}, (∀ a ∈ attributes, P (roundAttribute d a)) →
      ∀ a ∈ keptAttributes d attributes, P a := by
    intro P hP b hb
    obtain ⟨a, ha, rfl⟩ := List.mem_map.mp hb
    exact hP a (List.mem_of_mem_filter ha)
  refine ⟨h.allowed, h.labels, hof fun a ha => ?_, ?_, hof fun a ha => ?_, ?_, hof fun a ha => ?_,
    h.label, h.space⟩
  · rw [name_roundAttribute]
    exact h.plain a ha
  · rw [hkept Name.written]
    exact h.names.sublist (List.filter_sublist.map _)
  · exact attribute?_roundAttribute d (h.resolved a ha)
  · rw [hkept fun n => (n.space, n.base)]
    exact h.apart.sublist (List.filter_sublist.map _)
  · exact namesProperly_roundAttribute d (h.identity a ha)


open ControlSurface.Text ControlSurface.Xml

/-! ## §4. What may go. -/

/-- The elements that may go where they lie in another one: the least class that holds those of
editors and all groups without identity that begin with no text but blanks and in which every
element may go. -/
inductive Goes : Node → Prop where
  | editor {name : Name} {declared : List Declaration} {attributes : List Attribute}
      {children : List Node} (h : isEditorName name = true) :
      Goes (.element name declared attributes children)
  | group {name : Name} {declared : List Declaration} {attributes : List Attribute}
      {children : List Node} (hgroup : name.base ∈ groupNames) (hid : hasId attributes = false)
      (hblank : leadingBlank children = true)
      (hall : ∀ n ∈ children, isElement n = true → Goes n) :
      Goes (.element name declared attributes children)

mutual
/-- Whether a node is an element that may go. -/
def goes : Node → Bool
  | .element name _ attributes children =>
    isEditorName name
      || groupNames.contains name.base && !hasId attributes && leadingBlank children
        && elementsGo children
  | _ => false

/-- Whether all elements among nodes may go. -/
def elementsGo : List Node → Bool
  | [] => true
  | n :: rest => (!isElement n || goes n) && elementsGo rest
end

theorem elementsGo_iff {ns : List Node} :
    elementsGo ns = true ↔ ∀ n ∈ ns, isElement n = true → goes n = true := by
  induction ns with
  | nil => simp [elementsGo]
  | cons n ns ih => cases h : isElement n <;> simp [elementsGo, ih, h]

theorem goes_element {name : Name} {declared : List Declaration} {attributes : List Attribute}
    {children : List Node} :
    goes (.element name declared attributes children) = true
      ↔ isEditorName name = true ∨ name.base ∈ groupNames ∧ hasId attributes = false
        ∧ leadingBlank children = true ∧ ∀ n ∈ children, isElement n = true → goes n = true := by
  rw [goes, ← elementsGo_iff]
  simp [and_assoc]

mutual
theorem goes_of (n : Node) (h : goes n = true) : Goes n := by
  match n with
  | .element name declared attributes children =>
    rcases goes_element.mp h with heditor | ⟨hgroup, hid, hblank, hall⟩
    · exact .editor heditor
    · exact .group hgroup hid hblank (goesAll_of children hall)
  | .text _ | .comment _ | .instruction _ _ | .reference _ => cases h

theorem goesAll_of (ns : List Node) (h : ∀ n ∈ ns, isElement n = true → goes n = true) :
    ∀ n ∈ ns, isElement n = true → Goes n := by
  match ns with
  | [] => simp
  | n :: rest =>
    obtain ⟨hn, hrest⟩ := List.forall_mem_cons.mp h
    exact List.forall_mem_cons.mpr ⟨fun helement => goes_of n (hn helement), goesAll_of rest hrest⟩
end

/-- **What may go can be computed.** -/
theorem goes_iff {n : Node} : goes n = true ↔ Goes n := by
  refine ⟨goes_of n, fun h => ?_⟩
  induction h with
  | editor h => exact goes_element.mpr (Or.inl h)
  | group hgroup hid hblank _ ih => exact goes_element.mpr (Or.inr ⟨hgroup, hid, hblank, ih⟩)

instance : DecidablePred Goes := fun _ => decidable_of_iff _ goes_iff

/-! ## §5. The passes in a row. -/

/-- A tree without what goes, before its attributes are rounded. -/
def thinned (n : Node) : Node := pruneBelow (collapseSpace (dropEditorData n))

/-- A tree without what goes. -/
def reducedTree (d : Document) (n : Node) : Node :=
  mapAttributes (fun given => given.map (roundAttribute d)) (thinned n)

theorem optimizeTree_eq (d : Document) : optimizeTree d = dropUnused (reducedTree d d.root) := rfl

/-- The elements that the passes drop. -/
def dropped (n : Node) : Bool := (n.name?.map isEditorName).getD false || isEmptyGroup (thinned n)

theorem pass_thinned :
    Pass (fun given => given.filter fun a => !isEditorName a.name) dropped thinned := by
  -- put together, the passes drop the elements of editors and the groups that are then empty
  have h := ((pass_dropBelow isEditorName).comp (pass_mapAttributes fun given =>
    given.filter fun a => !isEditorName a.name)).comp (pass_collapseSpace.comp pass_pruneBelow)
  have hdrops : (fun n => ((n.name?.map isEditorName).getD false || false)
      || (false || isEmptyGroup (pruneBelow (collapseSpace
        (mapAttributes (fun given => given.filter fun a => !isEditorName a.name)
          (dropBelow isEditorName n)))))) = dropped := by
    funext n
    rw [Bool.or_false, Bool.false_or]
    rfl
  exact hdrops ▸ h

theorem pass_reducedTree (d : Document) : Pass (keptAttributes d) dropped (reducedTree d) := by
  have h := pass_thinned.comp (pass_mapAttributes fun given => given.map (roundAttribute d))
  have hdrops : (fun n => dropped n || false) = dropped := funext fun n => Bool.or_false _
  exact hdrops ▸ h

theorem not_blank_of_element {ns : List Node} {m : Node} (hmem : m ∈ ns)
    (hm : isElement m = true) : ¬ ns.all isBlankText = true ∧ ns.filter isElement ≠ [] := by
  constructor
  · intro hall
    have hblank := List.all_eq_true.mp hall m hmem
    cases m with
    | element => cases hblank
    | _ => cases hm
  · exact List.ne_nil_of_mem (List.mem_filter.mpr ⟨hmem, hm⟩)

/-- Where there is nothing but elements and text, the nodes of an element are blank iff there is no
element and no text but blanks. -/
theorem all_isBlankText {ns : List Node} (hapart : Apart Node.isText ns)
    (hkinds : ∀ n ∈ ns, isElement n = true ∨ n.isText = true) :
    ns.all isBlankText = true ↔ leadingBlank ns = true ∧ ns.filter isElement = [] := by
  cases ns with
  | nil => exact ⟨fun _ => ⟨rfl, rfl⟩, fun _ => rfl⟩
  | cons n ns =>
    obtain ⟨hnext, _⟩ := List.isChain_cons.mp hapart
    rcases hkinds n (List.mem_cons_self ..) with hn | hn
    · obtain ⟨hall, hnone⟩ := not_blank_of_element (List.mem_cons_self ..) hn
      exact iff_of_false hall fun h => hnone h.2
    · cases ns with
      | nil =>
        cases n with
        | text s => simp [isBlankText, leadingBlank, isElement, Node.name?]
        | _ => cases hn
      | cons m ns =>
        -- after text there is an element, if anything
        have hm : isElement m = true := by
          refine (hkinds m (List.mem_cons_of_mem _ (List.mem_cons_self ..))).resolve_right ?_
          rw [hnext m rfl hn]
          exact Bool.false_ne_true
        obtain ⟨hall, hnone⟩ := not_blank_of_element
          (List.mem_cons_of_mem n (List.mem_cons_self ..)) hm
        exact iff_of_false hall fun h => hnone h.2

theorem hasId_filter (attributes : List Attribute) :
    hasId (attributes.filter fun a => !isEditorName a.name) = hasId attributes := by
  rw [hasId, hasId, List.any_filter]
  refine congrArg (List.any attributes) (funext fun a => ?_)
  -- an identity is in no namespace, so not in that of an editor
  cases hspace : a.name.space with
  | none => simp [isEditorName, hspace]
  | some u => simp

/-- A node without comments, instructions and references is an element or text. -/
theorem element_or_text {outer : List Declaration} {n : Node} (h : n.Regular false outer)
    (hplain : holdsReference n = false) : isElement n = true ∨ n.isText = true := by
  cases h with
  | element => exact Or.inl rfl
  | text => exact Or.inr rfl
  | comment hkeeps => cases hkeeps
  | instruction hkeeps => cases hkeeps
  | reference => cases hplain

/-- **The passes drop what may go.** -/
theorem dropped_eq_goes {outer : List Declaration} {n : Node} (h : n.Regular false outer)
    (hplain : holdsReference n = false) : dropped n = goes n := by
  -- whether an element is dropped is asked of what is left in it, hence the induction over the tree
  induction h with
  | @element outer name declared attributes children hopens hapart hchildren ih =>
    rw [holdsReference_element, Bool.or_eq_false_iff] at hplain
    have hinner := holdsReference_of_mem hplain.2
    obtain ⟨after, hthinned, hthins⟩ := pass_thinned.element name declared attributes hapart
    have hkinds : ∀ m ∈ after, isElement m = true ∨ m.isText = true := by
      intro m hm
      obtain ⟨c, hc, rfl⟩ := hthins.nodes m hm
      exact pass_thinned.element_or_text (hchildren c hc)
        (element_or_text (hchildren c hc) (hinner c hc))
    -- no element is left iff the passes drop every one
    have hnone : after.filter isElement = []
        ↔ ∀ c ∈ children, isElement c = true → goes c = true := by
      rw [hthins.elements, List.map_eq_nil_iff, List.filter_eq_nil_iff]
      simp only [List.mem_filter, Bool.not_eq_true, Bool.not_eq_false', and_imp]
      exact forall₂_congr fun c hc => by rw [ih c hc (hinner c hc)]
    rw [Bool.eq_iff_iff, goes_element, dropped, hthinned, isEmptyGroup, hasId_filter,
      Bool.or_eq_true, Bool.and_eq_true, Bool.and_eq_true, all_isBlankText hthins.apart hkinds,
      hthins.leading, hnone]
    simp [Node.name?, and_assoc]
  | text s => rw [dropped, pass_thinned.other _ rfl]; rfl
  | comment hkeeps => cases hkeeps
  | instruction hkeeps => cases hkeeps
  | reference => cases hplain

end ControlSurface.Svg
