/-
  ControlSurface.Proofs.Xml.Opening
  ─────────────────────────────────
  How an element opens.  What opens under a document type is an element whose tag, written down with
  its declarations and attributes, opens the same element again without one (`reopens_of_open?`,
  `open?_written`): its names are distinct, its declarations are allowed, and every label stands for
  the namespace that was found for it.
-/
import ControlSurface.Proofs.Xml.Printing

namespace ControlSurface.Xml

open ControlSurface.Outcome ControlSurface.Text

/-! ## §1. Elements that open again. -/

/-- An element that opens again from its tag, where some declarations are in force outside. -/
structure Reopens (outer : List Declaration) (name : Name) (declared : List Declaration)
    (attributes : List Attribute) : Prop where
  /-- The declarations may be made, and are written. -/
  allowed : ∀ d ∈ declared, mayDeclare d.label d.space = true ∧ d.label ≠ some reservedLabel
  /-- No label is declared twice. -/
  labels : (declared.map fun d => d.written.name).Nodup
  /-- No attribute is read as a declaration. -/
  plain : ∀ a ∈ attributes,
    a.name.written.label ≠ some declarationLabel ∧ a.name.written ≠ ⟨none, declarationLabel⟩
  /-- No attribute is written twice. -/
  names : (attributes.map fun a => a.name.written).Nodup
  /-- Labels stand for what is declared for them. -/
  resolved : ∀ a ∈ attributes, attribute? (declared.reverse ++ outer) a.written = some a
  /-- No two attributes have one name. -/
  apart : (attributes.map fun a => (a.name.space, a.name.base)).Nodup
  identity : ∀ a ∈ attributes, namesProperly a = true
  label : name.written.label ≠ some declarationLabel
  space : resolve? (declared.reverse ++ outer) name.written.label = some name.space

/-! ## §2. Distinct names. -/

theorem distinctBy_iff {α β : Type} [BEq β] [LawfulBEq β] (key : α → β) (xs : List α) :
    distinctBy key xs = true ↔ (xs.map key).Nodup := by
  induction xs with
  | nil => simp [distinctBy]
  | cons x xs ih =>
    rw [distinctBy, Bool.and_eq_true, ih, List.map_cons, List.nodup_cons, Bool.not_eq_true',
      ← Bool.not_eq_true, List.any_eq_true, List.mem_map]
    simp

theorem name_ruled (rules : List AttributeRule) (a : TagAttribute) :
    (ruled rules a).name = a.name := by
  unfold ruled
  split
  next => split <;> rfl
  next => rfl

/-- A default is added only under a name that is not there. -/
theorem nodup_addDefault {attributes : List TagAttribute} (r : AttributeRule)
    (h : (attributes.map TagAttribute.name).Nodup) :
    ((addDefault attributes r).map TagAttribute.name).Nodup := by
  unfold addDefault
  split
  next =>
    split
    next => exact h
    next hnone =>
      rw [List.map_append, List.nodup_append]
      refine ⟨h, by simp, ?_⟩
      intro name hname other hother heq
      obtain ⟨a, ha, rfl⟩ := List.mem_map.mp hname
      refine hnone (List.any_eq_true.mpr ⟨a, ha, ?_⟩)
      rw [beq_iff_eq, heq]
      exact List.mem_singleton.mp hother
  next => exact h

theorem nodup_withRules {rules : List AttributeRule} {element : QName} {given : List TagAttribute}
    (h : (given.map TagAttribute.name).Nodup) :
    ((withRules rules element given).map TagAttribute.name).Nodup := by
  unfold withRules
  dsimp only
  refine List.foldlRecOn _ addDefault
    (motive := fun attributes => (attributes.map TagAttribute.name).Nodup) ?_
    fun attributes hattributes r _ => nodup_addDefault r hattributes
  rw [List.map_map]
  exact (List.map_congr_left fun a _ => name_ruled _ a) ▸ h

/-! ## §3. Declarations. -/

/-- What an attribute declares is what it says, and may be declared. -/
theorem declaration_eq_some {a : TagAttribute} {d : Declaration}
    (h : declaration a = some (some d)) :
    a.name = d.written.name ∧ mayDeclare d.label d.space = true := by
  unfold declaration at h
  dsimp only at h
  split at h
  next => cases h
  next label hlabel =>
    split at h
    next => cases h
    next space _ =>
      split at h
      next hmay =>
        cases h
        refine ⟨?_, hmay⟩
        obtain ⟨⟨prefixed, base⟩, value⟩ := a
        split at hlabel
        next hdeclares =>
          cases hlabel
          obtain rfl : prefixed = some declarationLabel := hdeclares
          rfl
        next =>
          split at hlabel
          next hdefault =>
            cases hlabel
            obtain ⟨hnone, hbase⟩ := hdefault
            obtain rfl : prefixed = none := hnone
            obtain rfl : base = declarationLabel := hbase
            rfl
          next => cases hlabel
      next => cases h

/-- A value with a reference is not plain. -/
theorem plainValue?_eq_none {value : List Piece} {name : String} (h : .reference name ∈ value) :
    plainValue? value = none := by
  unfold plainValue?
  split
  next => cases h
  next s => cases List.mem_singleton.mp h
  next => rfl

/-- Whether a value is plain, and which, is nothing to texts without characters. -/
theorem plainValue?_tidyValue {value : List Piece} (h : Apart Piece.isText value) :
    plainValue? (tidyValue value) = plainValue? value := by
  -- two parts in a row are not both text, so from two parts on one is a reference
  have hreference : ∀ {v : List Piece} {name : String}, .reference name ∈ v →
      plainValue? (tidyValue v) = plainValue? v := by
    intro v name hmem
    rw [plainValue?_eq_none hmem]
    exact plainValue?_eq_none (List.mem_filter.mpr ⟨hmem, rfl⟩)
  cases value with
  | nil => rfl
  | cons p rest =>
    cases p with
    | reference name => exact hreference (List.mem_cons_self ..)
    | text s =>
      cases rest with
      | nil =>
        by_cases hs : s = ""
        · subst hs
          rfl
        · rw [tidyValue, List.filter_cons_of_pos (by simpa using hs), List.filter_nil]
      | cons q rest =>
        cases q with
        | reference name => exact hreference (List.mem_cons_of_mem _ (List.mem_cons_self ..))
        | text t =>
          have hnot := (List.isChain_cons.mp h).1 (.text t) rfl rfl
          cases hnot

/-- What an attribute declares whose name is that of a declaration and whose value is plain. -/
theorem declaration_eq {a : TagAttribute} {label : Option String} {space : String}
    (hlabel : (if a.name.label = some declarationLabel then some (some a.name.base)
      else if a.name.label = none ∧ a.name.base = declarationLabel then some none
      else none) = some label) (hvalue : plainValue? a.value = some space) :
    declaration a = if mayDeclare label space then some (some ⟨label, space⟩) else none := by
  unfold declaration
  dsimp only
  rw [hlabel]
  dsimp only
  rw [hvalue]

/-- A written declaration is read as the declaration. -/
theorem declaration_written {d : Declaration} (h : mayDeclare d.label d.space = true) :
    declaration d.written.tidy = some (some d) := by
  have hvalue : plainValue? (tidyValue [.text d.space]) = some d.space :=
    plainValue?_tidyValue (List.isChain_singleton _)
  obtain ⟨label, space⟩ := d
  cases label with
  | none => exact (declaration_eq rfl hvalue).trans (if_pos h)
  | some l => exact (declaration_eq rfl hvalue).trans (if_pos h)

/-- What is declared for the format's own label is nothing to any label. -/
theorem resolve?_filter (declared outer : List Declaration) (label : Option String) :
    resolve? ((declared.filter fun x => x.label ≠ some reservedLabel).reverse ++ outer) label
      = resolve? (declared.reverse ++ outer) label := by
  unfold resolve?
  split
  next => rfl
  next hlabel =>
    have hfind : ((declared.filter fun x => x.label ≠ some reservedLabel).reverse ++ outer).find?
        (fun d => d.label == label) = (declared.reverse ++ outer).find? fun d => d.label == label := by
      rw [← List.filter_reverse, List.find?_append, List.find?_append, List.find?_filter]
      refine congrArg (fun p => (declared.reverse.find? p).or _) (funext fun d => ?_)
      by_cases hd : d.label = label
      · simp [hd, hlabel]
      · simp [hd]
    rw [hfind]

theorem attribute?_filter (declared outer : List Declaration) (a : TagAttribute) :
    attribute? ((declared.filter fun x => x.label ≠ some reservedLabel).reverse ++ outer) a
      = attribute? (declared.reverse ++ outer) a := by
  unfold attribute?
  rw [resolve?_filter]

theorem written_of_attribute? {inForce : List Declaration} {a : TagAttribute} :
    Finds (fun b => b.written = a) (attribute? inForce a) := by
  unfold attribute?
  dsimp only
  split
  next => exact finds_after fun space => finds_some rfl
  next => exact finds_after fun space => finds_some rfl

/-! ## §4. Opening. -/

/-- The attributes of a tag that are no declarations. -/
def ordinary (given : List TagAttribute) : List TagAttribute :=
  given.filter fun a => a.name.label ≠ some declarationLabel && a.name ≠ ⟨none, declarationLabel⟩

/-- What an element has when it opens. -/
theorem open?_eq_some {d : Doctype} {stack : List Frame} {name : QName} {given : List TagAttribute}
    {f : Frame} (h : open? d stack name given = some f) :
    ∃ found space,
      (given.map TagAttribute.name).Nodup
        ∧ (withRules d.rules name given).mapM declaration = some found
        ∧ (ordinary (withRules d.rules name given)).mapM
            (attribute? ((found.filterMap id).reverse ++ scope stack)) = some f.attributes
        ∧ (f.attributes.map fun a => (a.name.space, a.name.base)).Nodup
        ∧ name.label ≠ some declarationLabel
        ∧ (∀ a ∈ f.attributes, namesProperly a = true)
        ∧ resolve? ((found.filterMap id).reverse ++ scope stack) name.label = some space
        ∧ f.name = ⟨name, space⟩
        ∧ f.declared = (found.filterMap id).filter (fun x => x.label ≠ some reservedLabel)
        ∧ f.children = [] := by
  unfold open? at h
  dsimp only at h
  split at h
  next => cases h
  next hdistinct =>
    obtain ⟨found, hfound, h⟩ := Option.bind_eq_some_iff.mp h
    obtain ⟨attributes, hattributes, h⟩ := Option.bind_eq_some_iff.mp h
    split at h
    next => cases h
    next hapart =>
      split at h
      next => cases h
      next hlabel =>
        split at h
        next => cases h
        next hidentity =>
          obtain ⟨space, hspace, h⟩ := Option.bind_eq_some_iff.mp h
          cases h
          refine ⟨found, space, (distinctBy_iff _ _).mp (by simpa using hdistinct), hfound,
            hattributes, (distinctBy_iff _ _).mp (by simpa using hapart), hlabel,
            List.all_eq_true.mp (by simpa using hidentity), hspace, rfl, rfl, rfl⟩

/-- The declarations of a tag are named as its attributes are. -/
theorem names_sublist {given : List TagAttribute} {found : List (Option Declaration)}
    (h : given.mapM declaration = some found) :
    ((found.filterMap id).map fun d => d.written.name).Sublist (given.map TagAttribute.name) := by
  have hall := mapM_eq_some_iff.mp h
  clear h
  induction hall with
  | nil => exact List.Sublist.refl []
  | @cons a x given found hx _ ih =>
    cases x with
    | none => exact ih.trans (List.sublist_cons_self _ _)
    | some d =>
      show (d.written.name :: (found.filterMap id).map fun d => d.written.name).Sublist
        (a.name :: given.map TagAttribute.name)
      rw [(declaration_eq_some hx).1]
      exact ih.cons_cons _

theorem mayDeclare_of_mem {given : List TagAttribute} {found : List (Option Declaration)}
    (h : given.mapM declaration = some found) :
    ∀ d ∈ found.filterMap id, mayDeclare d.label d.space = true := by
  have hone : ∀ a : TagAttribute,
      Finds (fun x => ∀ d, x = some d → mayDeclare d.label d.space = true) (declaration a) := by
    intro a x hx d hd
    subst hd
    exact (declaration_eq_some hx).2
  intro d hd
  obtain ⟨x, hx, heq⟩ := List.mem_filterMap.mp hd
  exact finds_mapM (P := fun _ => True) (fun _ _ => trivial) (fun a _ => hone a) found h x hx d heq

/-- The attributes of an element are written as they were read. -/
theorem map_written {inForce : List Declaration} {own : List TagAttribute}
    {attributes : List Attribute} (h : own.mapM (attribute? inForce) = some attributes) :
    attributes.map Attribute.written = own := by
  have hall := mapM_eq_some_iff.mp h
  clear h
  induction hall with
  | nil => rfl
  | cons hx _ ih => rw [List.map_cons, ih, written_of_attribute? _ hx]

theorem resolved_of_mem {inForce : List Declaration} {own : List TagAttribute}
    {attributes : List Attribute} (h : own.mapM (attribute? inForce) = some attributes) :
    ∀ a ∈ attributes, attribute? inForce a.written = some a := by
  have hall := mapM_eq_some_iff.mp h
  clear h
  induction hall with
  | nil => simp
  | cons hx _ ih =>
    refine List.forall_mem_cons.mpr ⟨?_, ih⟩
    rw [written_of_attribute? _ hx]
    exact hx

/-- **What opens, opens again.** -/
theorem reopens_of_open? {d : Doctype} {stack : List Frame} {name : QName}
    {given : List TagAttribute} {f : Frame} (h : open? d stack name given = some f) :
    Reopens (scope stack) f.name f.declared f.attributes := by
  obtain ⟨found, space, hdistinct, hfound, hattributes, hapart, hlabel, hidentity, hspace, hname,
    hdeclared, _⟩ := open?_eq_some h
  have hnames : ((withRules d.rules name given).map TagAttribute.name).Nodup :=
    nodup_withRules hdistinct
  have hown := map_written hattributes
  rw [hname, hdeclared]
  refine ⟨fun x hx => ?_, ?_, fun a ha => ?_, ?_, fun a ha => ?_, hapart, hidentity, hlabel, ?_⟩
  · obtain ⟨hx, hwritten⟩ := List.mem_filter.mp hx
    exact ⟨mayDeclare_of_mem hfound x hx, by simpa using hwritten⟩
  · exact (hnames.sublist (names_sublist hfound)).sublist (List.filter_sublist.map _)
  · have hmem : a.written ∈ ordinary (withRules d.rules name given) :=
      hown ▸ List.mem_map_of_mem ha
    have hplain := (List.mem_filter.mp hmem).2
    rw [Bool.and_eq_true] at hplain
    exact ⟨of_decide_eq_true hplain.1, of_decide_eq_true hplain.2⟩
  · have heq : f.attributes.map (fun a => a.name.written)
        = (ordinary (withRules d.rules name given)).map TagAttribute.name := by
      rw [← hown, List.map_map]
      rfl
    rw [heq]
    exact hnames.sublist (List.filter_sublist.map _)
  · rw [attribute?_filter]
    exact resolved_of_mem hattributes a ha
  · rw [resolve?_filter]
    exact hspace

/-! ## §5. Opening again. -/

/-- An attribute of an element as it is read back. -/
def Attribute.tidy (a : Attribute) : Attribute := { a with value := tidyValue a.value }

theorem withRules_nil (element : QName) (given : List TagAttribute) :
    withRules [] element given = given := List.map_id given

/-- The tag of an element as it is read back. -/
theorem map_tidy_written (declared : List Declaration) (attributes : List Attribute) :
    (written declared attributes).map TagAttribute.tidy
      = declared.map (fun d => d.written.tidy) ++ (attributes.map Attribute.tidy).map
          Attribute.written := by
  rw [written, List.map_append, List.map_map, List.map_map, List.map_map]
  rfl

theorem isDeclaration_written (d : Declaration) :
    d.written.name.label = some declarationLabel ∨ d.written.name = ⟨none, declarationLabel⟩ := by
  obtain ⟨label, space⟩ := d
  cases label with
  | none => exact Or.inr rfl
  | some l => exact Or.inl rfl

variable {outer : List Declaration} {name : Name} {declared : List Declaration}
  {attributes : List Attribute}

/-- No two attributes of a tag that was written have one name. -/
theorem Reopens.distinct (h : Reopens outer name declared attributes) :
    distinctBy TagAttribute.name ((written declared attributes).map TagAttribute.tidy) = true := by
  have hnames : ((written declared attributes).map TagAttribute.tidy).map TagAttribute.name
      = declared.map (fun d => d.written.name) ++ attributes.map fun a => a.name.written := by
    rw [map_tidy_written, List.map_append, List.map_map, List.map_map, List.map_map]
    rfl
  rw [distinctBy_iff, hnames, List.nodup_append]
  refine ⟨h.labels, h.names, fun n hn m hm heq => ?_⟩
  obtain ⟨d, _, rfl⟩ := List.mem_map.mp hn
  obtain ⟨a, ha, rfl⟩ := List.mem_map.mp hm
  rcases isDeclaration_written d with hlabel | hdefault
  · exact (h.plain a ha).1 (heq ▸ hlabel)
  · exact (h.plain a ha).2 (heq ▸ hdefault)

theorem declaration_plain {a : TagAttribute} (h : a.name.label ≠ some declarationLabel
    ∧ a.name ≠ ⟨none, declarationLabel⟩) : declaration a = some none := by
  have hdefault : ¬(a.name.label = none ∧ a.name.base = declarationLabel) := by
    rintro ⟨hlabel, hbase⟩
    refine h.2 ?_
    rw [← hlabel, ← hbase]
  unfold declaration
  rw [if_neg h.1, if_neg hdefault]

/-- The declarations of a tag that was written are read back. -/
theorem Reopens.declarations (h : Reopens outer name declared attributes) :
    ((written declared attributes).map TagAttribute.tidy).mapM declaration
      = some (declared.map some ++ attributes.map fun _ => none) := by
  rw [map_tidy_written, List.map_map, mapM_eq_some_iff]
  refine List.rel_append ?_ ?_
  · rw [List.forall₂_map_left_iff, List.forall₂_map_right_iff, List.forall₂_same]
    exact fun d hd => declaration_written (h.allowed d hd).1
  · rw [List.forall₂_map_left_iff, List.forall₂_map_right_iff, List.forall₂_same]
    exact fun a ha => declaration_plain (h.plain a ha)

/-- The other attributes of a tag that was written are those of the element. -/
theorem Reopens.ordinary_eq (h : Reopens outer name declared attributes) :
    ordinary ((written declared attributes).map TagAttribute.tidy)
      = (attributes.map Attribute.tidy).map Attribute.written := by
  have hnone : (declared.map fun d => d.written.tidy).filter (fun a =>
      a.name.label ≠ some declarationLabel && a.name ≠ ⟨none, declarationLabel⟩) = [] := by
    refine List.filter_eq_nil_iff.mpr fun a ha => ?_
    obtain ⟨d, _, rfl⟩ := List.mem_map.mp ha
    rw [Bool.and_eq_true]
    rintro ⟨hlabel, hdefault⟩
    rcases isDeclaration_written d with hd | hd
    · exact of_decide_eq_true hlabel hd
    · exact of_decide_eq_true hdefault hd
  rw [map_tidy_written, ordinary, List.filter_append, hnone, List.nil_append]
  refine List.filter_eq_self.mpr fun a ha => ?_
  rw [List.map_map] at ha
  obtain ⟨b, hb, rfl⟩ := List.mem_map.mp ha
  rw [Bool.and_eq_true]
  exact ⟨decide_eq_true (h.plain b hb).1, decide_eq_true (h.plain b hb).2⟩

/-- The value of an attribute has no part in its name. -/
theorem attribute?_value (inForce : List Declaration) (a : TagAttribute) (value : List Piece) :
    attribute? inForce { a with value := value }
      = (attribute? inForce a).map fun b => { b with value := value } := by
  unfold attribute?
  dsimp only
  split
  next => rfl
  next => cases resolve? inForce a.name.label <;> rfl

theorem attribute?_tidy {inForce : List Declaration} {a : Attribute}
    (h : attribute? inForce a.written = some a) :
    attribute? inForce a.tidy.written = some a.tidy := by
  rw [show a.tidy.written = { a.written with value := tidyValue a.value } from rfl,
    attribute?_value, h]
  rfl

theorem Reopens.attributes_eq (h : Reopens outer name declared attributes) :
    ((attributes.map Attribute.tidy).map Attribute.written).mapM
      (attribute? (declared.reverse ++ outer)) = some (attributes.map Attribute.tidy) := by
  rw [List.map_map, mapM_eq_some_iff, List.forall₂_map_left_iff, List.forall₂_map_right_iff,
    List.forall₂_same]
  exact fun a ha => attribute?_tidy (h.resolved a ha)

theorem namesProperly_tidy {a : Attribute} (h : IsValue a.value) :
    namesProperly a.tidy = namesProperly a := by
  unfold namesProperly
  rw [show a.tidy.value = tidyValue a.value from rfl, plainValue?_tidyValue h.apart]
  rfl

/-- **An element that was written opens again**, with its values as they are read back. -/
theorem open?_written {stack : List Frame} (h : Reopens (scope stack) name declared attributes)
    (hvalues : ∀ a ∈ attributes, IsValue a.value) :
    open? Doctype.empty stack name.written ((written declared attributes).map TagAttribute.tidy)
      = some ⟨name, declared, attributes.map Attribute.tidy, []⟩ := by
  have hfound : (declared.map some ++ attributes.map fun _ => (none : Option Declaration)).filterMap id
      = declared := by
    rw [List.filterMap_append, List.filterMap_map, List.filterMap_map]
    simp
  have hown := h.ordinary_eq
  unfold ordinary at hown
  have hapart : distinctBy (fun a : Attribute => (a.name.space, a.name.base))
      (attributes.map Attribute.tidy) = true := by
    rw [distinctBy_iff, List.map_map]
    exact h.apart
  have hidentity : (attributes.map Attribute.tidy).all namesProperly = true := by
    rw [List.all_map, List.all_eq_true]
    exact fun a ha => (namesProperly_tidy (hvalues a ha)).trans (h.identity a ha)
  have hkept : declared.filter (fun x => x.label ≠ some reservedLabel) = declared :=
    List.filter_eq_self.mpr fun d hd => decide_eq_true (h.allowed d hd).2
  unfold open?
  dsimp only [Doctype.empty]
  rw [withRules_nil, h.distinct, h.declarations]
  dsimp only [Bool.not_true, Option.bind_eq_bind, Option.bind_some]
  rw [hfound, hown, h.attributes_eq]
  dsimp only [Option.bind_some]
  rw [hapart, hidentity, h.space, hkept]
  exact if_neg h.label

end ControlSurface.Xml
