/-
  ControlSurface.Proofs.Page.Identifiers
  ──────────────────────────────────────
  The identifiers in an exported page and the rules for them.  The identifiers are those of its two
  boxes, and for every element its own and those of its parts, in the order in which the page holds
  them.  An underscore keeps the identifiers of parts apart from those of elements; nothing keeps an
  element apart from the boxes, so the identifiers are different exactly if no element is named like
  a box (`page_identifiers_nodup_iff`).  The rules that all elements share have no selector of an
  identifier, so an identifier has as many rules in the stylesheet as there are elements and boxes
  of the page that have it (`count_selectors`).
-/
import ControlSurface.Page.Document
import ControlSurface.Proofs.Markup.Collecting
import ControlSurface.Stylesheet.Sheet
import Mathlib.Data.List.Count

namespace ControlSurface.Page

open ControlSurface.Layout ControlSurface.Markup ControlSurface.Outcome ControlSurface.Text

/-! ## §1. The identifiers of nodes. -/

/-- The identifier that an attribute gives, as it is read. -/
def identifier? (a : String × Value) : Option String :=
  if a.1 = "id" then (attributeToken? a).bind (·.2) else none

/-- A tag adds its identifiers to those inside its element. -/
def addIdentifiers (attributes : Attributes) (inside : List String) : List String :=
  attributes.filterMap identifier? ++ inside

/-- The identifiers of nodes, in the order in which the nodes are written. -/
def identifiers (nodes : List Node) : List String := collectAll addIdentifiers nodes

theorem filterMap_filter_of_none {α β : Type} {p : α → Bool} {f : α → Option β}
    (h : ∀ a, p a = false → f a = none) (xs : List α) :
    (xs.filter p).filterMap f = xs.filterMap f := by
  rw [List.filterMap_filter]
  refine List.filterMap_congr fun a _ => ?_
  split
  next => rfl
  next hp => exact (h a (Bool.eq_false_iff.mpr hp)).symm

theorem identifier?_of_part {a : String × Value} (h : (!partAttributes.contains a.1) = false) :
    identifier? a = none := by
  refine if_neg fun hid => ?_
  rw [hid] at h
  exact absurd h (by decide)

theorem blind_addIdentifiers : Blind addIdentifiers where
  nothing _ := rfl
  passes attributes inside :=
    congrArg (· ++ inside) (filterMap_filter_of_none (fun _ => identifier?_of_part) attributes)

/-! ## §2. The identifiers of elements. -/

/-- The identifiers of an element: its own, and those of its parts. -/
def ownIdentifiers (s : PageSetting) (e : Element) : List String := e.identifier :: partIds s e

theorem partIds_of_container {e : Element} (h : e.kind.container = true) (s : PageSetting) :
    partIds s e = [] := by
  unfold partIds
  split
  next hk => rw [hk] at h; cases h
  next hk => rw [hk] at h; cases h
  next => rfl

theorem follows_addIdentifiers (s : PageSetting) :
    Follows addIdentifiers (fun e inside => ownIdentifiers s e ++ inside) s := by
  intro e inner n hn
  obtain ⟨_, parameter, hparameter, hcollect⟩ := collect_elementNode blind_addIdentifiers hn
  have hnone : parameter.filterMap identifier? = [] := by
    refine List.filterMap_eq_nil_iff.mpr fun a ha => if_neg fun hid => ?_
    have hname := hparameter a ha
    rw [hid] at hname
    exact absurd hname (by decide)
  have hown : addIdentifiers (("id", .text e.identifier) :: ("data-type", .text e.kind.name)
      :: parameter) (collectInside addIdentifiers s e (collectAll addIdentifiers inner))
      = e.identifier :: collectInside addIdentifiers s e (collectAll addIdentifiers inner) := by
    have hrow : (("id", .text e.identifier) :: ("data-type", .text e.kind.name)
        :: parameter).filterMap identifier? = e.identifier :: parameter.filterMap identifier? := rfl
    rw [addIdentifiers, hrow, hnone]
    rfl
  rw [hcollect, hown, collectInside]
  show _ = ownIdentifiers s e ++ _
  cases hcontainer : e.kind.container with
  | true =>
    rw [ownIdentifiers, partIds_of_container hcontainer]
    have hscroll : (scrollbarAttribute s e).filterMap identifier? = [] := by
      unfold scrollbarAttribute
      split
      all_goals rfl
    simp [addIdentifiers, hscroll]
  | false =>
    have hpart : ∀ id : String, addIdentifiers [("id", .text id)] [] = [id] := fun _ => rfl
    simp [ownIdentifiers, hpart]

/-! ## §3. The identifiers of a page. -/

/-- The identifiers of the boxes of a page. -/
def boxIdentifiers : List String := ["plugin-wrapper", "plugin-container"]

theorem collectAll_rows (depth : Nat) (items : List (List Node)) :
    collectAll addIdentifiers (lines depth items) = items.flatMap (collectAll addIdentifiers) := by
  induction items with
  | nil => exact collectAll_nil ..
  | cons nodes items ih =>
    have hcons : lines depth (nodes :: items)
        = .raw ("\n" ++ indent depth) :: (nodes ++ lines depth items) := rfl
    rw [hcons, collectAll_cons, collectAll_append, ih]
    simp

theorem collect_wrapper (depth : Nat) (w : Window) (content : List Node) :
    (wrapper depth w content).collect addIdentifiers
      = boxIdentifiers ++ collectAll addIdentifiers content := by
  have hbox : ∀ inside, addIdentifiers [("id", .text "plugin-wrapper")] inside
      = "plugin-wrapper" :: inside := fun _ => rfl
  have hcontainer : ∀ inside, addIdentifiers (containerAttributes w) inside
      = "plugin-container" :: inside := fun _ => rfl
  rw [wrapper, block, collect_tag, hbox, collectAll_append, collectAll_rows]
  simp [collect_tag, hcontainer, boxIdentifiers]

/-- **The identifiers of a page** are those of its boxes and those in them. -/
theorem identifiers_around (s : PageSetting) (content : List Node) :
    identifiers (around s .linked content) = boxIdentifiers ++ identifiers content := by
  have hunnamed : ∀ (a : String × Value) (inside : List String), a.1 ≠ "id" →
      addIdentifiers [a] inside = inside := by
    intro a inside ha
    simp [addIdentifiers, identifier?, ha]
  have hhead : ∀ title : Value, collectAll addIdentifiers
      (lines 1 (metaNodes ++ [[tag "title" [] [shown title]], [stylesheetLink]])) = [] := by
    intro title
    simp [collectAll_rows, metaNodes, stylesheetLink, collect_tag, shown, addIdentifiers,
      identifier?]
  have hscript : ∀ file, (scriptLink file).collect addIdentifiers = [] := by
    intro file
    simp [scriptLink, collect_tag, hunnamed]
  have hbody : collectAll addIdentifiers (lines 1
      [[wrapper 1 s.window content], [scriptLink "components.js"], [scriptLink "bindings.js"]])
      = boxIdentifiers ++ collectAll addIdentifiers content := by
    simp [collectAll_rows, collect_wrapper, hscript]
  rw [identifiers, around, documentOf]
  simp only [Resources.linked, doctype, collect_tag, collectAll_cons, collectAll_nil,
    collectAll_append, collect_raw, hhead, hbody, List.nil_append, List.append_nil]
  rfl

/-! ## §4. When identifiers are different. -/

/-- What stands before the first underscore of an identifier. -/
def front (id : String) : List Char := id.toList.takeWhile (· ≠ '_')

theorem front_of_not_mem {id : String} (h : '_' ∉ id.toList) : front id = id.toList :=
  List.takeWhile_eq_self_iff.mpr fun c hc => decide_eq_true fun heq : c = '_' => h (heq ▸ hc)

theorem toList_subId (s : PageSetting) (domId part : String) :
    (s.subId domId part).toList
      = s.domScope.toList ++ (domId.toList ++ '_' :: '_' :: part.toList) := by
  have happend : s.subId domId part = s.domScope ++ domId ++ "__" ++ part := rfl
  rw [happend]
  simp

theorem front_subId {s : PageSetting} (hscope : s.domScope = "") {domId : String}
    (h : '_' ∉ domId.toList) (part : String) : front (s.subId domId part) = domId.toList := by
  rw [front, toList_subId, hscope, String.toList_empty, List.nil_append]
  exact takeWhile_append_mark h _

/-- **The identifiers of an element begin with its own one.** -/
theorem front_ownIdentifiers {s : PageSetting} (hscope : s.domScope = "") {e : Element} {id : String}
    (h : id ∈ ownIdentifiers s e) : front id = e.identifier.toList := by
  have hplain := e.underscore_not_mem_identifier
  rcases List.mem_cons.mp h with rfl | h
  · exact front_of_not_mem hplain
  · unfold partIds at h
    split at h
    next =>
      rw [List.mem_singleton.mp h]
      exact front_subId hscope hplain _
    next =>
      rw [List.mem_singleton.mp h]
      exact front_subId hscope hplain _
    next => cases h

theorem nodup_ownIdentifiers (s : PageSetting) (e : Element) : (ownIdentifiers s e).Nodup := by
  have hpart : ∀ part, e.identifier ≠ s.subId e.identifier part := by
    intro part heq
    refine e.underscore_not_mem_identifier ?_
    rw [heq, toList_subId]
    simp
  unfold ownIdentifiers partIds
  split
  next => simpa using hpart "input"
  next => simpa using hpart "options"
  next => simp

/-- Elements with different identifiers share none. -/
theorem disjoint_ownIdentifiers {s : PageSetting} (hscope : s.domScope = "") {a b : Element}
    (h : a.identifier ≠ b.identifier) :
    List.Disjoint (ownIdentifiers s a) (ownIdentifiers s b) := by
  intro id ha hb
  have hfront := (front_ownIdentifiers hscope ha).symm.trans (front_ownIdentifiers hscope hb)
  exact h (String.toList_inj.mp hfront)

theorem identifier_mem_own (s : PageSetting) (e : Element) :
    e.identifier ∈ ownIdentifiers s e := List.mem_cons_self ..

/-- **When the identifiers of elements are different**: each element comes once. -/
theorem nodup_elements_iff {s : PageSetting} (hscope : s.domScope = "") {elements es : List Element}
    (hids : (elements.map Element.identifier).Nodup) (hmem : ∀ e ∈ es, e ∈ elements) :
    (es.flatMap (ownIdentifiers s)).Nodup ↔ es.Nodup := by
  rw [List.nodup_flatMap]
  constructor
  · rintro ⟨_, hdisjoint⟩
    refine hdisjoint.imp fun {a b} hab heq => ?_
    exact hab (identifier_mem_own s a) (heq ▸ identifier_mem_own s b)
  · intro hnodup
    refine ⟨fun e _ => nodup_ownIdentifiers s e, hnodup.imp_of_mem fun {a b} ha hb hne => ?_⟩
    refine disjoint_ownIdentifiers hscope fun heq => hne ?_
    exact List.inj_on_of_nodup_map hids (hmem a ha) (hmem b hb) heq

/-- The boxes share an identifier with elements only if an element is named like one. -/
theorem disjoint_boxes_iff {s : PageSetting} (hscope : s.domScope = "") (es : List Element) :
    List.Disjoint boxIdentifiers (es.flatMap (ownIdentifiers s))
      ↔ ∀ e ∈ es, e.identifier ∉ boxIdentifiers := by
  have hplain : ∀ id ∈ boxIdentifiers, '_' ∉ id.toList := by decide
  constructor
  · intro h e he hbox
    exact h hbox (List.mem_flatMap.mpr ⟨e, he, identifier_mem_own s e⟩)
  · intro h id hbox hown
    obtain ⟨e, he, hid⟩ := List.mem_flatMap.mp hown
    have hfront := front_ownIdentifiers hscope hid
    rw [front_of_not_mem (hplain id hbox)] at hfront
    exact h e he (String.toList_inj.mp hfront ▸ hbox)

/-- **When the identifiers of a page are different.**  For elements that passed the checks they are
so exactly if every element is drawn once, as it is when the elements have different identities,
and none is named like a box of the page. -/
theorem page_identifiers_nodup_iff {windows : Option (List String)} {report : Check.Report}
    {s : PageSetting} {elements : List Element} {page : String}
    (hcheck : Check.check windows elements = .ok report) (hvalid : report.valid = true)
    (hscope : s.domScope = "") (hpage : render s elements = .ok page) :
    ∃ content ts, elementNodes s elements pageDepth = .ok content
      ∧ page = printAll (around s .linked content)
      ∧ renderTree s.layers elements = .ok ts ∧ (DistinctIds elements → (walk ts).Perm elements)
      ∧ identifiers (around s .linked content)
        = boxIdentifiers ++ (walk ts).flatMap (ownIdentifiers s)
      ∧ ((identifiers (around s .linked content)).Nodup
        ↔ (walk ts).Nodup ∧ ∀ e ∈ walk ts, e.identifier ∉ boxIdentifiers) := by
  obtain ⟨content, hcontent, hpage⟩ := (bind_eq_ok_iff _ _ _).mp hpage
  cases hpage
  obtain ⟨ts, hts, hcollect⟩ := (follows_addIdentifiers s).collectAll_elementNodes hcontent
  have hforest := renderTree_eq hts
  have hrow : identifiers (around s .linked content)
      = boxIdentifiers ++ (walk ts).flatMap (ownIdentifiers s) := by
    rw [identifiers_around, identifiers, hcollect, gatherAll_walk]
  refine ⟨content, ts, hcontent, rfl, hts, fun hids => hforest ▸ walk_forest_perm hids, hrow, ?_⟩
  have hmem : ∀ e ∈ walk ts, e ∈ elements := fun e he =>
    mem_of_mem_walk_forest (hforest ▸ he)
  have hboxes : boxIdentifiers.Nodup := by decide
  rw [hrow, List.nodup_append', nodup_elements_iff hscope (Check.identifiers_of_check hcheck hvalid).2 hmem,
    disjoint_boxes_iff hscope]
  exact ⟨fun h => h.2, fun h => ⟨hboxes, h⟩⟩

/-! ## §5. Two small pages. -/

/-- Elements with names and nothing else from a project. -/
def namedElements (items : List (Kind × String)) : List Element :=
  items.map fun (kind, name) =>
    ⟨kind, Element.assign kind [("id", .text name), ("name", .text name)]⟩

theorem id_named (kind : Kind) (name : String) :
    (⟨kind, Element.assign kind [("id", .text name), ("name", .text name)]⟩ : Element).id
      = .text name := by
  cases kind <;> rfl

theorem distinctIds_named {items : List (Kind × String)} (h : (items.map (·.2)).Nodup) :
    DistinctIds (namedElements items) := by
  constructor
  · intro e he
    obtain ⟨⟨kind, name⟩, _, rfl⟩ := List.mem_map.mp he
    exact ⟨name, id_named kind name⟩
  · have hids : (namedElements items).map Element.id = (items.map (·.2)).map Value.text := by
      rw [namedElements, List.map_map, List.map_map]
      exact List.map_congr_left fun i _ => id_named i.1 i.2
    rw [hids]
    exact h.map fun a b => Value.text.inj

theorem renderTree_named {items : List (Kind × String)} (h : (items.map (·.2)).Nodup)
    (horder : hasOrder [] (namedElements items) = true)
    (hsorted : (namedElements items).Pairwise fun a b => notAbove [] a b = true) :
    renderTree [] (namedElements items) = .ok ((namedElements items).map fun e => .node e []) := by
  refine renderTree_of_flat (distinctIds_named h) horder hsorted fun e he => ?_
  obtain ⟨⟨kind, name⟩, _, rfl⟩ := List.mem_map.mp he
  cases kind <;> rfl

/-- Elements whose parts have identifiers, and one with the name that such a part has but for an
underscore. -/
def muteElements : List Element :=
  namedElements [(.checkbox, "Mute"), (.label, "Mute Input"), (.comboBox, "Preset")]

theorem distinctIds_muteElements : DistinctIds muteElements := distinctIds_named (by decide)

theorem render_muteElements :
    ∃ page, render (PageSetting.ofWindow default) muteElements = .ok page := by
  refine exists_of_isOk ?_
  unfold render elementNodes
  rw [show (PageSetting.ofWindow default).layers = [] from rfl, muteElements,
    renderTree_named (by decide) (by decide) (by decide)]
  decide

/-- A part and an element with nearly the same identifier are kept apart. -/
theorem muteElements_nodup :
    ∃ report page content, Check.check none muteElements = .ok report ∧ report.valid = true
      ∧ render (PageSetting.ofWindow default) muteElements = .ok page
      ∧ page = printAll (around (PageSetting.ofWindow default) .linked content)
      ∧ (identifiers (around (PageSetting.ofWindow default) .linked content)).Nodup := by
  obtain ⟨report, hcheck, hvalid⟩ := exists_of_any (show
    (Check.check none muteElements).toOption.any Check.Report.valid = true by decide)
  obtain ⟨page, hpage⟩ := render_muteElements
  obtain ⟨content, ts, _, hprint, _, hperm, _, hiff⟩ :=
    page_identifiers_nodup_iff hcheck hvalid rfl hpage
  have hwalk := hperm distinctIds_muteElements
  have hboxes : ∀ e ∈ muteElements, e.identifier ∉ boxIdentifiers := by decide
  refine ⟨report, page, content, hcheck, hvalid, hpage, hprint, hiff.mpr ⟨?_, ?_⟩⟩
  · exact hwalk.nodup_iff.mpr distinctIds_muteElements.elements_nodup
  · exact fun e he => hboxes e (hwalk.mem_iff.mp he)

/-- An element with the name of the box that it lies in. -/
def boxElements : List Element := namedElements [(.label, "Plugin Container")]

/-- An element with the name of the box that it lies in passes the checks. -/
theorem boxName_repeats :
    ∃ report content, Check.check none boxElements = .ok report ∧ report.valid = true
      ∧ elementNodes (PageSetting.ofWindow default) boxElements pageDepth = .ok content
      ∧ identifiers (around (PageSetting.ofWindow default) .linked content)
        = ["plugin-wrapper", "plugin-container", "plugin-container"]
      ∧ ¬ (identifiers (around (PageSetting.ofWindow default) .linked content)).Nodup := by
  obtain ⟨report, hcheck, hvalid⟩ := exists_of_any (show
    (Check.check none boxElements).toOption.any Check.Report.valid = true by decide)
  have htree : renderTree (PageSetting.ofWindow default).layers boxElements
      = .ok (boxElements.map fun e => .node e []) :=
    renderTree_named (by decide) (by decide) (by decide)
  obtain ⟨content, hcontent⟩ : ∃ content,
      elementNodes (PageSetting.ofWindow default) boxElements pageDepth = .ok content := by
    refine exists_of_isOk ?_
    unfold elementNodes
    rw [htree]
    decide
  obtain ⟨ts, hts, hcollect⟩ :=
    (follows_addIdentifiers (PageSetting.ofWindow default)).collectAll_elementNodes hcontent
  cases htree.symm.trans hts
  have hown : identifiers (around (PageSetting.ofWindow default) .linked content)
      = ["plugin-wrapper", "plugin-container", "plugin-container"] := by
    rw [identifiers_around, identifiers, hcollect, gatherAll_walk]
    decide
  refine ⟨report, content, hcheck, hvalid, hcontent, hown, ?_⟩
  rw [hown]
  decide


open ControlSurface.Layout ControlSurface.Outcome

/-! ## §6. Selectors. -/

/-- The selectors of a stylesheet, in order. -/
def selectors (sheet : List Stylesheet.Section) : List String :=
  (sheet.flatMap Stylesheet.Section.rules).map Stylesheet.Rule.selector

@[simp] theorem selectors_append (xs ys : List Stylesheet.Section) :
    selectors (xs ++ ys) = selectors xs ++ selectors ys := by simp [selectors]

/-- The selector of the element with an identifier. -/
def idSelector (id : String) : String := "#" ++ id

theorem idSelector_injective : Function.Injective idSelector := fun a b h => by
  simpa [idSelector, ← String.toList_inj] using h

/-- Sections none of whose rules is for one element. -/
def Shared (sections : List Stylesheet.Section) : Prop :=
  ∀ selector ∈ selectors sections, selector.front? ≠ some '#'

instance (sections : List Stylesheet.Section) : Decidable (Shared sections) :=
  inferInstanceAs (Decidable (∀ selector ∈ selectors sections, selector.front? ≠ some '#'))

theorem front?_idSelector (id : String) : (idSelector id).front? = some '#' := by
  simp [idSelector, String.front?_eq]

theorem Shared.count_eq_zero {sections : List Stylesheet.Section} (h : Shared sections)
    (id : String) : (selectors sections).count (idSelector id) = 0 := by
  exact List.count_eq_zero.mpr fun hmem => h _ hmem (front?_idSelector id)

/-! ## §7. The sections of a stylesheet. -/

theorem shared_fontSections (s : PageSetting) : Shared (Stylesheet.fontSections s) := by
  intro selector hmem
  unfold Stylesheet.fontSections at hmem
  split at hmem
  next => cases hmem
  next =>
    obtain ⟨f, _, rfl⟩ : ∃ f ∈ s.fonts, (f.faceRule s.fontPlace).selector = selector := by
      simpa [selectors] using hmem
    show "@font-face".front? ≠ some '#'
    decide

theorem shared_familySection (f : Family) : Shared [Stylesheet.familySection f] := by
  cases f <;> decide +kernel

theorem shared_families (fs : List Family) : Shared (fs.map Stylesheet.familySection) := by
  intro selector hmem
  obtain ⟨r, hr, rfl⟩ := List.mem_map.mp hmem
  obtain ⟨sec, hsec, hr⟩ := List.mem_flatMap.mp hr
  obtain ⟨f, _, rfl⟩ := List.mem_map.mp hsec
  refine shared_familySection f _ (List.mem_map.mpr ⟨r, ?_, rfl⟩)
  simpa using hr

theorem selectors_root {w : Window} {responsive : Bool} {root : List Stylesheet.Section}
    (h : Stylesheet.rootSections w responsive = .ok root) :
    selectors root = "html, body" :: boxIdentifiers.map idSelector := by
  obtain ⟨behind, _, h⟩ := (bind_eq_ok_iff _ _ _).mp h
  cases h
  rfl

theorem selector_elementRule {e : Element} {r : Stylesheet.Rule}
    (h : Stylesheet.elementRule e = .ok r) : r.selector = idSelector e.identifier := by
  obtain ⟨_, _, h⟩ := (bind_eq_ok_iff _ _ _).mp h
  obtain ⟨_, _, h⟩ := (bind_eq_ok_iff _ _ _).mp h
  obtain ⟨domId, hdomId, h⟩ := (bind_eq_ok_iff _ _ _).mp h
  cases h
  rw [Element.identifier_eq hdomId]
  rfl

theorem map_selector {es : List Element} {rules : List Stylesheet.Rule}
    (h : List.Forall₂ (fun e r => Stylesheet.elementRule e = .ok r) es rules) :
    rules.map Stylesheet.Rule.selector = es.map fun e => idSelector e.identifier := by
  induction h with
  | nil => rfl
  | cons hr _ ih => rw [List.map_cons, List.map_cons, selector_elementRule hr, ih]

theorem selectors_elementSections {s : PageSetting} {elements : List Element}
    {own : List Stylesheet.Section} (h : Stylesheet.elementSections s elements = .ok own) :
    ∃ ordered, renderOrder s.layers elements = .ok ordered
      ∧ selectors own = ordered.map fun e => idSelector e.identifier := by
  obtain ⟨ordered, hordered, h⟩ := (bind_eq_ok_iff _ _ _).mp h
  refine ⟨ordered, hordered, ?_⟩
  split at h
  next hempty =>
    cases h
    rw [List.isEmpty_iff.mp hempty]
    rfl
  next =>
    obtain ⟨rules, hrules, h⟩ := (bind_eq_ok_iff _ _ _).mp h
    cases h
    simp [selectors, map_selector ((mapM_eq_ok_iff _ _ _).mp hrules)]

/-- **How many rules an identifier has**: one for each element and each box of that identifier. -/
theorem count_selectors {s : PageSetting} {elements : List Element} {sheet : List Stylesheet.Section}
    (h : Stylesheet.sections s elements = .ok sheet) (id : String) :
    (selectors sheet).count (idSelector id)
      = boxIdentifiers.count id + (elements.map Element.identifier).count id := by
  obtain ⟨root, hroot, h⟩ := (bind_eq_ok_iff _ _ _).mp h
  obtain ⟨own, hown, h⟩ := (bind_eq_ok_iff _ _ _).mp h
  cases h
  obtain ⟨ordered, hordered, hselectors⟩ := selectors_elementSections hown
  have hcaption : Shared (if elements.any Stylesheet.hasCaption then [Stylesheet.captionSection]
      else []) := by
    split
    all_goals decide
  have hreset : Shared [Stylesheet.resetSection] := by decide
  have hbase : Shared [Stylesheet.baseSection] := by decide
  have hbody : "html, body" ≠ idSelector id := fun heq => by
    have hfront : "html, body".front? ≠ some '#' := by decide
    exact hfront (heq ▸ front?_idSelector id)
  have hboxes := List.count_map_of_injective boxIdentifiers _ idSelector_injective id
  have hnames := List.count_map_of_injective (ordered.map Element.identifier) _
    idSelector_injective id
  rw [List.map_map] at hnames
  simp only [selectors_append, List.count_append, (shared_fontSections s).count_eq_zero,
    hreset.count_eq_zero, hbase.count_eq_zero, hcaption.count_eq_zero,
    (shared_families _).count_eq_zero, selectors_root hroot, hselectors,
    List.count_cons_of_ne hbody, hboxes]
  rw [show (fun e : Element => idSelector e.identifier) = idSelector ∘ Element.identifier from rfl,
    hnames, ((renderOrder_perm hordered).map Element.identifier).count_eq]
  omega

end ControlSurface.Page
