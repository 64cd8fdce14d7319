/-
  ControlSurface.Proofs.Page.Agreement
  ────────────────────────────────────
  The markup, the stylesheet and the scripts of a window describe the same elements.  The markup is
  nested and the others are flat, so each is compared with the list of elements: the nodes are its
  forest, the rules and the entries name its identifiers, and the component script has what its
  kinds need (`generators_agree`).
-/
import ControlSurface.Proofs.Page.Identifiers
import ControlSurface.Proofs.Script.Entries

namespace ControlSurface.Page

open ControlSurface.Layout ControlSurface.Markup ControlSurface.Outcome ControlSurface.Script

/-! ## §1. The nodes of elements. -/

/-- Whether a tag is that of an element, and not of a part. -/
def isElementTag (attributes : Attributes) : Bool := attributes.any fun a => a.1 = "data-type"

/-- The tag of an element stands over what is inside the element, under its identifier. -/
def addElement (attributes : Attributes) (inside : List Outline) : List Outline :=
  if isElementTag attributes then
    [.node ((attributes.filterMap identifier?).headD "") inside]
  else inside

/-- The nodes of elements among other nodes, by their identifiers, as they are nested. -/
def elementOutline (nodes : List Node) : List Outline := collectAll addElement nodes

theorem blind_addElement : Blind addElement where
  nothing _ := rfl
  passes attributes inside := by
    have htag : isElementTag (attributes.filter fun a => !partAttributes.contains a.1)
        = isElementTag attributes := by
      rw [isElementTag, List.any_filter]
      refine congrArg attributes.any (funext fun a => ?_)
      by_cases ha : a.1 = "data-type"
      · rw [ha]
        decide
      · simp [ha]
    rw [addElement, htag, filterMap_filter_of_none fun _ => identifier?_of_part]
    rfl

theorem addElement_parts (ids : List String) :
    ids.flatMap (fun id => addElement [("id", .text id)] []) = [] :=
  List.flatMap_eq_nil_iff.mpr fun _ _ => rfl

theorem follows_addElement (s : PageSetting) :
    Follows addElement (fun e inside => [.node e.identifier inside]) s := by
  intro e inner n hn
  obtain ⟨_, parameter, _, hcollect⟩ := collect_elementNode blind_addElement hn
  have hown : ∀ inside, addElement (("id", .text e.identifier)
      :: ("data-type", .text e.kind.name) :: parameter) inside = [.node e.identifier inside] :=
    fun _ => rfl
  rw [hcollect, hown, collectInside]
  cases e.kind.container with
  | true =>
    have hscroll : ∀ inside, addElement (scrollbarAttribute s e) inside = inside := by
      intro inside
      unfold scrollbarAttribute
      split
      all_goals rfl
    simp [hscroll]
  | false => simp [addElement_parts]

mutual
/-- The identifiers of a tree of elements, as the elements are nested. -/
def treeOutline : Tree → Outline
  | .node e children => .node e.identifier (forestOutline children)

/-- The identifiers of a forest of elements. -/
def forestOutline : List Tree → List Outline
  | [] => []
  | t :: ts => treeOutline t :: forestOutline ts
end

theorem gatherAll_outline (ts : List Tree) :
    gatherAll (fun e inside => [Outline.node e.identifier inside]) ts = forestOutline ts := by
  induction ts using gatherAll.induct (fun t =>
      gather (fun e inside => [Outline.node e.identifier inside]) t = [treeOutline t]) with
  | case1 e children ih => rw [gather_node, treeOutline, ih]
  | case2 => rw [gatherAll, forestOutline]
  | case3 t ts iht ihts => rw [gatherAll_cons, forestOutline, iht, ihts, List.singleton_append]

/-- **The nodes of elements are nested like the elements**, each under its identifier. -/
theorem elementOutline_eq {s : PageSetting} {elements : List Element} {depth : Nat}
    {content : List Node} {ts : List Tree}
    (hcontent : elementNodes s elements depth = .ok content)
    (hts : renderTree s.layers elements = .ok ts) : elementOutline content = forestOutline ts := by
  obtain ⟨us, hus, hcollect⟩ := (follows_addElement s).collectAll_elementNodes hcontent
  cases hts.symm.trans hus
  rw [elementOutline, hcollect, gatherAll_outline]

/-! ## §2. The marks for scrollbars. -/

/-- A tag adds what it tells the script for scrollbars. -/
def addScrollbar (attributes : Attributes) (inside : Attributes) : Attributes :=
  (attributes.filter fun a => a.1 = "data-custom-scrollbar") ++ inside

/-- What nodes tell the script for scrollbars. -/
def scrollbarMarks (nodes : List Node) : Attributes := collectAll addScrollbar nodes

theorem blind_addScrollbar : Blind addScrollbar where
  nothing _ := rfl
  passes attributes inside := by
    refine congrArg (· ++ inside) ?_
    rw [List.filter_filter]
    refine List.filter_congr fun a _ => ?_
    by_cases ha : a.1 = "data-custom-scrollbar"
    · rw [ha]
      decide
    · simp [ha]

theorem scrollbarAttribute_of_not_container {e : Element} (h : e.kind.container = false)
    (s : PageSetting) : scrollbarAttribute s e = [] := by
  have hnot : scrolls e = false := by
    unfold scrolls
    by_cases hk : e.kind = .collapsible
    · rw [hk] at h
      cases h
    · simp [hk]
  simp [scrollbarAttribute, hnot]

theorem follows_addScrollbar (s : PageSetting) :
    Follows addScrollbar (fun e inside => scrollbarAttribute s e ++ inside) s := by
  intro e inner n hn
  obtain ⟨_, parameter, hparameter, hcollect⟩ := collect_elementNode blind_addScrollbar hn
  have hparameter : parameter.filter (fun a => a.1 = "data-custom-scrollbar") = [] := by
    refine List.filter_eq_nil_iff.mpr fun a ha => ?_
    rw [List.mem_singleton.mp (hparameter a ha)]
    decide
  have hown : ∀ inside, addScrollbar (("id", .text e.identifier)
      :: ("data-type", .text e.kind.name) :: parameter) inside = inside := by
    intro inside
    have hrow : (("id", .text e.identifier) :: ("data-type", .text e.kind.name)
        :: parameter).filter (fun a => a.1 = "data-custom-scrollbar")
        = parameter.filter fun a => a.1 = "data-custom-scrollbar" := rfl
    rw [addScrollbar, hrow, hparameter, List.nil_append]
  rw [hcollect, hown, collectInside]
  cases hcontainer : e.kind.container with
  | true =>
    have hkept : (scrollbarAttribute s e).filter (fun a => a.1 = "data-custom-scrollbar")
        = scrollbarAttribute s e := by
      unfold scrollbarAttribute
      split
      all_goals rfl
    simp [addScrollbar, hkept]
  | false =>
    have hparts : (partIds s e).flatMap (fun id => addScrollbar [("id", .text id)] []) = [] :=
      List.flatMap_eq_nil_iff.mpr fun _ _ => rfl
    simp [scrollbarAttribute_of_not_container hcontainer, hparts]

/-- **Nodes are marked for scrollbars** where the script for them is needed. -/
theorem scrollbarMarks_eq_nil_iff {s : PageSetting} {elements : List Element} {depth : Nat}
    {content : List Node} {ts : List Tree}
    (hcontent : elementNodes s elements depth = .ok content)
    (hts : renderTree s.layers elements = .ok ts) (hwalk : (walk ts).Perm elements) :
    scrollbarMarks content = []
      ↔ (s.customScrollbars && needsScrollbars elements) = false := by
  obtain ⟨us, hus, hcollect⟩ := (follows_addScrollbar s).collectAll_elementNodes hcontent
  cases hts.symm.trans hus
  rw [scrollbarMarks, hcollect, gatherAll_walk, List.flatMap_eq_nil_iff]
  have hneeds : needsScrollbars elements = elements.any scrolls := rfl
  rw [hneeds]
  simp only [hwalk.mem_iff, scrollbarAttribute]
  cases s.customScrollbars with
  | false => simp
  | true => simp

/-! ## §3. Agreement. -/

/-- What the nodes, the stylesheet, the entries and the component script of a window say of its
elements, whose forest is given. -/
structure Agreement (s : PageSetting) (elements : List Element) (ts : List Tree)
    (content : List Node) (sheet : List Stylesheet.Section) (entries : List Binding)
    (script : String) : Prop where
  /-- Every element has an identifier, and no two have the same. -/
  named : ∀ e ∈ elements, e.domId = .ok e.identifier
  distinct : (elements.map Element.identifier).Nodup
  /-- Every element is drawn once, and its node lies where the forest has it. -/
  drawn : (walk ts).Perm elements
  nested : elementOutline content = forestOutline ts
  /-- Every element has one rule, unless an element is named like a box of the page. -/
  ruled : (∀ e ∈ elements, (selectors sheet).count (idSelector e.identifier) = 1)
    ↔ ∀ e ∈ elements, e.identifier ∉ boxIdentifiers
  /-- Every entry names an element. -/
  bound : ∀ b ∈ entries, b.domId ∈ (walk ts).map Element.identifier
  /-- The scripts of all entries are in the component script, also in one for more elements and for
  another setting. -/
  scripted : ∀ other more text, (∀ e ∈ elements, e ∈ more) →
    components other more = .ok text →
    ∀ b ∈ entries, b.kind.family ∈ familyOrder
      ∧ Holds text (ofLines (familyScript b.kind.family))
  /-- The script for scrollbars comes last, if a node is marked for it. -/
  scrolled : ∃ fs, families elements = .ok fs
    ∧ script = behaviourText fs ++ if scrollbarMarks content = [] then "" else
        "\n" ++ ofLines scrollbarScript

/-- **The generators describe the same elements**, if these passed the checks and have different
identities; only the rule of an element named like a box of the page is not the only one. -/
theorem generators_agree {windows : Option (List String)} {report : Check.Report} {s : PageSetting}
    {elements : List Element} {depth : Nat} {markup css script : String}
    {entries : List Binding} (hids : DistinctIds elements)
    (hcheck : Check.check windows elements = .ok report) (hvalid : report.valid = true)
    (hmarkup : renderElements s elements depth = .ok markup)
    (hcss : Stylesheet.render s elements = .ok css)
    (hentries : bindings s.layers elements = .ok entries)
    (hscript : components s elements = .ok script) :
    ∃ ts content sheet, renderTree s.layers elements = .ok ts
      ∧ elementNodes s elements depth = .ok content ∧ markup = printAll content
      ∧ Stylesheet.sections s elements = .ok sheet
      ∧ css = Stylesheet.printSections sheet ++ "\n"
      ∧ Agreement s elements ts content sheet entries script := by
  obtain ⟨content, hcontent, hmarkup⟩ := (bind_eq_ok_iff _ _ _).mp hmarkup
  cases hmarkup
  obtain ⟨sheet, hsheet, hcss⟩ := (bind_eq_ok_iff _ _ _).mp hcss
  cases hcss
  obtain ⟨ts, hts, _⟩ := (bind_eq_ok_iff _ _ _).mp hcontent
  obtain ⟨hnamed, hdistinct⟩ := Check.identifiers_of_check hcheck hvalid
  have hwalk : (walk ts).Perm elements := renderTree_eq hts ▸ walk_forest_perm hids
  refine ⟨ts, content, sheet, hts, hcontent, rfl, hsheet, rfl, ?_⟩
  constructor
  case named => exact hnamed
  case distinct => exact hdistinct
  case drawn => exact hwalk
  case nested => exact elementOutline_eq hcontent hts
  case ruled =>
    refine forall₂_congr fun e he => ?_
    have hone : (elements.map Element.identifier).count e.identifier = 1 :=
      List.count_eq_one_of_mem hdistinct (List.mem_map_of_mem he)
    rw [count_selectors hsheet, hone, ← List.count_eq_zero]
    omega
  case bound =>
    intro b hb
    obtain ⟨e, he, hread⟩ := (mem_bindings_iff hentries b).mp hb
    rw [← Element.identifier_eq (of_binding? hread).1]
    exact List.mem_map_of_mem (hwalk.mem_iff.mpr he)
  case scripted =>
    intro other more text hmore htext b hb
    obtain ⟨e, he, hread⟩ := (mem_bindings_iff hentries b).mp hb
    obtain ⟨_, hkind, fields, hconfig⟩ := of_binding? hread
    exact ⟨hkind ▸ family_mem_order hconfig, components_holds htext (hmore e he) hread⟩
  case scrolled =>
    obtain ⟨fs, hfs, hscript⟩ := exists_of_components hscript
    refine ⟨fs, hfs, hscript.trans (congrArg (behaviourText fs ++ ·) ?_)⟩
    have hneeded := scrollbarMarks_eq_nil_iff hcontent hts hwalk
    cases hneeds : s.customScrollbars && needsScrollbars elements with
    | false => rw [if_neg (by simp), if_pos (hneeded.mpr hneeds)]
    | true =>
      have hmarked : scrollbarMarks content ≠ [] := fun hnone => by
        rw [hneeded.mp hnone] at hneeds
        cases hneeds
      rw [if_pos rfl, if_neg hmarked]

/-! ## §4. Two small windows. -/

/-- A container that scrolls, a control and a text. -/
def foldElements : List Element :=
  namedElements [(.collapsible, "Fold"), (.toggleSwitch, "Mute"), (.label, "Note")]

theorem renderOrder_foldElements : renderOrder [] foldElements = .ok foldElements :=
  renderOrder_of_sorted (by decide) (by decide)

/-- The generators for the fold agree, and its rules are the only ones. -/
theorem foldElements_agree :
    ∃ ts content sheet entries script, Agreement (PageSetting.ofWindow default) foldElements ts
        content sheet entries script
      ∧ (∀ e ∈ foldElements, (selectors sheet).count (idSelector e.identifier) = 1)
      ∧ entries.length = 2 := by
  have hlayers : (PageSetting.ofWindow default).layers = [] := rfl
  obtain ⟨report, hcheck, hvalid⟩ := exists_of_any (show
    (Check.check none foldElements).toOption.any Check.Report.valid = true by decide)
  obtain ⟨markup, hmarkup⟩ : ∃ markup,
      renderElements (PageSetting.ofWindow default) foldElements pageDepth = .ok markup := by
    refine exists_of_isOk ?_
    unfold renderElements elementNodes
    rw [hlayers, foldElements,
      renderTree_named (by decide) (by decide) (by decide)]
    decide
  obtain ⟨css, hcss⟩ : ∃ css,
      Stylesheet.render (PageSetting.ofWindow default) foldElements = .ok css := by
    refine exists_of_isOk ?_
    unfold Stylesheet.render Stylesheet.sections Stylesheet.elementSections
    rw [hlayers, renderOrder_foldElements]
    decide
  obtain ⟨entries, hentries, hlength⟩ : ∃ entries,
      bindings [] foldElements = .ok entries ∧ (entries.length == 2) = true := by
    refine exists_of_any ?_
    unfold bindings
    rw [renderOrder_foldElements]
    decide
  obtain ⟨script, hscript⟩ : ∃ script,
      components (PageSetting.ofWindow default) foldElements = .ok script := by
    refine exists_of_isOk ?_
    unfold components families
    rw [hentries]
    rfl
  obtain ⟨ts, content, sheet, _, _, _, _, _, hagree⟩ :=
    generators_agree (distinctIds_named (by decide)) hcheck hvalid hmarkup hcss hentries hscript
  exact ⟨ts, content, sheet, entries, script, hagree, hagree.ruled.mpr (by decide),
    by simpa using hlength⟩

/-- An element with the name of the box that it lies in shares its rule. -/
theorem boxName_has_two_rules :
    DistinctIds boxElements
      ∧ ∃ report sheet, Check.check none boxElements = .ok report ∧ report.valid = true
        ∧ Stylesheet.sections (PageSetting.ofWindow default) boxElements = .ok sheet
        ∧ ∀ e ∈ boxElements, (selectors sheet).count (idSelector e.identifier) = 2 := by
  obtain ⟨report, hcheck, hvalid⟩ := exists_of_any (show
    (Check.check none boxElements).toOption.any Check.Report.valid = true by decide)
  obtain ⟨sheet, hsheet⟩ : ∃ sheet,
      Stylesheet.sections (PageSetting.ofWindow default) boxElements = .ok sheet := by
    refine exists_of_isOk ?_
    unfold Stylesheet.sections Stylesheet.elementSections
    rw [show (PageSetting.ofWindow default).layers = [] from rfl,
      renderOrder_of_sorted (by decide) (by decide)]
    decide
  refine ⟨distinctIds_named (by decide), report, sheet, hcheck, hvalid, hsheet, fun e he => ?_⟩
  rw [count_selectors hsheet]
  revert e
  decide

end ControlSurface.Page
