/-
  ControlSurface.Proofs.Markup.Collecting
  ───────────────────────────────────────
  What is collected from the tags of a page.  Every tag adds something to what is collected inside
  its element; a collection that passes over the attributes of parts is decided by the elements
  alone, and follows the forest in which they lie (`collectAll_elementNodes`).
-/
import ControlSurface.Proofs.Layout.Nesting
import ControlSurface.Proofs.Markup.Kinds
import ControlSurface.Proofs.Name.Slugs

namespace ControlSurface.Markup

open ControlSurface.Layout ControlSurface.Outcome

/-! ## §1. Collecting. -/

section Collecting

variable {α : Type} (add : Attributes → List α → List α)

mutual
/-- What is collected from a piece of markup; `add` tells what a tag makes of what is collected
inside its element. -/
def Node.collect : Node → List α
  | .text _ => []
  | .raw _ => []
  | .element _ attributes body => add attributes (collectAll body)

/-- What is collected from pieces of markup, one after the other. -/
def collectAll : List Node → List α
  | [] => []
  | n :: rest => n.collect ++ collectAll rest
end

@[simp] theorem collectAll_nil : collectAll add [] = [] := by rw [collectAll]

@[simp] theorem collectAll_cons (n : Node) (ns : List Node) :
    collectAll add (n :: ns) = n.collect add ++ collectAll add ns := by rw [collectAll]

@[simp] theorem collect_text (s : String) : (Node.text s).collect add = [] := by rw [Node.collect]

@[simp] theorem collect_raw (s : String) : (Node.raw s).collect add = [] := by rw [Node.collect]

theorem collect_element (tag : String) (attributes : Attributes) (body : List Node) :
    (Node.element tag attributes body).collect add = add attributes (collectAll add body) := by
  rw [Node.collect]

theorem collect_tag (name : String) (attributes : Attributes) (body : List Node) :
    (tag name attributes body).collect add = add attributes (collectAll add body) :=
  collect_element ..

@[simp] theorem collectAll_append (ns ms : List Node) :
    collectAll add (ns ++ ms) = collectAll add ns ++ collectAll add ms := by
  induction ns with
  | nil => simp
  | cons n ns ih => simp [ih]

theorem collectAll_eq_nil {ns : List Node} (h : ∀ n ∈ ns, n.collect add = []) :
    collectAll add ns = [] := by
  induction ns with
  | nil => exact collectAll_nil ..
  | cons n ns ih =>
    obtain ⟨hn, hrest⟩ := List.forall_mem_cons.mp h
    rw [collectAll_cons, hn, ih hrest, List.append_nil]

/-- White space between lines adds nothing. -/
theorem collectAll_lines (s : String) (lines : List (List Node)) :
    collectAll add (lines.intersperse [.raw s]).flatten = lines.flatMap (collectAll add) := by
  induction lines with
  | nil => simp
  | cons line lines ih =>
    cases lines with
    | nil => simp
    | cons next rest =>
      rw [List.intersperse_cons_cons, List.flatten_cons, List.flatten_cons, collectAll_append,
        collectAll_append, ih]
      simp

/-! ## §2. Collections that pass over parts. -/

/-- A collection to which the attributes of parts make no difference. -/
structure Blind : Prop where
  nothing (inside : List α) : add [] inside = inside
  passes (attributes : Attributes) (inside : List α) :
    add (attributes.filter fun a => !partAttributes.contains a.1) inside = add attributes inside

variable {add}

theorem filter_parts {attributes : Attributes} (h : Names partAttributes attributes) :
    (attributes.filter fun a => !partAttributes.contains a.1) = [] :=
  List.filter_eq_nil_iff.mpr fun a ha => by simpa using h a ha

theorem Blind.part (h : Blind add) {attributes : Attributes}
    (hnames : Names partAttributes attributes) (inside : List α) : add attributes inside = inside := by
  rw [← h.passes, filter_parts hnames, h.nothing]

/-- Nothing is collected from regular parts. -/
theorem Blind.collect_regular (h : Blind add) {inserted : String → Prop} {n : Node}
    (hn : n.Regular partAttributes inserted) : n.collect add = [] := by
  induction hn with
  | text => exact collect_text ..
  | element _ hnames _ _ ih => rw [collect_element, h.part hnames, collectAll_eq_nil add ih]
  | around _ hnames =>
    rw [collect_element, h.part hnames]
    simp

end Collecting

/-! ## §3. Elements. -/

theorem fragment_of_container {e : Element} (h : e.kind.container = true) (s : PageSetting)
    (inner : List Node) : fragment s e inner = .ok (container s e inner) := by
  unfold fragment
  split
  all_goals rename_i hk
  all_goals first
    | rfl
    | rw [hk] at h
      cases h

/-- What lies in an element matters for containers only. -/
theorem fragment_of_not_container {e : Element} (h : e.kind.container = false) (s : PageSetting)
    (inner : List Node) : fragment s e inner = fragment s e [] := by
  unfold fragment
  cases hk : e.kind
  all_goals first
    | rfl
    | rw [hk] at h
      cases h

/-- The identifiers of the parts of an element. -/
def partIds (s : PageSetting) (e : Element) : List String :=
  match e.kind with
  | .checkbox => [s.subId e.identifier "input"]
  | .comboBox => [s.subId e.identifier "options"]
  | _ => []

/-- What tells the script for scrollbars of a container. -/
def scrollbarAttribute (s : PageSetting) (e : Element) : Attributes :=
  if s.customScrollbars && scrolls e then [("data-custom-scrollbar", .text (scrollbarData e))] else []

variable {α : Type} {add : Attributes → List α → List α}

/-- What is collected inside an element: in a container around what is collected inside it, and
else from the parts with an identifier. -/
def collectInside (add : Attributes → List α → List α) (s : PageSetting) (e : Element)
    (inside : List α) : List α :=
  if e.kind.container then add (scrollbarAttribute s e) inside
  else (partIds s e).flatMap fun id => add [("id", .text id)] []

theorem Blind.contentAttributes (h : Blind add) (s : PageSetting) (e : Element) (inside : List α) :
    add (Markup.contentAttributes s e) inside = add (scrollbarAttribute s e) inside := by
  rw [← h.passes, ← h.passes (scrollbarAttribute s e)]
  congr 1
  unfold Markup.contentAttributes scrollbarAttribute
  repeat' split
  all_goals rfl

theorem collect_checkbox (h : Blind add) {s : PageSetting} {e : Element} {f : Fragment}
    (hdom : e.domId = .ok e.identifier) (hf : checkbox s e = .ok f) :
    Names partAttributes f.attributes
      ∧ collectAll add f.body = add [("id", .text (s.subId e.identifier "input"))] [] := by
  obtain ⟨domId, hdomId, hf⟩ := (bind_eq_ok_iff _ _ _).mp hf
  cases hdom.symm.trans hdomId
  cases hf
  refine ⟨names_of rfl, ?_⟩
  have hlabel : Names partAttributes [("for", .text (s.subId e.identifier "input"))] := names_of rfl
  simp only [box, tag, collectAll_cons, collectAll_nil, collect_element, shown, collect_text,
    List.append_nil]
  rw [h.part hlabel, List.append_nil, ← h.passes]
  rfl

theorem collect_comboBox (h : Blind add) {s : PageSetting} {e : Element} {f : Fragment}
    (hdom : e.domId = .ok e.identifier) (hf : comboBox s e = .ok f) :
    Names partAttributes f.attributes
      ∧ collectAll add f.body = add [("id", .text (s.subId e.identifier "options"))] [] := by
  obtain ⟨domId, hdomId, hf⟩ := (bind_eq_ok_iff _ _ _).mp hf
  cases hdom.symm.trans hdomId
  obtain ⟨items, _, hf⟩ := (bind_eq_ok_iff _ _ _).mp hf
  obtain ⟨found, _, hf⟩ := (bind_eq_ok_iff _ _ _).mp hf
  cases hf
  have hoptions : collectAll add (items.map fun v => tag "option" [("value", v)] []) = [] := by
    refine collectAll_eq_nil add fun n hn => ?_
    obtain ⟨v, _, rfl⟩ := List.mem_map.mp hn
    rw [tag, collect_element, h.part (names_of rfl), collectAll_nil]
  refine ⟨names_of rfl, ?_⟩
  simp only [box, tag, collectAll_cons, collectAll_nil, collect_element, List.append_nil] at hoptions ⊢
  rw [hoptions, h.part (names_of rfl), List.nil_append]

/-- The kinds whose parts have an identifier. -/
def namesParts (k : Kind) : Bool := k = .checkbox || k = .comboBox

/-- Nothing is collected from the fragments of other kinds than these and containers. -/
theorem collect_plain (h : Blind add) {s : PageSetting} {e : Element} {inner : List Node}
    {f : Fragment} (hcontainer : e.kind.container = false) (hnamed : namesParts e.kind = false)
    (hf : fragment s e inner = .ok f) :
    Names partAttributes f.attributes ∧ collectAll add f.body = [] := by
  rw [fragment_of_not_container hcontainer] at hf
  have hgraphic : Ensures (fun n => ∃ m, n = .raw m ∧ True) (graphic s e) := by
    intro n hn
    obtain ⟨m, rfl, _⟩ := isGraphic_graphic s e n hn
    exact ⟨m, rfl, trivial⟩
  have hown : ownNames e.kind = partAttributes := by
    cases hk : e.kind
    all_goals first
      | rfl
      | exact absurd hcontainer (by rw [hk]; decide)
      | exact absurd hnamed (by rw [hk]; decide)
  have hempty : fragment s e (childNodes "") = .ok f := by rwa [childNodes, if_pos rfl]
  have hregular := regular_fragment (fun _ _ => trivial) hgraphic trivial f hempty
  rw [hown] at hregular
  have hnames := Node.Regular.names hregular
  refine ⟨hnames, ?_⟩
  have hnode := h.collect_regular hregular
  rwa [Fragment.node, collect_element, h.part hnames] at hnode

/-- **What is collected inside an element.** -/
theorem collect_fragment (h : Blind add) {s : PageSetting} {e : Element} {inner : List Node}
    {f : Fragment} (hdom : e.domId = .ok e.identifier) (hf : fragment s e inner = .ok f) :
    Names partAttributes f.attributes
      ∧ collectAll add f.body = collectInside add s e (collectAll add inner) := by
  cases hcontainer : e.kind.container with
  | true =>
    rw [fragment_of_container hcontainer] at hf
    cases hf
    have hheader : collectAll add (header e) = [] :=
      collectAll_eq_nil add fun n hn =>
        h.collect_regular (regular_header (fun _ _ => trivial : ∀ m ∈ fixedMarkup, True) e n hn)
    refine ⟨names_of rfl, ?_⟩
    rw [container, box, collectInside, if_pos hcontainer, collectAll_append, hheader,
      collectAll_cons, tag, collect_element, h.contentAttributes, collectAll_nil]
    simp
  | false =>
    rw [collectInside, if_neg (by simp [hcontainer])]
    by_cases hcheckbox : e.kind = .checkbox
    · rw [fragment, hcheckbox] at hf
      obtain ⟨hnames, hbody⟩ := collect_checkbox h hdom (by rwa [switch, hcheckbox] at hf)
      refine ⟨hnames, ?_⟩
      rw [hbody, partIds, hcheckbox]
      simp
    · by_cases hcombo : e.kind = .comboBox
      · rw [fragment, hcombo] at hf
        obtain ⟨_, _, hf⟩ := (bind_eq_ok_iff _ _ _).mp hf
        obtain ⟨hnames, hbody⟩ := collect_comboBox h hdom (by rwa [hcombo] at hf)
        refine ⟨hnames, ?_⟩
        rw [hbody, partIds, hcombo]
        simp
      · obtain ⟨hnames, hbody⟩ := collect_plain h hcontainer (by simp [namesParts, *]) hf
        refine ⟨hnames, ?_⟩
        rw [hbody, partIds]
        split
        next hk => exact absurd hk hcheckbox
        next hk => exact absurd hk hcombo
        next => rfl

/-- **What is collected from an element**: its tag tells its identifier and its kind, and may tell
a parameter; to a collection nothing else of it makes a difference. -/
theorem collect_elementNode (h : Blind add) {s : PageSetting} {e : Element} {inner : List Node}
    {n : Node} (hn : elementNode s e inner = .ok n) :
    e.domId = .ok e.identifier ∧ ∃ parameter, Names ["data-parameter-id"] parameter
      ∧ n.collect add = add (("id", .text e.identifier) :: ("data-type", .text e.kind.name)
          :: parameter) (collectInside add s e (collectAll add inner)) := by
  obtain ⟨f, domId, more, hf, hdomId, rfl, hmore⟩ := exists_of_elementNode hn
  have hdom : e.domId = .ok e.identifier := by rw [hdomId, Element.identifier_eq hdomId]
  cases hdom.symm.trans hdomId
  obtain ⟨hnames, hbody⟩ := collect_fragment h hdom hf
  refine ⟨hdom, more.filter fun a => !partAttributes.contains a.1, fun a ha => ?_, ?_⟩
  · obtain ⟨ha, hnot⟩ := List.mem_filter.mp ha
    have hnot : a.1 ∉ partAttributes := by simpa using hnot
    rcases hmore a ha with hown | hextra
    · exact absurd (hnames a hown) hnot
    · rcases List.mem_cons.mp hextra with heq | hhidden
      · exact List.mem_singleton.mpr heq
      · rw [List.mem_singleton.mp hhidden] at hnot
        exact absurd (by decide) hnot
  · have hfilter : (("id", .text e.identifier)
          :: ("class", .text (classes e (Value.find? f.attributes "class")))
          :: ("data-type", .text e.kind.name) :: more).filter (fun a => !partAttributes.contains a.1)
        = ("id", .text e.identifier) :: ("data-type", .text e.kind.name)
          :: more.filter fun a => !partAttributes.contains a.1 := rfl
    rw [collect_element, hbody, ← h.passes, hfilter]

/-! ## §4. The nodes of elements. -/

/-- What is collected from the node of an element is what the element makes of what is collected
inside it, if it is a container. -/
def Follows (add : Attributes → List α → List α) (own : Element → List α → List α)
    (s : PageSetting) : Prop :=
  ∀ e inner n, elementNode s e inner = .ok n →
    n.collect add = own e (if e.kind.container then collectAll add inner else [])

/-- The lines inside an element add what they add one after the other. -/
theorem collectAll_inner (add : Attributes → List α → List α) (depth : Nat)
    (lines : List (List Node)) :
    collectAll add (if lines.isEmpty then [] else
        .raw "\n" :: (lines.intersperse [.raw "\n"]).flatten ++ [.raw ("\n" ++ indent depth)])
      = lines.flatMap (collectAll add) := by
  split
  next hempty =>
    rw [List.isEmpty_iff.mp hempty]
    simp
  next => simp [collectAll_lines]

/-- **What is collected from the nodes of a forest** is gathered along the forest. -/
theorem Follows.collect_treeNodes {own : Element → List α → List α} {s : PageSetting}
    (h : Follows add own s) {ts : List Tree} (hheld : OnlyContainersHold ts) {depth : Nat}
    {lines : List (List Node)} (hlines : treeNodes s depth ts = .ok lines) :
    lines.flatMap (collectAll add) = gatherAll own ts := by
  induction ts using gatherAll.induct (fun t => OnlyContainersHold [t] → ∀ depth n,
      treeNode s depth t = .ok n → n.collect add = gather own t) generalizing depth lines with
  | case1 e children ih hheld depth n hn =>
    rw [treeNode] at hn
    obtain ⟨lines, hlines, hn⟩ := (bind_eq_ok_iff _ _ _).mp hn
    have hself : IsNode [Layout.Tree.node e children] (.node e children) := .root (by simp)
    have hinner := ih (hheld.within fun t ht => .child hself ht) hlines
    rw [h e _ n hn, collectAll_inner, hinner, gather_node]
    split
    next => rfl
    next hnot =>
      have hnone : children = [] := Classical.byContradiction fun hsome => hnot (hheld _ hself hsome)
      rw [hnone, gatherAll]
  | case2 =>
    rw [treeNodes] at hlines
    cases hlines
    rw [gatherAll, List.flatMap_nil]
  | case3 t ts iht ihts =>
    rw [treeNodes] at hlines
    obtain ⟨n, hn, hlines⟩ := (bind_eq_ok_iff _ _ _).mp hlines
    obtain ⟨rest, hrest, hlines⟩ := (bind_eq_ok_iff _ _ _).mp hlines
    cases hlines
    have ht := iht (hheld.within fun u hu => .root (List.mem_singleton.mp hu ▸ by simp)) depth n hn
    have hts := ihts (hheld.within fun u hu => .root (List.mem_cons_of_mem t hu)) hrest
    rw [List.flatMap_cons, hts, gatherAll_cons, ← ht]
    simp

/-- **What is collected from the nodes of all elements** is gathered along their forest. -/
theorem Follows.collectAll_elementNodes {own : Element → List α → List α} {s : PageSetting}
    (h : Follows add own s) {elements : List Element} {depth : Nat} {content : List Node}
    (hcontent : elementNodes s elements depth = .ok content) :
    ∃ ts, renderTree s.layers elements = .ok ts ∧ collectAll add content = gatherAll own ts := by
  obtain ⟨ts, hts, hcontent⟩ := (bind_eq_ok_iff _ _ _).mp hcontent
  obtain ⟨lines, hlines, hcontent⟩ := (bind_eq_ok_iff _ _ _).mp hcontent
  cases hcontent
  have hheld : OnlyContainersHold ts :=
    renderTree_eq hts ▸ onlyContainersHold_forest s.layers elements
  exact ⟨ts, hts, by rw [collectAll_lines, h.collect_treeNodes hheld hlines]⟩

end ControlSurface.Markup
