/-
  ControlSurface.Proofs.Svg.TextContent
  ─────────────────────────────────────
  The characters of a document and of its text elements, at any depth and white space included, and
  what optimizing keeps of them.  Data of editors is no content.  What the passes keep is described
  on the document itself (`keptIn`): where they meet text, it tells whether the element in front
  went, and the three flags by which the passes know that are one.

  Main results:
    * `contentIn_thinned` — the content that the passes leave.
    * `contentIn_readBack` — what is read back of the optimized text has this content; no element
      comes into the namespace of an editor when unused declarations are gone.
-/
import ControlSurface.Proofs.Svg.Reduction
import Mathlib.Data.List.Nodup

namespace ControlSurface.Svg

open ControlSurface.Outcome ControlSurface.Text ControlSurface.Xml

/-! ## §1. Content. -/

/-- The content of a part of a document: its characters, and those of each text element in it, in
document order. -/
structure Content where
  characters : List Char
  texts : List (List Char)
  deriving DecidableEq

/-- The content of two parts one after the other. -/
def Content.append (c c' : Content) : Content :=
  ⟨c.characters ++ c'.characters, c.texts ++ c'.texts⟩

/-- The content of an element, what is in it given: nothing if it is an editor's. -/
def Content.enclose (name : Name) (c : Content) : Content :=
  if isEditorName name then ⟨[], []⟩
  else ⟨c.characters, (if holdsText name then [c.characters] else []) ++ c.texts⟩

@[simp] theorem Content.append_nothing (c : Content) : c.append ⟨[], []⟩ = c := by
  simp [Content.append]

@[simp] theorem Content.nothing_append (c : Content) : Content.append ⟨[], []⟩ c = c := by
  simp [Content.append]

mutual
/-- The content of a node. -/
def contentIn : Node → Content
  | .element name _ _ children => (contentAmong children).enclose name
  | .text s => ⟨s.toList, []⟩
  | _ => ⟨[], []⟩

/-- The content of nodes. -/
def contentAmong : List Node → Content
  | [] => ⟨[], []⟩
  | n :: rest => (contentIn n).append (contentAmong rest)
end

mutual
/-- The content of a node that optimizing keeps. -/
def keptIn : Node → Content
  | .element name _ _ children => (keptAmong (holdsText name) false children).enclose name
  | .text s => ⟨s.toList, []⟩
  | _ => ⟨[], []⟩

/-- The content of nodes that optimizing keeps; `inText` tells whether white space is content where
they lie, and `gone` whether the node before goes. -/
def keptAmong (inText gone : Bool) : List Node → Content
  | [] => ⟨[], []⟩
  | .text s :: rest =>
    Content.append ⟨if gone || !inText && isBlankString s then [] else s.toList, []⟩
      (keptAmong inText false rest)
  | n :: rest => (keptIn n).append (keptAmong inText (goes n) rest)
end

theorem keptAmong_element {inText gone : Bool} {n : Node} (hn : isElement n = true)
    (rest : List Node) :
    keptAmong inText gone (n :: rest) = (keptIn n).append (keptAmong inText (goes n) rest) := by
  cases n with
  | element => rw [keptAmong]; simp
  | _ => cases hn

/-! ## §2. What the passes leave. -/

/-- What the passes leave of nodes; `after` and `pruned` tell that the node before was dropped as an
editor's or as an empty group, `droppable` that white space may go. -/
def thinnedAmong (inText after droppable pruned : Bool) (ns : List Node) : List Node :=
  pruneAmong pruned (collapseAmong inText droppable
    (mapAttributesAmong (fun given => given.filter fun a => !isEditorName a.name)
      (dropAmong isEditorName after ns)))

theorem contentIn_thinned_element (name : Name) (declared : List Declaration)
    (attributes : List Attribute) (children : List Node) :
    contentIn (thinned (.element name declared attributes children))
      = (contentAmong (thinnedAmong (holdsText name) false true false children)).enclose name := by
  rw [thinned, dropEditorData, dropBelow, mapAttributes, collapseSpace, pruneBelow, contentIn]
  rfl

/-- A group that goes has no content that is kept. -/
theorem keptAmong_of_goes {gone : Bool} {ns : List Node}
    (hkinds : ∀ n ∈ ns, isElement n = true ∨ n.isText = true) (hapart : Apart Node.isText ns)
    (hnone : ∀ n ∈ ns, isElement n = true → goes n = true ∧ keptIn n = ⟨[], []⟩)
    (hstart : gone = true ∨ leadingBlank ns = true) : keptAmong false gone ns = ⟨[], []⟩ := by
  induction ns generalizing gone with
  | nil => rfl
  | cons n ns ih =>
    obtain ⟨hn, hns⟩ := List.forall_mem_cons.mp hkinds
    obtain ⟨hnext, hrest⟩ := List.isChain_cons.mp hapart
    obtain ⟨hself, hothers⟩ := List.forall_mem_cons.mp hnone
    rcases hn with hn | hn
    · rw [keptAmong_element hn, (hself hn).1, (hself hn).2, ih hns hrest hothers (Or.inl rfl),
        Content.append_nothing]
    · cases n with
      | text s =>
        have hgoes : (gone || !false && isBlankString s) = true := by
          rcases hstart with rfl | hblank
          · rfl
          · rw [show isBlankString s = true from hblank, Bool.not_false, Bool.and_self,
              Bool.or_true]
        -- what follows text begins with an element, if with anything
        have hlead : leadingBlank ns = true :=
          leadingBlank_of_start fun m hm => by simpa using hnext m hm rfl
        rw [keptAmong, if_pos hgoes, ih hns hrest hothers (Or.inr hlead), Content.append_nothing]
      | _ => cases hn

theorem not_holdsText_of_group {name : Name} (h : name.base ∈ groupNames) :
    holdsText name = false := by
  unfold holdsText
  have hall : ∀ base ∈ groupNames, textNames.contains base = false := by decide
  exact hall _ h

theorem keptIn_of_goes {outer : List Declaration} {n : Node} (h : n.Regular false outer)
    (hplain : holdsReference n = false) (hgoes : Goes n) : keptIn n = ⟨[], []⟩ := by
  induction hgoes generalizing outer with
  | @editor name declared attributes children heditor =>
    rw [keptIn, Content.enclose, if_pos heditor]
  | @group name declared attributes children hgroup hid hblank hall ih =>
    cases h with
    | element _ hapart hchildren =>
      rw [holdsReference_element, Bool.or_eq_false_iff] at hplain
      have hinner := holdsReference_of_mem hplain.2
      have hnone := @keptAmong_of_goes false children
        (fun c hc => element_or_text (hchildren c hc) (hinner c hc)) hapart
        (fun c hc helement => ⟨goes_iff.mpr (hall c hc helement),
          ih c hc helement (hchildren c hc) (hinner c hc)⟩) (Or.inr hblank)
      rw [keptIn, not_holdsText_of_group hgroup, hnone, Content.enclose]
      simp [not_holdsText_of_group hgroup]

section Among

variable (inText after droppable pruned : Bool) (rest : List Node)

theorem thinnedAmong_text (s : String) :
    thinnedAmong inText after droppable pruned (.text s :: rest)
      = if after then thinnedAmong inText false droppable pruned rest
        else if droppable && !inText && isBlankString s then
          thinnedAmong inText false false pruned rest
        else if pruned then thinnedAmong inText false false false rest
        else .text s :: thinnedAmong inText false false false rest := by
  unfold thinnedAmong
  rw [dropAmong]
  split
  next => rfl
  next =>
    rw [mapAttributesAmong, mapAttributes, collapseAmong]
    · split
      next => rfl
      next => rw [pruneAmong]
    · simp

theorem thinnedAmong_element {n : Node} (hn : isElement n = true) :
    thinnedAmong inText after droppable pruned (n :: rest)
      = if (n.name?.map isEditorName).getD false then thinnedAmong inText true droppable pruned rest
        else if isEmptyGroup (thinned n) then thinnedAmong inText false true true rest
        else thinned n :: thinnedAmong inText false true false rest := by
  cases n with
  | element name declared attributes children =>
    unfold thinnedAmong
    rw [dropAmong]
    · show pruneAmong _ (collapseAmong _ _ (mapAttributesAmong _
        (if isEditorName name then _ else _))) = if isEditorName name then _ else _
      split
      next => rfl
      next =>
        rw [mapAttributesAmong, dropBelow, mapAttributes, collapseAmong, pruneAmong, thinned,
          dropEditorData, dropBelow, mapAttributes]
        · rfl
        · rw [collapseSpace]
          simp
        · simp
    · simp
  | _ => cases hn

end Among

/-- What the passes leave of nodes, where that is known of each element among them.  Before text the
three flags of the passes are one: whether the element in front went. -/
theorem contentAmong_thinned {inText : Bool} {ns : List Node}
    (hkinds : ∀ n ∈ ns, isElement n = true ∨ n.isText = true) (hapart : Apart Node.isText ns)
    (hdropped : ∀ n ∈ ns, dropped n = goes n)
    (hgoes : ∀ n ∈ ns, goes n = true → keptIn n = ⟨[], []⟩)
    (hthinned : ∀ n ∈ ns, contentIn (thinned n) = keptIn n) {after droppable pruned gone : Bool}
    (hstate : ∀ n ∈ ns.head?, n.isText = true →
      gone = (after || pruned) ∧ (after = true ∨ droppable = true)) :
    contentAmong (thinnedAmong inText after droppable pruned ns) = keptAmong inText gone ns := by
  induction ns generalizing after droppable pruned gone with
  | nil => rfl
  | cons n ns ih =>
    obtain ⟨hn, hkinds⟩ := List.forall_mem_cons.mp hkinds
    obtain ⟨hnext, hrest⟩ := List.isChain_cons.mp hapart
    obtain ⟨hdrop, hdropped⟩ := List.forall_mem_cons.mp hdropped
    obtain ⟨hgone, hgoes⟩ := List.forall_mem_cons.mp hgoes
    obtain ⟨hself, hthinned⟩ := List.forall_mem_cons.mp hthinned
    have hlater := @ih hkinds hrest hdropped hgoes hthinned
    rcases hn with hn | hn
    · have hparts : dropped n
          = ((n.name?.map isEditorName).getD false || isEmptyGroup (thinned n)) := rfl
      rw [thinnedAmong_element _ _ _ _ _ hn, keptAmong_element hn]
      split
      next heditor =>
        rw [heditor, Bool.true_or] at hparts
        have hgoes : goes n = true := by rw [← hdrop, hparts]
        rw [hgone hgoes, hgoes, Content.nothing_append]
        exact hlater fun _ _ _ => ⟨rfl, Or.inl rfl⟩
      next heditor =>
        rw [Bool.not_eq_true] at heditor
        rw [heditor, Bool.false_or] at hparts
        split
        next hempty =>
          have hgoes : goes n = true := by rw [← hdrop, hparts, hempty]
          rw [hgone hgoes, hgoes, Content.nothing_append]
          exact hlater fun _ _ _ => ⟨rfl, Or.inr rfl⟩
        next hfull =>
          rw [Bool.not_eq_true] at hfull
          have hstays : goes n = false := by rw [← hdrop, hparts, hfull]
          rw [contentAmong, hself, hstays]
          exact congrArg _ (hlater fun _ _ _ => ⟨rfl, Or.inr rfl⟩)
    · cases n with
      | text s =>
        obtain ⟨rfl, hready⟩ := hstate _ rfl rfl
        -- after text comes an element, for which the flags are of no account
        have hbehind : ∀ {after droppable pruned gone : Bool}, ∀ m ∈ ns.head?, m.isText = true →
            gone = (after || pruned) ∧ (after = true ∨ droppable = true) := by
          intro _ _ _ _ m hm htext
          exact absurd htext (by simpa using hnext m hm rfl)
        rw [thinnedAmong_text, keptAmong]
        cases after with
        | true =>
          rw [if_pos rfl, Bool.true_or, Bool.true_or, if_pos rfl, Content.nothing_append]
          exact hlater hbehind
        | false =>
          obtain rfl : droppable = true := hready.resolve_left Bool.false_ne_true
          rw [if_neg Bool.false_ne_true, Bool.true_and, Bool.false_or]
          cases hblank : !inText && isBlankString s with
          | true =>
            rw [if_pos rfl, Bool.or_true, if_pos rfl, Content.nothing_append]
            exact hlater hbehind
          | false =>
            rw [if_neg Bool.false_ne_true, Bool.or_false]
            cases pruned with
            | true =>
              rw [if_pos rfl, if_pos rfl, Content.nothing_append]
              exact hlater hbehind
            | false =>
              rw [if_neg Bool.false_ne_true, if_neg Bool.false_ne_true, contentAmong, contentIn]
              exact congrArg _ (hlater hbehind)
      | _ => cases hn

/-- **The content that the passes leave** is the content that is kept. -/
theorem contentIn_thinned {outer : List Declaration} {n : Node} (h : n.Regular false outer)
    (hplain : holdsReference n = false) : contentIn (thinned n) = keptIn n := by
  induction h with
  | @element outer name declared attributes children hopens hapart hchildren ih =>
    rw [holdsReference_element, Bool.or_eq_false_iff] at hplain
    have hinner := holdsReference_of_mem hplain.2
    rw [contentIn_thinned_element, keptIn]
    refine congrArg (Content.enclose name) (contentAmong_thinned
      (fun c hc => element_or_text (hchildren c hc) (hinner c hc)) hapart
      (fun c hc => dropped_eq_goes (hchildren c hc) (hinner c hc))
      (fun c hc hgoes => keptIn_of_goes (hchildren c hc) (hinner c hc) (goes_iff.mp hgoes))
      (fun c hc => ih c hc (hinner c hc)) fun _ _ _ => ⟨rfl, Or.inr rfl⟩)
  | text s => rw [pass_thinned.other _ rfl, contentIn, keptIn]
  | comment hkeeps => cases hkeeps
  | instruction hkeeps => cases hkeeps
  | reference => cases hplain

/-! ## §3. What is read back. -/

mutual
/-- Attributes are no content. -/
theorem contentIn_mapAttributes (f : List Attribute → List Attribute) :
    (n : Node) → contentIn (mapAttributes f n) = contentIn n
  | .element name declared attributes children => by
    rw [mapAttributes, contentIn, contentIn, contentAmong_mapAttributesAmong f children]
  | .text s => by rw [mapAttributes]; simp
  | .comment s => by rw [mapAttributes]; simp
  | .instruction target data => by rw [mapAttributes]; simp
  | .reference name => by rw [mapAttributes]; simp

theorem contentAmong_mapAttributesAmong (f : List Attribute → List Attribute) :
    (ns : List Node) → contentAmong (mapAttributesAmong f ns) = contentAmong ns
  | [] => rfl
  | n :: rest => by
    rw [mapAttributesAmong, contentAmong, contentAmong, contentIn_mapAttributes f n,
      contentAmong_mapAttributesAmong f rest]
end

mutual
/-- Texts without characters are no content. -/
theorem contentIn_tidy : (n : Node) → contentIn n.tidy = contentIn n
  | .element name declared attributes children => by
    rw [Node.tidy, contentIn, contentIn, contentAmong_tidyNodes children]
  | .text s => rfl
  | .comment s => rfl
  | .instruction target data => rfl
  | .reference name => rfl

theorem contentAmong_tidyNodes : (ns : List Node) → contentAmong (tidyNodes ns) = contentAmong ns
  | [] => rfl
  | n :: rest => by
    rw [tidyNodes, contentAmong]
    split
    next hempty =>
      have hnothing : contentIn n = ⟨[], []⟩ := by
        cases n with
        | text s =>
          obtain rfl : s = "" := of_decide_eq_true hempty
          rfl
        | _ => cases hempty
      rw [hnothing, Content.nothing_append, contentAmong_tidyNodes rest]
    next => rw [contentAmong, contentIn_tidy n, contentAmong_tidyNodes rest]
end

theorem contentAmong_map {f : Node → Node} {ns : List Node}
    (h : ∀ n ∈ ns, contentIn (f n) = contentIn n) :
    contentAmong (ns.map f) = contentAmong ns := by
  induction ns with
  | nil => rfl
  | cons n ns ih =>
    obtain ⟨hn, hns⟩ := List.forall_mem_cons.mp h
    rw [List.map_cons, contentAmong, contentAmong, hn, ih hns]

/-- Whether a node is an element of an editor. -/
def isEditorNode (n : Node) : Bool := (n.name?.map isEditorName).getD false

/-- A pass keeps the names of elements. -/
theorem Pass.name? {f : List Attribute → List Attribute} {drops : Node → Bool} {pass : Node → Node}
    (h : Pass f drops pass) {keepsNotes : Bool} {outer : List Declaration} {n : Node}
    (hn : n.Regular keepsNotes outer) : (pass n).name? = n.name? := by
  cases hn with
  | element _ hapart _ =>
    obtain ⟨after, hpass, _⟩ := h.element _ _ _ hapart
    rw [hpass]
    rfl
  | _ => rw [h.other _ rfl]

/-- Where all elements of editors are dropped, none is left in one that is no editor's. -/
theorem Pass.no_editors {f : List Attribute → List Attribute} {drops : Node → Bool}
    {pass : Node → Node} (h : Pass f drops pass)
    (hdrops : ∀ n, drops n = false → isEditorNode n = false) {keepsNotes : Bool}
    {outer : List Declaration} {n : Node} (hn : n.Regular keepsNotes outer)
    (hself : isEditorNode n = false) : ∀ m ∈ nodesIn (pass n), isEditorNode m = false := by
  induction hn with
  | @element outer name declared attributes children _ hapart hchildren ih =>
    obtain ⟨after, hpass, hthins⟩ := h.element name declared attributes hapart
    rw [hpass]
    intro m hm
    rcases mem_nodesIn_element.mp hm with rfl | ⟨k, hk, hm⟩
    · exact hself
    · by_cases helement : isElement k = true
      · have hleft : k ∈ after.filter isElement := List.mem_filter.mpr ⟨hk, helement⟩
        rw [hthins.elements] at hleft
        obtain ⟨c, hc, rfl⟩ := List.mem_map.mp hleft
        obtain ⟨hc, hstays⟩ := List.mem_filter.mp hc
        rw [Bool.not_eq_true'] at hstays
        exact ih c (List.mem_of_mem_filter hc) (hdrops c hstays) m hm
      · cases k with
        | element => exact absurd rfl helement
        | _ => rw [List.mem_singleton.mp hm]; rfl
  | _ =>
    rw [h.other _ rfl]
    intro m hm
    rw [List.mem_singleton.mp hm]
    rfl

/-- Whether no declaration makes the namespace of an editor the default. -/
def NoEditorDefault (declared : List Declaration) : Prop :=
  ∀ d ∈ declared, d.label = none → d.space ∉ editorSpaces

theorem space_of_no_label {declared : List Declaration} {a : Attribute}
    (h : attribute? declared a.written = some a) (hlabel : a.name.written.label = none) :
    a.name.space = none := by
  unfold attribute? at h
  dsimp only at h
  rw [if_pos (show a.written.name.label = none from hlabel)] at h
  exact (congrArg (fun b : Attribute => b.name.space) (Option.some.inj h)).symm

/-- Whether the default namespace is that of an element in a node. -/
def DefaultUsed (declared : List Declaration) (n : Node) : Prop :=
  ∃ m ∈ nodesIn n, ∃ name u, m.name? = some name ∧ name.space = some u
    ∧ resolve? declared none = some (some u)

section Defaults

variable {keepsNotes : Bool} {outer outer' declared : List Declaration} {name : Name}
  {attributes : List Attribute} {children : List Node}

/-- A default that an element is there for is its own namespace or that of an element in it. -/
theorem defaultUsed_at (hopens : Reopens outer name declared attributes)
    (hchildren : ∀ c ∈ children, none ∈ usedLabels c → DefaultUsed (declared.reverse ++ outer) c)
    (hused : none ∈ labelsAt name attributes children) :
    DefaultUsed (declared.reverse ++ outer) (.element name declared attributes children) := by
  rcases List.mem_append.mp hused with hown | hbelow
  · obtain ⟨n, hn, hlabel⟩ := List.mem_map.mp hown
    obtain ⟨hn, hspace⟩ := List.mem_filter.mp hn
    obtain ⟨u, hu⟩ := Option.isSome_iff_exists.mp hspace
    rcases List.mem_cons.mp hn with rfl | hn
    · refine ⟨_, mem_nodesIn_element.mpr (Or.inl rfl), n, u, rfl, hu, ?_⟩
      rw [← hu, ← hopens.space, hlabel]
    · -- attributes without a label are in no namespace
      obtain ⟨a, ha, rfl⟩ := List.mem_map.mp hn
      rw [space_of_no_label (hopens.resolved a ha) hlabel] at hu
      cases hu
  · obtain ⟨c, hc, hbelow⟩ := mem_usedLabelsAmong.mp hbelow
    obtain ⟨m, hm, hname⟩ := hchildren c hc hbelow
    exact ⟨m, mem_nodesIn_element.mpr (Or.inr ⟨c, hc, hm⟩), hname⟩

theorem defaultUsed_of_mem {n : Node} (h : n.Regular keepsNotes outer)
    (hused : none ∈ usedLabels n) : DefaultUsed outer n := by
  induction h with
  | @element outer name declared attributes children hopens _ _ ih =>
    rw [usedLabels] at hused
    obtain ⟨hused, hfree⟩ := List.mem_filter.mp hused
    rw [Bool.not_eq_true', List.any_eq_false] at hfree
    -- the element declares no default itself, so the one further up is used
    have hnone : inForce? declared.reverse none = none :=
      inForce?_eq_none fun d hd heq => hfree d (List.mem_reverse.mp hd) (by simp [heq])
    have hsame : resolve? (declared.reverse ++ outer) none = resolve? outer none :=
      resolve?_congr (by rw [inForce?_append, hnone, Option.none_or])
    obtain ⟨m, hm, n, u, hn, hu, hfound⟩ := defaultUsed_at hopens ih hused
    exact ⟨m, hm, n, u, hn, hu, hsame ▸ hfound⟩
  | _ => simp [usedLabels] at hused

/-- Among elements of which none is an editor's, no default that is used is an editor's. -/
theorem noEditorDefault_kept (hopens : Reopens outer name declared attributes)
    (hchildren : ∀ n ∈ children, n.Regular keepsNotes (declared.reverse ++ outer))
    (hno : ∀ m ∈ nodesIn (.element name declared attributes children), isEditorNode m = false) :
    NoEditorDefault (keptOf (labelsAt name attributes children) declared) := by
  intro d hd hlabel heditor
  obtain ⟨hd, hkept⟩ := List.mem_filter.mp hd
  rw [Bool.and_eq_true, hlabel, List.contains_iff_mem, decide_eq_true_iff] at hkept
  obtain ⟨m, hm, n, u, hn, hu, hfound⟩ :=
    defaultUsed_at hopens (fun c hc => defaultUsed_of_mem (hchildren c hc)) hkept.2
  -- no label is declared twice, so this is the default in force
  have hfirst : inForce? (declared.reverse ++ outer) none = some d := by
    cases hfind : inForce? declared.reverse none with
    | none => exact absurd hlabel (by
        simpa using List.find?_eq_none.mp hfind d (List.mem_reverse.mpr hd))
    | some e =>
      have he : e ∈ declared := List.mem_reverse.mp (List.mem_of_find?_eq_some hfind)
      have hnone : e.label = none := by simpa using List.find?_some hfind
      have hsame : e.written.name = d.written.name := by
        rw [Declaration.written, Declaration.written, hnone, hlabel]
      rw [inForce?_append, hfind, Option.some_or,
        List.inj_on_of_nodup_map hopens.labels he hd hsame]
  have hspace : u = d.space := by
    unfold resolve? at hfound
    unfold inForce? at hfirst
    rw [if_neg (by simp), hfirst] at hfound
    dsimp only at hfound
    rw [if_neg hkept.1] at hfound
    cases hfound
    rfl
  have hself := hno m hm
  rw [isEditorNode, hn, Option.map_some, Option.getD_some, isEditorName, hu, Option.map_some,
    Option.getD_some, hspace, Bool.eq_false_iff] at hself
  exact hself (List.contains_iff_mem.mpr heditor)

/-- An element that is no editor's is none when unused declarations are gone. -/
theorem SameUses.editorName
    (hsame : SameUses outer outer' (.element name declared attributes children))
    (hlabelled : Labelled outer) (hopens : Reopens outer name declared attributes)
    (hchildren : ∀ n ∈ children, n.Regular keepsNotes (declared.reverse ++ outer))
    {inner : List Declaration}
    (hinner : inner = (keptOf (labelsAt name attributes children) declared).reverse ++ outer')
    (hnone : name.space = none → NoEditorDefault inner) :
    isEditorName { name with space := (resolve? inner name.written.label).getD none }
      = isEditorName name := by
  unfold isEditorName
  cases hspace : name.space with
  | some u =>
    have hfound := hsame.elementName hopens hchildren (by rw [hspace]; rfl)
    rw [hinner, hfound, hspace]
    rfl
  | none =>
    dsimp only
    rw [label_eq_none hlabelled hopens hspace]
    unfold resolve?
    rw [if_neg (by simp)]
    cases hfind : inner.find? fun d => d.label == none with
    | none => rfl
    | some d =>
      dsimp only
      split
      next => rfl
      next =>
        have hlabel : d.label = none := by simpa using List.find?_some hfind
        have houtside := hnone hspace d (List.mem_of_find?_eq_some hfind) hlabel
        rw [Option.getD_some, Option.map_some, Option.getD_some, Option.map_none, Option.getD_none,
          Bool.eq_false_iff]
        exact fun heditor => houtside (List.contains_iff_mem.mp heditor)

end Defaults

/-- **The content is the same without unused declarations**, where no element is an editor's. -/
theorem contentIn_rescope {keepsNotes : Bool} {outer outer' : List Declaration} {n : Node}
    (h : n.Regular keepsNotes outer) (hlabelled : Labelled outer) (hsame : SameUses outer outer' n)
    (hno : ∀ m ∈ nodesIn n, isEditorNode m = false) (hdefault : NoEditorDefault outer') :
    contentIn (rescope outer' (dropUnused n)) = contentIn n := by
  induction h generalizing outer' with
  | @element outer name declared attributes children hopens _ hchildren ih =>
    generalize hinner : (keptOf (labelsAt name attributes children) declared).reverse ++ outer'
      = inner
    have hinnerDefault : NoEditorDefault inner := by
      intro d hd
      rw [← hinner] at hd
      rcases List.mem_append.mp hd with hd | hd
      · exact noEditorDefault_kept hopens hchildren hno d (List.mem_reverse.mp hd)
      · exact hdefault d hd
    have hbelow : ∀ c ∈ children, contentIn (rescope inner (dropUnused c)) = contentIn c := by
      intro c hc
      have hsub : ∀ m ∈ nodesIn c, isEditorNode m = false :=
        fun m hm => hno m (mem_nodesIn_element.mpr (Or.inr ⟨c, hc, hm⟩))
      exact ih c hc (hlabelled.inner hopens) (hinner ▸ hsame.child hopens hchildren hc) hsub
        hinnerDefault
    have heditor := hsame.editorName hlabelled hopens hchildren hinner.symm fun _ => hinnerDefault
    rw [dropUnused_element, rescope, hinner, rescopeAmong_eq, List.map_map, contentIn, contentIn]
    have hamong : contentAmong (children.map (rescope inner ∘ dropUnused))
        = contentAmong children := contentAmong_map hbelow
    rw [hamong, Content.enclose, Content.enclose, heditor]
    rfl
  | _ => rw [rescope_dropUnused_of_not rfl]

/-- There is no content in an editor's element, nor when unused declarations are gone. -/
theorem contentIn_rescope_editor {keepsNotes : Bool} {outer outer' : List Declaration} {n : Node}
    (h : n.Regular keepsNotes outer) (hlabelled : Labelled outer) (hsame : SameUses outer outer' n)
    (heditor : isEditorNode n = true) :
    contentIn (rescope outer' (dropUnused n)) = contentIn n := by
  cases h with
  | @element _ name declared attributes children hopens _ hchildren =>
    have hname : isEditorName name = true := heditor
    have hspace : name.space ≠ none := by
      intro hnone
      rw [isEditorName, hnone] at hname
      cases hname
    have hsameName := hsame.editorName hlabelled hopens hchildren rfl fun hnone =>
      absurd hnone hspace
    rw [dropUnused_element, rescope, contentIn, contentIn, Content.enclose, Content.enclose,
      hsameName, hname, if_pos rfl, if_pos rfl]
  | _ => cases heditor

/-- **What is read back of an optimized text** has the content that is kept. -/
theorem contentIn_readBack {text : String} {d : Document} (h : parse false text = .ok d)
    (hplain : holdsReference d.root = false) : contentIn (readBack d).tidy = keptIn d.root := by
  have hregular := regular_of_parse h
  have hreduced : contentIn (reducedTree d d.root) = keptIn d.root := by
    rw [reducedTree, contentIn_mapAttributes, contentIn_thinned hregular hplain]
  have hnothing : ∀ {p : Declaration → Prop}, ∀ d ∈ ([] : List Declaration), p d :=
    fun _ hd => absurd hd List.not_mem_nil
  rw [contentIn_tidy, readBack, optimizeTree_eq, ← hreduced]
  have hroot : isEditorNode (reducedTree d d.root) = isEditorNode d.root := by
    rw [isEditorNode, (pass_reducedTree d).name? hregular, isEditorNode]
  cases heditor : isEditorNode d.root with
  | true =>
    exact contentIn_rescope_editor (regular_reducedTree d hregular) hnothing (fun _ _ => rfl)
      (hroot.trans heditor)
  | false =>
    refine contentIn_rescope (regular_reducedTree d hregular) hnothing (fun _ _ => rfl) ?_ hnothing
    refine (pass_reducedTree d).no_editors (fun n hn => ?_) hregular heditor
    exact (Bool.or_eq_false_iff.mp hn).1

end ControlSurface.Svg
