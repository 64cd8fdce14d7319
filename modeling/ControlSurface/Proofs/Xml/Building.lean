/-
  ControlSurface.Proofs.Xml.Building
  ──────────────────────────────────
  Trees that are built from proper items are proper.  Every step of a builder keeps its open
  elements proper (`proper_of_step`), so does a whole run, and so the root of a document that was
  read can be written and read again (`proper_of_read?`).
-/
import ControlSurface.Proofs.Xml.Rules
import ControlSurface.Proofs.Xml.Steps

namespace ControlSurface.Xml

open ControlSurface.Outcome ControlSurface.Text

/-! ## §1. Proper nodes. -/

/-- A namespace declaration that can be read again. -/
structure Declaration.Proper (d : Declaration) : Prop where
  label : ∀ l, d.label = some l → isName l.toList = true
  space : IsText d.space.toList

/-- An attribute that can be read again. -/
structure Attribute.Proper (a : Attribute) : Prop where
  name : a.name.written.Proper
  value : IsValue a.value

/-- A node that can be read again. -/
inductive Node.Proper : Node → Prop
  | element {name : Name} {declared : List Declaration} {attributes : List Attribute}
      {children : List Node} (hname : name.written.Proper) (hdeclared : ∀ d ∈ declared, d.Proper)
      (hattributes : ∀ a ∈ attributes, a.Proper) (hchildren : ∀ n ∈ children, Node.Proper n) :
      Node.Proper (.element name declared attributes children)
  | text {s : String} (h : IsText s.toList) : Node.Proper (.text s)
  | comment {s : String} (h : IsComment s) : Node.Proper (.comment s)
  | instruction {target data : String} (h : IsInstruction target data) :
      Node.Proper (.instruction target data)
  | reference {name : String} (h : IsEntity name) : Node.Proper (.reference name)

/-- An open element whose parts are proper. -/
structure Frame.Proper (f : Frame) : Prop where
  name : f.name.written.Proper
  declared : ∀ d ∈ f.declared, d.Proper
  attributes : ∀ a ∈ f.attributes, a.Proper
  children : ∀ n ∈ f.children, n.Proper

/-- A builder whose open elements and root are proper. -/
structure Builder.Proper (b : Builder) : Prop where
  stack : ∀ f ∈ b.stack, f.Proper
  root : ∀ n, b.root = some n → n.Proper

/-! ## §2. Adding nodes. -/

theorem IsText.append {cs ds : List Char} (hc : IsText cs) (hd : IsText ds) : IsText (cs ++ ds) :=
  fun c h => (List.mem_append.mp h).elim (hc c) (hd c)

theorem proper_addNode {n : Node} {children : List Node} (hn : n.Proper)
    (h : ∀ m ∈ children, m.Proper) : ∀ m ∈ addNode n children, m.Proper := by
  -- text after text is put to it
  unfold addNode
  split
  next s t rest =>
    intro m hm
    rcases List.mem_cons.mp hm with rfl | hm
    · cases hn with
      | text hs =>
        cases h (.text t) (List.mem_cons_self ..) with
        | text ht =>
          refine .text ?_
          rw [String.toList_append]
          exact ht.append hs
    · exact h m (List.mem_cons_of_mem _ hm)
  next =>
    intro m hm
    rcases List.mem_cons.mp hm with rfl | hm
    · exact hn
    · exact h m hm

theorem proper_of_add {b : Builder} {n : Node} (hb : b.Proper) (hn : n.Proper) :
    Finds Builder.Proper (b.add n) := by
  unfold Builder.add
  split
  next f rest hstack =>
    have hf := hb.stack f (by rw [hstack]; exact List.mem_cons_self ..)
    refine finds_some ⟨fun g hg => ?_, hb.root⟩
    rcases List.mem_cons.mp hg with rfl | hg
    · exact ⟨hf.name, hf.declared, hf.attributes, proper_addNode hn hf.children⟩
    · exact hb.stack g (by rw [hstack]; exact List.mem_cons_of_mem f hg)
  next => exact finds_none

theorem proper_of_deliver {b : Builder} {n : Node} (hb : b.Proper) (hn : n.Proper) :
    Finds Builder.Proper (b.deliver n) := by
  unfold Builder.deliver
  split
  next => exact finds_some ⟨hb.stack, fun m hm => by cases hm; exact hn⟩
  next => exact finds_none
  next => exact proper_of_add hb hn

theorem Frame.Proper.node {f : Frame} (h : f.Proper) : f.node.Proper :=
  .element h.name h.declared h.attributes fun n hn => h.children n (List.mem_reverse.mp hn)

/-! ## §3. Values under rules. -/

/-- A collapsed value is proper. -/
theorem isValue_collapse {value : List Piece} (h : IsValue value) : IsValue (collapse value) := by
  unfold collapse
  split
  next s =>
    have hs : IsText s.toList := h.proper (.text s) (List.mem_cons_self ..)
    refine ⟨fun p hp => ?_, List.isChain_singleton _⟩
    rw [List.mem_singleton.mp hp]
    show IsText _
    rw [String.toList_ofList]
    refine of_mem_joinWith (List.all_iff_forall_prop.mp (by decide)) fun q hq => ?_
    exact of_mem_splitAt hs q (List.mem_of_mem_filter hq)
  next => exact h

theorem TagAttribute.Proper.ruled {rules : List AttributeRule} {a : TagAttribute} (ha : a.Proper) :
    (ruled rules a).Proper := by
  unfold Xml.ruled
  split
  next =>
    split
    next => exact ⟨ha.name, isValue_collapse ha.value⟩
    next => exact ha
  next => exact ha

/-- A rule adds its default at most. -/
theorem proper_addDefault {attributes : List TagAttribute} {r : AttributeRule} (hr : r.Proper)
    (hattributes : ∀ a ∈ attributes, a.Proper) : ∀ a ∈ addDefault attributes r, a.Proper := by
  unfold addDefault
  split
  next value hvalue =>
    split
    next => exact hattributes
    next =>
      intro a ha
      rcases List.mem_append.mp ha with ha | ha
      · exact hattributes a ha
      · rw [List.mem_singleton.mp ha]
        refine ⟨hr.name, ?_⟩
        dsimp only
        split
        next => exact isValue_collapse (hr.fallback value hvalue)
        next => exact hr.fallback value hvalue
  next => exact hattributes

/-- The attributes of a tag under proper rules are proper. -/
theorem proper_withRules {rules : List AttributeRule} {element : QName} {given : List TagAttribute}
    (hrules : ProperRules rules) (hgiven : ∀ a ∈ given, a.Proper) :
    ∀ a ∈ withRules rules element given, a.Proper := by
  have hmine : ∀ r ∈ rules.filter (fun r => r.owner == element), r.Proper :=
    fun r hr => hrules r (List.mem_of_mem_filter hr)
  unfold withRules
  dsimp only
  -- the rules of the element are gone through with the attributes that it has so far
  refine List.foldlRecOn _ addDefault (motive := fun attributes => ∀ a ∈ attributes, a.Proper) ?_
    fun attributes hattributes r hr => proper_addDefault (hmine r hr) hattributes
  intro a ha
  obtain ⟨b, hb, rfl⟩ := List.mem_map.mp ha
  exact (hgiven b hb).ruled

/-! ## §4. Opening an element. -/

theorem isText_of_plainValue? {value : List Piece} (h : IsValue value) :
    Finds (fun s => IsText s.toList) (plainValue? value) := by
  unfold plainValue?
  split
  next => exact finds_some IsText.nil
  next s => exact finds_some (h.proper (.text s) (List.mem_cons_self ..))
  next => exact finds_none

theorem proper_of_declaration {a : TagAttribute} (ha : a.Proper) :
    Finds (fun found => ∀ d, found = some d → Declaration.Proper d) (declaration a) := by
  unfold declaration
  dsimp only
  split
  next => exact finds_some fun d h => by cases h
  next label hfound =>
    -- only `xmlns:` before a name makes a label, and that name is one
    have hlabel : ∀ l, label = some l → isName l.toList = true := by
      intro l hl
      subst hl
      split at hfound
      next =>
        cases hfound
        exact ha.name.base
      next =>
        split at hfound
        next => cases hfound
        next => cases hfound
    split
    next => exact finds_none
    next space hspace =>
      split
      next =>
        refine finds_some fun d hd => ?_
        cases hd
        exact ⟨hlabel, isText_of_plainValue? ha.value _ hspace⟩
      next => exact finds_none

theorem proper_of_attribute? {inForce : List Declaration} {a : TagAttribute} (ha : a.Proper) :
    Finds Attribute.Proper (attribute? inForce a) := by
  unfold attribute?
  dsimp only
  split
  next => exact finds_after fun space => finds_some ⟨ha.name, ha.value⟩
  next => exact finds_after fun space => finds_some ⟨ha.name, ha.value⟩

/-- An element that opens is proper. -/
theorem proper_of_open? {d : Doctype} {stack : List Frame} {name : QName}
    {given : List TagAttribute} (hrules : ProperRules d.rules) (hname : name.Proper)
    (hgiven : ∀ a ∈ given, a.Proper) : Finds Frame.Proper (open? d stack name given) := by
  have hruled : ∀ a ∈ withRules d.rules name given, a.Proper := proper_withRules hrules hgiven
  unfold open?
  dsimp only
  split
  next => exact finds_none
  next =>
    refine finds_bind (finds_mapM hruled fun a ha => proper_of_declaration ha) fun found hfound => ?_
    refine finds_bind (finds_mapM (fun a ha => hruled a (List.mem_of_mem_filter ha))
      fun a ha => proper_of_attribute? ha) fun attributes hattributes => ?_
    split
    next => exact finds_none
    next =>
      split
      next => exact finds_none
      next =>
        split
        next => exact finds_none
        next =>
          refine finds_after fun space => finds_some ⟨hname, fun x hx => ?_, hattributes, by simp⟩
          obtain ⟨y, hy, heq⟩ := List.mem_filterMap.mp (List.mem_of_mem_filter hx)
          exact hfound y hy x heq

/-! ## §5. The builder. -/

theorem isText_singleton {c : Char} (h : isChar c = true) : IsText (String.singleton c).toList := by
  intro d hd
  rw [String.toList_singleton, List.mem_singleton] at hd
  rwa [hd]

theorem Builder.Proper.push {b : Builder} {f : Frame} (hb : b.Proper) (hf : f.Proper) :
    Builder.Proper { b with stack := f :: b.stack } := by
  refine ⟨fun g hg => ?_, hb.root⟩
  rcases List.mem_cons.mp hg with rfl | hg
  · exact hf
  · exact hb.stack g hg

theorem Adds.proper {s : Setting} {refers : List Frame → String → Bool} {b : Builder} {item : Item}
    {n : Node} (h : Adds s refers b item n) (hitem : item.Proper) : n.Proper := by
  cases h with
  | text => exact .text (by rwa [String.toList_ofList])
  | literal => exact .text (by rwa [String.toList_ofList])
  | char => exact .text (isText_singleton hitem)
  | reference => exact .reference hitem
  | comment => exact .comment hitem
  | instruction => exact .instruction hitem

/-- **One step of a builder** keeps it proper. -/
theorem proper_of_step {s : Setting} {refers : List Frame → String → Bool} {b : Builder}
    {item : Item} (hrules : ProperRules s.doctype.rules) (hb : b.Proper) (hitem : item.Proper) :
    Finds Builder.Proper (b.step s refers item) := by
  intro b' h
  cases stepped_of_step s refers b item b' h with
  | blanks => exact hb
  | comment => exact hb
  | instruction => exact hb
  | node hnode hadd => exact proper_of_add hb (hnode.proper hitem) b' hadd
  | closed _ hopen hdeliver =>
    exact proper_of_deliver hb (proper_of_open? hrules hitem.1 hitem.2 _ hopen).node b' hdeliver
  | opened _ hopen => exact hb.push (proper_of_open? hrules hitem.1 hitem.2 _ hopen)
  | @finished f rest _ hstack hdeliver =>
    obtain ⟨hf, hrest⟩ := List.forall_mem_cons.mp (hstack ▸ hb.stack)
    have hrest : Builder.Proper { b with stack := rest } := ⟨hrest, hb.root⟩
    exact proper_of_deliver hrest hf.node b' hdeliver

/-- A whole run of a builder keeps it proper. -/
theorem proper_of_run {s : Setting} {refers : List Frame → String → Bool} {items : List Item}
    {b : Builder} (hrules : ProperRules s.doctype.rules) (hb : b.Proper)
    (hitems : ∀ i ∈ items, i.Proper) : Finds Builder.Proper (b.run s refers items) :=
  finds_run (fun _ _ => proper_of_step hrules) hb hitems

theorem builder_proper_empty : Builder.Proper ⟨[], none⟩ :=
  ⟨by simp, fun n hn => by cases hn⟩

theorem proper_of_document? {keepsNotes : Bool} {prolog : Prolog} {cs : List Char} :
    Finds (fun d => d.root.Proper) (document? keepsNotes prolog cs) := by
  unfold document?
  refine finds_after fun rest => finds_bind (rules_of_beforeRoot? (by simp)) ?_
  rintro ⟨doctype, rest⟩ hrules
  refine finds_bind proper_of_items? fun items hitems => ?_
  refine finds_bind (proper_of_run hrules builder_proper_empty hitems) fun b hb => ?_
  split
  next root => exact finds_some (hb.root root rfl)
  next => exact finds_none

/-- **The root of a document that is read is proper.** -/
theorem proper_of_read? {keepsNotes : Bool} {text : List Char} :
    Finds (fun d => d.root.Proper) (read? keepsNotes text) := by
  unfold read?
  dsimp only
  split
  next => exact finds_after fun _ => proper_of_document?
  next => exact finds_after fun _ => proper_of_document?

end ControlSurface.Xml
