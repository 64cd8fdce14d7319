/-
  ControlSurface.Proofs.Xml.Scoping
  ─────────────────────────────────
  Trees whose elements open again where they stand.  Line ends are unified before anything is read,
  so a carriage return gets into a tree only where it was referred to: never into a comment or an
  instruction (`unified_of_items?`).  Text without carriage returns is not changed
  (`unifyLines_of_not_mem`).

  A node is regular under the declarations in force around it: its element opens again there, the
  nodes inside it are regular under what it declares in addition, no text stands next to text, and
  comments and instructions are on unified lines.  Every step of a builder keeps its open elements
  regular (`regular_of_step`), so the root of every document is regular (`regular_of_read?`).
-/
import ControlSurface.Proofs.Xml.Opening
import ControlSurface.Proofs.Xml.Remainder
import ControlSurface.Proofs.Xml.Steps

namespace ControlSurface.Xml

open ControlSurface.Outcome ControlSurface.Text

/-! ## §1. Unified text. -/

theorem not_mem_unifyLines (cs : List Char) : '\r' ∉ unifyLines cs := by
  induction cs using unifyLines.induct with
  | case1 cs ih =>
    rw [unifyLines]
    exact List.not_mem_cons_of_ne_of_not_mem (by decide) ih
  | case2 cs hno ih =>
    rw [unifyLines]
    · exact List.not_mem_cons_of_ne_of_not_mem (by decide) ih
    · exact hno
  | case3 c cs hreturn hother ih =>
    have hc : '\r' ≠ c := fun heq => hother heq.symm
    rw [unifyLines]
    · exact List.not_mem_cons_of_ne_of_not_mem hc ih
    · exact hreturn
    · exact hother
  | case4 => simp [unifyLines]

theorem unifyLines_of_not_mem {cs : List Char} (h : '\r' ∉ cs) : unifyLines cs = cs := by
  induction cs with
  | nil => rfl
  | cons c cs ih =>
    have hc : c ≠ '\r' := fun heq => h (heq ▸ List.mem_cons_self ..)
    rw [unifyLines, ih fun hmem => h (List.mem_cons_of_mem c hmem)]
    · exact fun more heq => absurd heq hc
    · exact hc

/-! ## §2. Comments and instructions. -/

/-- An item that is no comment or instruction with a carriage return. -/
def Item.Unified : Item → Prop
  | .comment s => '\r' ∉ s.toList
  | .instruction _ data => '\r' ∉ data.toList
  | _ => True

theorem not_mem_of_cutAt? {c : Char} {pattern cs : List Char} (h : c ∉ cs) :
    Finds (fun p => c ∉ p.1) (cutAt? pattern cs) := by
  rintro ⟨body, rest⟩ hcut hmem
  rw [(cutAt?_eq_some_iff.mp hcut).1] at h
  exact h (List.mem_append_left _ hmem)

theorem unified_of_comment? {cs : List Char} (h : '\r' ∉ cs) :
    Finds (fun p => '\r' ∉ p.1.toList) (comment? cs) := by
  unfold comment?
  refine finds_bind (not_mem_of_cutAt? h) ?_
  rintro ⟨body, rest⟩ hbody
  dsimp only
  split
  next =>
    split
    next => exact finds_some (by rwa [String.toList_ofList])
    next => exact finds_none
  next => exact finds_none

theorem unified_of_instruction? {cs : List Char} (h : '\r' ∉ cs) :
    Finds (fun p => '\r' ∉ p.2.1.toList) (instruction? cs) := by
  unfold instruction?
  refine finds_bind suffix_of_name? ?_
  rintro ⟨target, rest⟩ hrest
  refine finds_bind (not_mem_of_cutAt? fun hmem => h (hrest.subset hmem)) ?_
  rintro ⟨body, after⟩ hbody
  dsimp only at hbody ⊢
  split
  next => exact finds_none
  next =>
    split
    next => exact finds_none
    next =>
      split
      next => exact finds_some (by simp)
      next =>
        split
        next =>
          refine finds_some ?_
          rw [String.toList_ofList]
          exact fun hmem => hbody ((suffix_skipSpace _).subset hmem)
        next => exact finds_none

theorem unified_of_nextItem? {cs : List Char} (h : '\r' ∉ cs) :
    Finds (fun p => p.1.Unified) (nextItem? cs) := by
  have htail : ∀ (mark : List Char) {rest : List Char}, cs = mark ++ rest → '\r' ∉ rest :=
    fun _ _ heq hmem => h (heq ▸ List.mem_append_right _ hmem)
  unfold nextItem?
  split
  next rest =>
    unfold endTag?
    refine finds_after ?_
    rintro ⟨name, rest⟩
    dsimp only
    split
    next => exact finds_some trivial
    next => exact finds_none
  next rest => exact finds_map (unified_of_comment? (htail ['<', '!', '-', '-'] rfl))
  next => exact finds_map fun _ _ => trivial
  next rest => exact finds_map (unified_of_instruction? (htail ['<', '?'] rfl))
  next =>
    unfold startTag?
    refine finds_after ?_
    rintro ⟨name, rest⟩
    refine finds_after ?_
    rintro ⟨attributes, closed, rest⟩
    exact finds_some trivial
  next =>
    refine finds_map ?_
    rintro ⟨r, more⟩ _
    cases r <;> exact trivial
  next =>
    dsimp only
    split
    next => exact finds_some trivial
    next => exact finds_none

theorem Sliced.unified {cs : List Char} {items : List Item} (hsliced : Sliced cs items)
    (h : '\r' ∉ cs) : ∀ i ∈ items, i.Unified := by
  induction hsliced with
  | done => simp
  | item hitem _ _ ih =>
    -- what is left is text of the same document
    have hrest := fun hmem => h ((suffix_of_nextItem? _ hitem).subset hmem)
    exact List.forall_mem_cons.mpr ⟨unified_of_nextItem? h _ hitem, ih hrest⟩

/-- **No comment and no instruction holds a carriage return.** -/
theorem unified_of_items? {cs : List Char} (h : '\r' ∉ cs) :
    Finds (fun items => ∀ i ∈ items, i.Unified) (items? cs) :=
  fun _ hitems => (sliced_of_items? _ hitems).unified h

/-! ## §3. Regular nodes. -/

/-- A node that is the same when it is built again, under the declarations in force; only where
notes are kept there are any. -/
inductive Node.Regular (keepsNotes : Bool) : List Declaration → Node → Prop
  | element {outer : List Declaration} {name : Name} {declared : List Declaration}
      {attributes : List Attribute} {children : List Node}
      (hopens : Reopens outer name declared attributes) (hapart : Apart Node.isText children)
      (hchildren : ∀ n ∈ children, Node.Regular keepsNotes (declared.reverse ++ outer) n) :
      Node.Regular keepsNotes outer (.element name declared attributes children)
  | text {outer : List Declaration} (s : String) : Node.Regular keepsNotes outer (.text s)
  | comment {outer : List Declaration} {s : String} (hkeeps : keepsNotes = true)
      (hlines : '\r' ∉ s.toList) : Node.Regular keepsNotes outer (.comment s)
  | instruction {outer : List Declaration} {target data : String} (hkeeps : keepsNotes = true)
      (hlines : '\r' ∉ data.toList) : Node.Regular keepsNotes outer (.instruction target data)
  | reference {outer : List Declaration} (name : String) :
      Node.Regular keepsNotes outer (.reference name)

/-- An open element that is regular, under the declarations of the elements around it. -/
structure Frame.Regular (keepsNotes : Bool) (outer : List Declaration) (f : Frame) : Prop where
  opens : Reopens outer f.name f.declared f.attributes
  apart : Apart Node.isText f.children
  children : ∀ n ∈ f.children, n.Regular keepsNotes (f.declared.reverse ++ outer)

/-- Open elements that are each regular under those around them. -/
def RegularStack (keepsNotes : Bool) : List Frame → Prop
  | [] => True
  | f :: rest => f.Regular keepsNotes (scope rest) ∧ RegularStack keepsNotes rest

/-- A builder whose open elements and root are regular. -/
structure Builder.Regular (keepsNotes : Bool) (b : Builder) : Prop where
  stack : RegularStack keepsNotes b.stack
  root : ∀ n, b.root = some n → n.Regular keepsNotes []

variable {keepsNotes : Bool}

/-! ## §4. Adding nodes. -/

theorem apart_addNode {n : Node} {children : List Node} (h : Apart Node.isText children) :
    Apart Node.isText (addNode n children) := by
  -- text after text is put to it, and what stands next to that stays
  unfold addNode
  split
  next s t rest =>
    obtain ⟨hnext, hrest⟩ := List.isChain_cons.mp h
    exact List.isChain_cons.mpr ⟨hnext, hrest⟩
  next hno =>
    refine List.isChain_cons.mpr ⟨fun m hm hn => ?_, h⟩
    cases children with
    | nil => cases hm
    | cons k rest =>
      obtain rfl : k = m := Option.some.inj hm
      cases n with
      | text s =>
        cases k with
        | text t => exact absurd rfl (hno s t rest rfl)
        | _ => rfl
      | _ => cases hn

theorem regular_addNode {outer : List Declaration} {n : Node} {children : List Node}
    (hn : n.Regular keepsNotes outer) (h : ∀ m ∈ children, m.Regular keepsNotes outer) :
    ∀ m ∈ addNode n children, m.Regular keepsNotes outer := by
  unfold addNode
  split
  next s t rest =>
    exact List.forall_mem_cons.mpr ⟨.text _, fun m hm => h m (List.mem_cons_of_mem _ hm)⟩
  next => exact List.forall_mem_cons.mpr ⟨hn, h⟩

theorem regular_of_add {b : Builder} {n : Node} (hb : b.Regular keepsNotes)
    (hn : n.Regular keepsNotes (scope b.stack)) : Finds (Builder.Regular keepsNotes) (b.add n) := by
  obtain ⟨stack, root⟩ := b
  unfold Builder.add
  split
  next f rest hstack =>
    obtain rfl : stack = f :: rest := hstack
    obtain ⟨hf, hrest⟩ := hb.stack
    exact finds_some ⟨⟨⟨hf.opens, apart_addNode hf.apart, regular_addNode hn hf.children⟩, hrest⟩,
      hb.root⟩
  next => exact finds_none

theorem regular_of_deliver {b : Builder} {n : Node} (hb : b.Regular keepsNotes)
    (hn : n.Regular keepsNotes (scope b.stack)) :
    Finds (Builder.Regular keepsNotes) (b.deliver n) := by
  unfold Builder.deliver
  split
  next hstack _ =>
    refine finds_some ⟨hb.stack, fun m hm => ?_⟩
    cases hm
    rw [hstack] at hn
    exact hn
  next => exact finds_none
  next => exact regular_of_add hb hn

theorem Frame.Regular.node {outer : List Declaration} {f : Frame}
    (h : f.Regular keepsNotes outer) : f.node.Regular keepsNotes outer := by
  refine .element h.opens ?_ fun n hn => h.children n (List.mem_reverse.mp hn)
  rw [Apart, List.isChain_reverse]
  refine h.apart.imp fun m n hmn hn => ?_
  rw [Bool.eq_false_iff]
  intro hm
  rw [hmn hm] at hn
  cases hn

/-! ## §5. The builder. -/

theorem Adds.regular {s : Setting} {refers : List Frame → String → Bool} {b : Builder} {item : Item}
    {n : Node} {outer : List Declaration} (h : Adds s refers b item n) (hitem : item.Unified) :
    n.Regular s.keepsNotes outer := by
  cases h with
  | text => exact .text _
  | literal => exact .text _
  | char => exact .text _
  | reference => exact .reference _
  | comment hkeeps => exact .comment hkeeps hitem
  | instruction hkeeps => exact .instruction hkeeps hitem

/-- An element opens under what is in force, with nothing in it. -/
theorem regular_of_open? {keepsNotes : Bool} {d : Doctype} {stack : List Frame} {name : QName}
    {given : List TagAttribute} :
    Finds (Frame.Regular keepsNotes (scope stack)) (open? d stack name given) := by
  intro f hf
  obtain ⟨_, _, _, _, _, _, _, _, _, _, _, hchildren⟩ := open?_eq_some hf
  exact ⟨reopens_of_open? hf, hchildren ▸ List.isChain_nil, by rw [hchildren]; simp⟩

/-- **One step of a builder** keeps it regular. -/
theorem regular_of_step {s : Setting} {refers : List Frame → String → Bool} {b : Builder}
    {item : Item} (hb : b.Regular s.keepsNotes) (hitem : item.Unified) :
    Finds (Builder.Regular s.keepsNotes) (b.step s refers item) := by
  intro b' h
  cases stepped_of_step s refers b item b' h with
  | blanks => exact hb
  | comment => exact hb
  | instruction => exact hb
  | node hnode hadd => exact regular_of_add hb (hnode.regular hitem) b' hadd
  | closed _ hopen hdeliver =>
    exact regular_of_deliver hb (regular_of_open? _ hopen).node b' hdeliver
  | opened _ hopen => exact ⟨⟨regular_of_open? _ hopen, hb.stack⟩, hb.root⟩
  | @finished f rest _ hstack hdeliver =>
    have hboth := hb.stack
    rw [hstack] at hboth
    have hrest : Builder.Regular s.keepsNotes { b with stack := rest } := ⟨hboth.2, hb.root⟩
    exact regular_of_deliver hrest hboth.1.node b' hdeliver

/-- A whole run of a builder keeps it regular. -/
theorem regular_of_run {s : Setting} {refers : List Frame → String → Bool} {items : List Item}
    {b : Builder} (hb : b.Regular s.keepsNotes) (hitems : ∀ i ∈ items, i.Unified) :
    Finds (Builder.Regular s.keepsNotes) (b.run s refers items) :=
  finds_run (fun _ _ => regular_of_step) hb hitems

/-! ## §6. Documents. -/

theorem regular_of_document? {prolog : Prolog} {cs : List Char} :
    Finds (fun d => d.root.Regular keepsNotes []) (document? keepsNotes prolog cs) := by
  unfold document?
  refine finds_after fun decoded => finds_bind suffix_of_beforeRoot? ?_
  rintro ⟨doctype, rest⟩ hrest
  have hlines : '\r' ∉ rest := fun hmem => not_mem_unifyLines decoded (hrest.subset hmem)
  refine finds_bind (unified_of_items? hlines) fun items hitems => ?_
  have hempty : Builder.Regular keepsNotes ⟨[], none⟩ := ⟨trivial, fun n hn => by cases hn⟩
  refine finds_bind (regular_of_run hempty hitems) fun b hb => ?_
  split
  next root => exact finds_some (hb.root root rfl)
  next => exact finds_none

/-- **The root of a document that is read is regular.** -/
theorem regular_of_read? {text : List Char} :
    Finds (fun d => d.root.Regular keepsNotes []) (read? keepsNotes text) := by
  unfold read?
  dsimp only
  split
  next => exact finds_after fun _ => regular_of_document?
  next => exact finds_after fun _ => regular_of_document?

end ControlSurface.Xml
