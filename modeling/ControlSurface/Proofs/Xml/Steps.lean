/-
  ControlSurface.Proofs.Xml.Steps
  ───────────────────────────────
  What the reader of a document does, step by step.  A text is cut into items from the left
  (`sliced_of_items?`).  With an item a builder does one of a few things (`stepped_of_step`): it
  skips the item, adds a node for it, opens an element, or closes one.  What every step keeps, a
  whole run keeps (`finds_run`).
-/
import ControlSurface.Proofs.Fault.Outcome
import ControlSurface.Xml.Reader

namespace ControlSurface.Xml

open ControlSurface.Outcome ControlSurface.Text

/-! ## §1. The items of a text. -/

/-- A text that is cut into items from the left, up to its end. -/
inductive Sliced : List Char → List Item → Prop
  | done : Sliced [] []
  | item {cs rest : List Char} {item : Item} {items : List Item}
      (hitem : nextItem? cs = some (item, rest)) (hlen : rest.length < cs.length)
      (hrest : Sliced rest items) : Sliced cs (item :: items)

theorem sliced_of_itemsFrom {passed : List Item} {cs : List Char} :
    Finds (fun items => ∃ more, items = passed.reverse ++ more ∧ Sliced cs more)
      (itemsFrom passed cs) := by
  induction hn : cs.length using Nat.strongRecOn generalizing passed cs with
  | ind n ih =>
    subst hn
    rw [itemsFrom.eq_def]
    split
    next hend =>
      rw [List.isEmpty_iff.mp hend]
      exact finds_some ⟨[], (List.append_nil _).symm, .done⟩
    next =>
      split
      next => exact finds_none
      next item rest hitem =>
        split
        next hlen =>
          intro items hitems
          obtain ⟨more, hmore, hrest⟩ := ih rest.length hlen rfl items hitems
          rw [List.reverse_cons, List.append_assoc, List.singleton_append] at hmore
          exact ⟨item :: more, hmore, .item hitem hlen hrest⟩
        next => exact finds_none

/-- **All items of a text** are cut from it one after the other. -/
theorem sliced_of_items? {cs : List Char} : Finds (Sliced cs) (items? cs) := by
  intro items hitems
  obtain ⟨more, rfl, hmore⟩ := sliced_of_itemsFrom items hitems
  exact hmore

/-! ## §2. The steps of a builder. -/

section Steps

variable (s : Setting) (refers : List Frame → String → Bool) (b : Builder)

/-- The node that a builder adds for an item other than a tag: character data as text, a reference
where it may stand, a note inside of the root if notes are kept. -/
inductive Adds : Item → Node → Prop
  | text {cs : List Char} (hinside : b.stack.isEmpty = false) :
      Adds (.text cs) (.text (String.ofList cs))
  | literal (cs : List Char) : Adds (.literal cs) (.text (String.ofList cs))
  | char (c : Char) : Adds (.char c) (.text (String.singleton c))
  | reference {name : String} (hrefers : refers b.stack name = true) :
      Adds (.reference name) (.reference name)
  | comment {t : String} (hkeeps : s.keepsNotes = true) (hinside : b.stack.isEmpty = false) :
      Adds (.comment t) (.comment t)
  | instruction {target data : String} (hkeeps : s.keepsNotes = true)
      (hinside : b.stack.isEmpty = false) :
      Adds (.instruction target data) (.instruction target data)

/-- What a builder can become by an item. -/
inductive Stepped : Item → Builder → Prop
  | blanks {cs : List Char} (houtside : b.stack.isEmpty = true) (hblank : cs.all isSpace = true) :
      Stepped (.text cs) b
  | comment {t : String} (hskips : (s.keepsNotes && !b.stack.isEmpty) = false) :
      Stepped (.comment t) b
  | instruction {target data : String} (hskips : (s.keepsNotes && !b.stack.isEmpty) = false) :
      Stepped (.instruction target data) b
  | node {item : Item} {n : Node} {b' : Builder} (hnode : Adds s refers b item n)
      (hadd : b.add n = some b') : Stepped item b'
  | closed {name : QName} {given : List TagAttribute} {f : Frame} {b' : Builder}
      (haccepts : s.accepts given = true) (hopen : open? s.doctype b.stack name given = some f)
      (hdeliver : b.deliver f.node = some b') : Stepped (.start name given true) b'
  | opened {name : QName} {given : List TagAttribute} {f : Frame}
      (haccepts : s.accepts given = true) (hopen : open? s.doctype b.stack name given = some f)
      (hroot : (b.stack.isEmpty && b.root.isSome) = false) :
      Stepped (.start name given false) { b with stack := f :: b.stack }
  | finished {f : Frame} {rest : List Frame} {b' : Builder} (hstack : b.stack = f :: rest)
      (hdeliver : Builder.deliver { b with stack := rest } f.node = some b') :
      Stepped (.finish f.name.written) b'

/-- **What one step of a builder does.** -/
theorem stepped_of_step (item : Item) :
    Finds (Stepped s refers b item) (b.step s refers item) := by
  intro b' h
  cases item with
  | text cs =>
    rw [Builder.step] at h
    split at h
    next houtside =>
      split at h
      next hblank =>
        cases h
        exact .blanks houtside hblank
      next => cases h
    next hinside => exact .node (.text (Bool.eq_false_iff.mpr hinside)) h
  | literal cs => exact .node (.literal cs) h
  | char c => exact .node (.char c) h
  | reference name =>
    rw [Builder.step] at h
    split at h
    next hrefers => exact .node (.reference hrefers) h
    next => cases h
  | comment t =>
    rw [Builder.step] at h
    split at h
    next hkeeps =>
      rw [Bool.and_eq_true, Bool.not_eq_true'] at hkeeps
      exact .node (.comment hkeeps.1 hkeeps.2) h
    next hskips =>
      cases h
      exact .comment (Bool.eq_false_iff.mpr hskips)
  | instruction target data =>
    rw [Builder.step] at h
    split at h
    next hkeeps =>
      rw [Bool.and_eq_true, Bool.not_eq_true'] at hkeeps
      exact .node (.instruction hkeeps.1 hkeeps.2) h
    next hskips =>
      cases h
      exact .instruction (Bool.eq_false_iff.mpr hskips)
  | start name given closed =>
    rw [Builder.step] at h
    split at h
    next => cases h
    next haccepts =>
      have haccepts : s.accepts given = true := by simpa using haccepts
      obtain ⟨f, hopen, h⟩ := Option.bind_eq_some_iff.mp h
      cases closed with
      | true => exact .closed haccepts hopen h
      | false =>
        split at h
        next hclosed => cases hclosed
        next =>
          split at h
          next => cases h
          next hroot =>
            cases h
            exact .opened haccepts hopen (Bool.eq_false_iff.mpr hroot)
  | finish name =>
    rw [Builder.step] at h
    split at h
    next f rest hstack =>
      split at h
      next hname =>
        subst hname
        exact .finished hstack h
      next => cases h
    next => cases h

variable {s refers b}

/-- **What every step keeps, a whole run keeps**, item by item. -/
theorem finds_run {P : Builder → Prop} {Q : Item → Prop} {items : List Item}
    (hstep : ∀ b item, P b → Q item → Finds P (b.step s refers item)) (hb : P b)
    (hitems : ∀ i ∈ items, Q i) : Finds P (b.run s refers items) := by
  induction items generalizing b with
  | nil => exact finds_some hb
  | cons item rest ih =>
    obtain ⟨hitem, hrest⟩ := List.forall_mem_cons.mp hitems
    exact finds_bind (hstep b item hb hitem) fun b' hb' => ih hb' hrest

end Steps

end ControlSurface.Xml
