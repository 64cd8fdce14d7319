/-
  ControlSurface.Proofs.Xml.Proper
  ────────────────────────────────
  Proper items and nodes: those that can be written down and read again.  Names are names, text
  holds characters of documents only, a comment holds no mark that would end it, and references are
  to entities of the document.  Every item that is read is proper (`proper_of_items?`).
-/
import ControlSurface.Proofs.Text.Search
import ControlSurface.Proofs.Xml.Steps
import Mathlib.Data.List.Chain

namespace ControlSurface.Xml

open ControlSurface.Outcome ControlSurface.Text

/-! ## §1. Proper parts. -/

/-- A name that can be read again. -/
structure QName.Proper (q : QName) : Prop where
  label : ∀ l, q.label = some l → isName l.toList = true
  base : isName q.base.toList = true

/-- Text of characters that may stand in a document. -/
def IsText (cs : List Char) : Prop := ∀ c ∈ cs, isChar c = true

/-- The name of an entity: not one of the names that stand for a character. -/
def IsEntity (name : String) : Prop :=
  isName name.toList = true ∧ (namedChars.find? fun n => n.1 == name) = none

/-- A part of a value that can be read again. -/
def Piece.Proper : Piece → Prop
  | .text s => IsText s.toList
  | .reference name => IsEntity name

/-- Whether a part of a value is text. -/
def Piece.isText : Piece → Bool
  | .text _ => true
  | .reference _ => false

/-- A list in which no two neighbours are both of a kind. -/
def Apart {α : Type} (p : α → Bool) (xs : List α) : Prop :=
  xs.IsChain fun x y => p x = true → p y = false

/-- A value that can be read again; text next to text would be read as one. -/
structure IsValue (value : List Piece) : Prop where
  proper : ∀ p ∈ value, p.Proper
  apart : Apart Piece.isText value

/-- An attribute as written that can be read again. -/
structure TagAttribute.Proper (a : TagAttribute) : Prop where
  name : a.name.Proper
  value : IsValue a.value

/-- The text of a comment. -/
def IsComment (s : String) : Prop := Unbroken ['-', '-'] s.toList ∧ IsText s.toList

/-- The target and the data of a processing instruction. -/
structure IsInstruction (target data : String) : Prop where
  isName : Xml.isName target.toList = true
  free : target.toList.map asciiLower ≠ reservedLabel.toList
  unbroken : Unbroken ['?', '>'] data.toList
  isText : IsText data.toList
  start : ∀ c, data.toList.head? = some c → isSpace c = false

/-- An item that can be read again. -/
def Item.Proper : Item → Prop
  | .text s => IsText s
  | .literal s => IsText s
  | .char c => isChar c = true
  | .reference name => IsEntity name
  | .comment s => IsComment s
  | .instruction target data => IsInstruction target data
  | .start name attributes _ => name.Proper ∧ ∀ a ∈ attributes, a.Proper
  | .finish name => name.Proper

/-! ## §2. Names. -/

theorem isName_of_name? {cs : List Char} : Finds (fun p => isName p.1 = true) (name? cs) := by
  unfold name?
  dsimp only
  split
  next h => exact finds_some h
  next => exact finds_none

theorem proper_of_qname? {cs : List Char} : Finds (fun p => p.1.Proper) (qname? cs) := by
  unfold qname?
  refine finds_bind isName_of_name? ?_
  rintro ⟨first, rest⟩ hfirst
  dsimp only
  split
  next more =>
    refine finds_bind isName_of_name? ?_
    rintro ⟨second, rest⟩ hsecond
    dsimp only
    split
    next => exact finds_none
    next =>
      refine finds_some ⟨fun l hl => ?_, ?_⟩
      · cases hl
        rwa [String.toList_ofList]
      · rwa [String.toList_ofList]
  next =>
    refine finds_some ⟨fun l hl => ?_, ?_⟩
    · cases hl
    · rwa [String.toList_ofList]

/-! ## §3. References. -/

/-- A reference to a character or an entity. -/
def Reference.Proper : Reference → Prop
  | .char c => isChar c = true
  | .entity name => IsEntity name

theorem isChar_of_charOf? {n : Nat} : Finds (fun c => isChar c = true) (charOf? n) := by
  unfold charOf?
  split
  next h =>
    have hvalid : n.isValidChar := by
      simp only [isCharCode, Bool.or_eq_true, Bool.and_eq_true, beq_iff_eq, decide_eq_true_eq] at h
      unfold Nat.isValidChar
      omega
    refine finds_some ?_
    rw [isChar, Char.ofNat, dif_pos hvalid]
    exact h
  next => exact finds_none

theorem isChar_of_named {name : String} {p : String × Char}
    (h : (namedChars.find? fun n => n.1 == name) = some p) : isChar p.2 = true := by
  have hall : ∀ p ∈ namedChars, isChar p.2 = true := by decide
  exact hall p (List.mem_of_find?_eq_some h)

theorem proper_of_reference? {cs : List Char} : Finds (fun p => p.1.Proper) (reference? cs) := by
  unfold reference?
  refine finds_after ?_
  rintro ⟨body, rest⟩
  dsimp only
  split
  next => exact finds_after fun n => finds_bind isChar_of_charOf? fun c hc => finds_some hc
  next => exact finds_after fun n => finds_bind isChar_of_charOf? fun c hc => finds_some hc
  next =>
    split
    next c hfound => exact finds_some (isChar_of_named hfound)
    next hfree =>
      split
      next hname => exact finds_some ⟨by rwa [String.toList_ofList], hfree⟩
      next => exact finds_none

/-! ## §4. Values. -/

/-- A part of a value that is being read: text in reverse, or the name of an entity. -/
def IsPart : List Char ⊕ String → Prop
  | .inl cs => IsText cs
  | .inr name => IsEntity name

/-- The parts of a value that is being read. -/
structure IsParts (parts : List (List Char ⊕ String)) : Prop where
  proper : ∀ p ∈ parts, IsPart p
  apart : Apart Sum.isLeft parts

theorem IsText.cons {c : Char} {cs : List Char} (hc : isChar c = true) (h : IsText cs) :
    IsText (c :: cs) := by
  intro d hd
  rcases List.mem_cons.mp hd with rfl | hd
  · exact hc
  · exact h d hd

theorem IsText.nil : IsText [] := by simp [IsText]

theorem isParts_nil : IsParts [] := ⟨by simp, List.isChain_nil⟩

theorem isParts_addChar {c : Char} {parts : List (List Char ⊕ String)} (hc : isChar c = true)
    (h : IsParts parts) : IsParts (addChar c parts) := by
  obtain ⟨hproper, hapart⟩ := h
  unfold addChar
  split
  next cs rest =>
    -- the last text grows, so what stands next to it stays
    obtain ⟨hcs, hrest⟩ := List.forall_mem_cons.mp hproper
    refine ⟨List.forall_mem_cons.mpr ⟨IsText.cons hc hcs, hrest⟩, ?_⟩
    obtain ⟨hnext, hapart⟩ := List.isChain_cons.mp hapart
    exact List.isChain_cons.mpr ⟨hnext, hapart⟩
  next hno =>
    refine ⟨List.forall_mem_cons.mpr ⟨IsText.nil.cons hc, hproper⟩,
      List.isChain_cons.mpr ⟨fun q hq _ => ?_, hapart⟩⟩
    cases parts with
    | nil => cases hq
    | cons r rest =>
      obtain rfl := Option.mem_some_iff.mp hq
      cases r with
      | inl cs => exact absurd rfl (hno cs rest)
      | inr name => rfl

/-- The name of an entity is a part next to any other. -/
theorem IsParts.reference {name : String} {parts : List (List Char ⊕ String)} (hname : IsEntity name)
    (h : IsParts parts) : IsParts (.inr name :: parts) :=
  ⟨List.forall_mem_cons.mpr ⟨hname, h.proper⟩,
    List.isChain_cons.mpr ⟨fun _ _ hleft => (by cases hleft), h.apart⟩⟩

theorem isValue_pieces {parts : List (List Char ⊕ String)} (h : IsParts parts) :
    IsValue (pieces parts) := by
  refine ⟨fun p hp => ?_, ?_⟩
  · obtain ⟨part, hpart, rfl⟩ := List.mem_map.mp hp
    have hproper := h.proper part (List.mem_reverse.mp hpart)
    cases part with
    | inl cs =>
      intro c hc
      rw [String.toList_ofList] at hc
      exact hproper c (List.mem_reverse.mp hc)
    | inr name => exact hproper
  · -- the parts stand in reverse, which changes nothing for neighbours
    rw [Apart, pieces, List.isChain_map, List.isChain_reverse]
    refine h.apart.imp fun p q hpq hq => ?_
    cases p with
    | inl cs =>
      cases q with
      | inl ds => exact absurd (hpq rfl) (by simp)
      | inr name => cases hq
    | inr name => rfl

/-- The value that is read from characters is proper. -/
theorem isValue_of_valuePieces {parts : List (List Char ⊕ String)} {cs : List Char}
    (hparts : IsParts parts) : Finds IsValue (valuePieces parts cs) := by
  induction hn : cs.length using Nat.strongRecOn generalizing parts cs with
  | ind n ih =>
    subst hn
    rw [valuePieces.eq_def]
    split
    next => exact finds_some (isValue_pieces hparts)
    next c rest =>
      split
      next => exact finds_none
      next =>
        split
        next =>
          split
          next r rest' href =>
            -- a reference: a character goes to the text, an entity is a part of its own
            split
            next hlen =>
              have hr := proper_of_reference? _ href
              have hlt : rest'.length < (c :: rest).length := by
                rw [List.length_cons]
                omega
              split
              next d => exact ih rest'.length hlt (isParts_addChar hr hparts) rfl
              next name => exact ih rest'.length hlt (IsParts.reference hr hparts) rfl
            next => exact finds_none
          next => exact finds_none
        next =>
          -- a blank is read as a space, any other character as itself
          split
          next => exact ih rest.length (by simp) (isParts_addChar (by decide) hparts) rfl
          next =>
            split
            next hc => exact ih rest.length (by simp) (isParts_addChar hc hparts) rfl
            next => exact finds_none

/-! ## §5. Tags. -/

/-- The attributes of a tag are proper. -/
theorem proper_of_tagRest {passed : List TagAttribute} {cs : List Char}
    (hpassed : ∀ a ∈ passed, a.Proper) :
    Finds (fun found => ∀ a ∈ found.1, a.Proper) (tagRest passed cs) := by
  induction hn : cs.length using Nat.strongRecOn generalizing passed cs with
  | ind n ih =>
    subst hn
    rw [tagRest.eq_def]
    -- the tag ends in one of two ways, or goes on with a name, an equals sign and a quoted value
    split
    next => exact finds_some fun a ha => hpassed a (List.mem_reverse.mp ha)
    next => exact finds_some fun a ha => hpassed a (List.mem_reverse.mp ha)
    next =>
      split
      next => exact finds_none
      next =>
        split
        next => exact finds_none
        next name rest hname =>
          split
          next =>
            split
            next => exact finds_none
            next raw rest hraw =>
              split
              next => exact finds_none
              next value hvalue =>
                split
                next hlen =>
                  refine ih rest.length hlen (fun a ha => ?_) rfl
                  rcases List.mem_cons.mp ha with rfl | ha
                  · exact ⟨proper_of_qname? _ hname, isValue_of_valuePieces isParts_nil _ hvalue⟩
                  · exact hpassed a ha
                next => exact finds_none
          next => exact finds_none

theorem proper_of_startTag? {cs : List Char} : Finds (fun p => p.1.Proper) (startTag? cs) := by
  unfold startTag?
  refine finds_bind proper_of_qname? ?_
  rintro ⟨name, rest⟩ hname
  refine finds_bind (proper_of_tagRest (by simp)) ?_
  rintro ⟨attributes, closed, rest⟩ hattributes
  exact finds_some ⟨hname, hattributes⟩

theorem proper_of_endTag? {cs : List Char} : Finds (fun p => p.1.Proper) (endTag? cs) := by
  unfold endTag?
  refine finds_bind proper_of_qname? ?_
  rintro ⟨name, rest⟩ hname
  dsimp only
  split
  next => exact finds_some hname
  next => exact finds_none

/-! ## §6. Comments, instructions and literal sections. -/

theorem isText_of_all {cs : List Char} (h : cs.all isChar = true) : IsText cs :=
  List.all_eq_true.mp h

theorem isComment_of_comment? {cs : List Char} : Finds (fun p => IsComment p.1) (comment? cs) := by
  unfold comment?
  refine finds_bind (fun p hp => (cutAt?_eq_some_iff.mp hp).2) ?_
  rintro ⟨body, rest⟩ hbody
  dsimp only
  split
  next =>
    split
    next htext =>
      refine finds_some ⟨?_, ?_⟩
      · rwa [String.toList_ofList]
      · rw [String.toList_ofList]
        exact isText_of_all htext
    next => exact finds_none
  next => exact finds_none

theorem isInstruction_of_instruction? {cs : List Char} :
    Finds (fun p => IsInstruction p.1 p.2.1) (instruction? cs) := by
  unfold instruction?
  refine finds_bind isName_of_name? ?_
  rintro ⟨target, rest⟩ hname
  refine finds_bind (fun p hp => (cutAt?_eq_some_iff.mp hp).2) ?_
  rintro ⟨body, after⟩ hbody
  dsimp only at hname hbody ⊢
  split
  next => exact finds_none
  next hfree =>
    split
    next => exact finds_none
    next htext =>
      have htext : IsText body := isText_of_all (by simpa using htext)
      -- the body is empty, or it is white space and then the data
      split
      next =>
        refine finds_some ⟨by rwa [String.toList_ofList], by rwa [String.toList_ofList], trivial,
          IsText.nil, fun c hc => by cases hc⟩
      next _ c rest _ =>
        split
        next =>
          have hsplit : c :: rest = (c :: rest).takeWhile isSpace ++ skipSpace (c :: rest) :=
            List.takeWhile_append_dropWhile.symm
          refine finds_some ⟨by rwa [String.toList_ofList], by rwa [String.toList_ofList], ?_, ?_, ?_⟩
          · rw [String.toList_ofList]
            rw [hsplit] at hbody
            exact hbody.suffix
          · rw [String.toList_ofList]
            exact fun d hd => htext d ((List.dropWhile_sublist _).subset hd)
          · intro d hd
            rw [String.toList_ofList] at hd
            have hnot := List.head?_dropWhile_not isSpace (c :: rest)
            rw [show List.dropWhile isSpace (c :: rest) = skipSpace (c :: rest) from rfl, hd] at hnot
            exact hnot
        next => exact finds_none

theorem isText_of_literal? {cs : List Char} : Finds (fun p => IsText p.1) (literal? cs) := by
  unfold literal?
  refine finds_after ?_
  rintro ⟨body, rest⟩
  dsimp only
  split
  next h => exact finds_some (isText_of_all h)
  next => exact finds_none

/-! ## §7. Items. -/

/-- Every item that is read is proper. -/
theorem proper_of_nextItem? {cs : List Char} : Finds (fun p => p.1.Proper) (nextItem? cs) := by
  unfold nextItem?
  split
  next => exact proper_of_endTag?
  next => exact finds_map isComment_of_comment?
  next => exact finds_map isText_of_literal?
  next => exact finds_map isInstruction_of_instruction?
  next => exact proper_of_startTag?
  next =>
    refine finds_map ?_
    rintro ⟨r, rest⟩ hr
    -- a reference to a character is that character from here on
    have hproper := proper_of_reference? _ hr
    cases r with
    | char c => exact hproper
    | entity name => exact hproper
  next =>
    dsimp only
    split
    next h =>
      rw [isPlainText, Bool.and_eq_true] at h
      exact finds_some (isText_of_all h.1)
    next => exact finds_none

theorem Sliced.proper {cs : List Char} {items : List Item} (h : Sliced cs items) :
    ∀ i ∈ items, i.Proper := by
  induction h with
  | done => simp
  | item hitem _ _ ih => exact List.forall_mem_cons.mpr ⟨proper_of_nextItem? _ hitem, ih⟩

/-- **Every item of a text is proper.** -/
theorem proper_of_items? {cs : List Char} : Finds (fun items => ∀ i ∈ items, i.Proper) (items? cs) :=
  fun _ hitems => (sliced_of_items? _ hitems).proper

end ControlSurface.Xml
