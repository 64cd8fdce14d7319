/-
  ControlSurface.Proofs.Xml.Printing
  ──────────────────────────────────
  What is printed is read back.  The text of a proper node is content whose items are those of the
  node in document order, up to how characters are divided (`exists_spelled_nodeText`); so its start
  tags are those of the elements in it (`exists_items_nodeText`).  How a tag is read back is the
  matter of `Proofs.Xml.Tags`; here are the items between tags, runs of characters above all, which
  are read up to the next markup only.
-/
import ControlSurface.Proofs.Xml.Building
import ControlSurface.Proofs.Xml.Tags

namespace ControlSurface.Xml

open ControlSurface.Text

/-! ## §1. Items. -/

/-- The text of an instruction after its opening. -/
def instructionText (target data : String) : List Char :=
  target.toList ++ (if data = "" then [] else ' ' :: data.toList)

theorem comment?_append {s : String} (h : IsComment s) (rest : List Char) :
    comment? (s.toList ++ '-' :: '-' :: '>' :: rest) = some (s, rest) := by
  have hcut : cutAt? ['-', '-'] (s.toList ++ '-' :: '-' :: '>' :: rest)
      = some (s.toList, '>' :: rest) := cutAt?_eq_some_iff.mpr ⟨rfl, h.1⟩
  rw [comment?, hcut]
  dsimp only [Option.bind_eq_bind, Option.bind_some]
  refine (if_pos (List.all_eq_true.mpr h.2)).trans ?_
  rw [String.ofList_toList]

theorem instruction?_append {target data : String} (h : IsInstruction target data)
    (rest : List Char) :
    instruction? (instructionText target data ++ '?' :: '>' :: rest) = some (target, data, rest) := by
  obtain ⟨hname, hfree, hunbroken, htext, hstart⟩ := h
  by_cases hdata : data = ""
  · subst hdata
    rw [instructionText, if_pos rfl, List.append_nil, instruction?,
      name?_append hname fun c hc => by cases hc; decide]
    dsimp only [Option.bind_eq_bind, Option.bind_some]
    rw [show cutAt? ['?', '>'] ('?' :: '>' :: rest) = some ([], rest) from
      cutAt?_eq_some_iff.mpr ⟨rfl, trivial⟩]
    dsimp only [Option.bind_eq_bind, Option.bind_some]
    rw [if_neg hfree, String.ofList_toList]
    rfl
  · -- data begins with no blank, so the one before it is all that is skipped
    have hbody : Unbroken ['?', '>'] (' ' :: data.toList) := ⟨rfl, hunbroken⟩
    have hskip : skipSpace (' ' :: data.toList) = data.toList := by
      rw [skipSpace, List.dropWhile_cons_of_pos (show isSpace ' ' = true from rfl)]
      cases hcs : data.toList with
      | nil => rfl
      | cons c cs => rw [List.dropWhile_cons_of_neg (by simp [hstart c (by rw [hcs]; rfl)])]
    have hrow : instructionText target data ++ '?' :: '>' :: rest
        = target.toList ++ (' ' :: data.toList ++ (['?', '>'] ++ rest)) := by
      rw [instructionText, if_neg hdata]
      simp
    rw [hrow, instruction?, name?_append hname fun c hc => by cases hc; decide]
    dsimp only [Option.bind_eq_bind, Option.bind_some]
    rw [cutAt?_eq_some_iff.mpr ⟨rfl, hbody⟩]
    dsimp only [Option.bind_eq_bind, Option.bind_some]
    have hall : (' ' :: data.toList).all isChar = true :=
      List.all_eq_true.mpr (htext.cons (by decide))
    rw [if_neg hfree, if_neg (by rw [hall]; decide)]
    refine (if_pos rfl).trans ?_
    rw [hskip, String.ofList_toList, String.ofList_toList]

theorem nextItem?_name {c : Char} (h : isNameStart c = true) (more : List Char) :
    nextItem? ('<' :: c :: more) = startTag? (c :: more) := by
  have hne : ∀ d, isNameStart d = false → c ≠ d := by
    rintro d hd rfl
    rw [h] at hd
    cases hd
  -- every other kind of markup begins with a character that begins no name
  unfold nextItem?
  split
  next heq => exact absurd (List.cons.inj (List.cons.inj heq).2).1 (hne _ (by decide))
  next heq => exact absurd (List.cons.inj (List.cons.inj heq).2).1 (hne _ (by decide))
  next heq => exact absurd (List.cons.inj (List.cons.inj heq).2).1 (hne _ (by decide))
  next heq => exact absurd (List.cons.inj (List.cons.inj heq).2).1 (hne _ (by decide))
  next heq => rw [(List.cons.inj heq).2]
  next heq => exact absurd (List.cons.inj heq).1 (by decide)
  next hno _ => exact absurd rfl (hno _)

/-- Reading goes on after an item. -/
theorem itemsFrom_of_nextItem? {cs rest : List Char} {item : Item}
    (h : nextItem? cs = some (item, rest)) (hlt : rest.length < cs.length) (passed : List Item) :
    itemsFrom passed cs = itemsFrom (item :: passed) rest := by
  rw [itemsFrom]
  cases cs with
  | nil => exact absurd hlt (by simp)
  | cons c cs =>
    rw [h]
    exact if_pos hlt

/-- Text is read as items, whatever follows it. -/
def Reads (cs : List Char) (items : List Item) : Prop :=
  ∀ passed rest, itemsFrom passed (cs ++ rest) = itemsFrom (items.reverse ++ passed) rest

/-- Text is read as items before markup and at the end. -/
def ReadsBefore (cs : List Char) (items : List Item) : Prop :=
  ∀ passed rest, (∀ c, rest.head? = some c → c = '<') →
    itemsFrom passed (cs ++ rest) = itemsFrom (items.reverse ++ passed) rest

/-- An item that a text is read as on its own. -/
theorem reads_of_nextItem? {cs : List Char} {item : Item} (hne : cs ≠ [])
    (h : ∀ rest, nextItem? (cs ++ rest) = some (item, rest)) : Reads cs [item] := by
  intro passed rest
  refine itemsFrom_of_nextItem? (h rest) ?_ passed
  rw [List.length_append]
  have := List.length_pos_iff.mpr hne
  omega

/-! ## §2. Character data. -/

/-- A part of character data: a character or a reference. -/
abbrev Bit := Char ⊕ String

/-- The text of a part of character data. -/
def bitText : Bit → List Char
  | .inl c => textChar c
  | .inr name => referenceText name

/-- A part of character data that can be read again. -/
def IsBit : Bit → Prop
  | .inl c => isChar c = true
  | .inr name => IsEntity name

/-- The item that a part of character data is on its own. -/
def bitItem : Bit → Item
  | .inl c => .char c
  | .inr name => .reference name

/-- A character that stands for itself. -/
def isSelf : Bit → Bool
  | .inl c => textChar c == [c]
  | .inr _ => false

theorem self_ne {c : Char} (h : textChar c = [c]) : c ≠ '&' ∧ c ≠ '<' ∧ c ≠ '>' := by
  rcases textChar_writes c with ⟨_, h⟩ | ⟨body, hbody, _⟩
  · exact h
  · rw [h] at hbody
    exact absurd (congrArg List.length hbody) (by simp)

/-- Characters that stand for themselves are one item up to the next reference or markup. -/
theorem nextItem?_run {run rest : List Char} (hne : run ≠ []) (hrun : IsText run)
    (hself : ∀ c ∈ run, textChar c = [c])
    (hrest : ∀ c, rest.head? = some c → c = '<' ∨ c = '&') :
    nextItem? (run ++ rest) = some (.text run, rest) := by
  have hall : ∀ c ∈ run, (decide (c ≠ '<') && decide (c ≠ '&')) = true := by
    intro c hc
    have hne := self_ne (hself c hc)
    simp [hne.1, hne.2.1]
  have hstop : ∀ c, rest.head? = some c → (decide (c ≠ '<') && decide (c ≠ '&')) = false := by
    intro c hc
    rcases hrest c hc with rfl | rfl <;> rfl
  have hplain : isPlainText run = true := by
    rw [isPlainText, Bool.and_eq_true]
    refine ⟨List.all_eq_true.mpr hrun, ?_⟩
    rw [Bool.not_eq_true', occursIn]
    cases hcut : cutAt? [']', ']', '>'] run with
    | none => rfl
    | some found =>
      -- the end of a literal section holds a character that is never written as it is
      have heq := (cutAt?_eq_some_iff.mp hcut).1
      have hmem : '>' ∈ run := by
        rw [heq]
        simp
      exact absurd rfl (self_ne (hself '>' hmem)).2.2
  cases run with
  | nil => exact absurd rfl hne
  | cons c run =>
    -- a run begins neither markup nor a reference, so what is left is the last rule
    have hc := self_ne (hself c (List.mem_cons_self ..))
    have hdefault : nextItem? (c :: run ++ rest)
        = if isPlainText ((c :: run ++ rest).takeWhile fun c => decide (c ≠ '<') && decide (c ≠ '&'))
          then some (.text ((c :: run ++ rest).takeWhile
            fun c => decide (c ≠ '<') && decide (c ≠ '&')),
            (c :: run ++ rest).dropWhile fun c => decide (c ≠ '<') && decide (c ≠ '&'))
          else none := by
      unfold nextItem?
      split
      next heq => exact absurd (List.cons.inj heq).1 hc.2.1
      next heq => exact absurd (List.cons.inj heq).1 hc.2.1
      next heq => exact absurd (List.cons.inj heq).1 hc.2.1
      next heq => exact absurd (List.cons.inj heq).1 hc.2.1
      next heq => exact absurd (List.cons.inj heq).1 hc.2.1
      next heq => exact absurd (List.cons.inj heq).1 hc.1
      next => rfl
    rw [hdefault, takeWhile_append_stop hall hstop, dropWhile_append_stop hall hstop,
      if_pos hplain]

/-- An item with its characters one by one. -/
def Item.spelled : Item → List Item
  | .text (c :: cs) => (c :: cs).map .char
  | item => [item]

/-- Items with all characters one by one. -/
def spell (items : List Item) : List Item := items.flatMap Item.spelled

theorem spell_cons (item : Item) (items : List Item) :
    spell (item :: items) = item.spelled ++ spell items := List.flatMap_cons

theorem spell_append (items more : List Item) : spell (items ++ more) = spell items ++ spell more :=
  List.flatMap_append

theorem spelled_text {cs : List Char} (h : cs ≠ []) : (Item.text cs).spelled = cs.map .char := by
  cases cs with
  | nil => exact absurd rfl h
  | cons c cs => rfl

/-- A part of character data that is a reference is one item. -/
theorem reads_reference {b : Bit} (hb : IsBit b) (hself : isSelf b = false) :
    (∃ more, bitText b = '&' :: more) ∧ Reads (bitText b) [bitItem b] := by
  cases b with
  | inl c =>
    rcases textChar_writes c with ⟨hone, _⟩ | ⟨body, hbody, _, href⟩
    · rw [isSelf, hone] at hself
      simp at hself
    · have htext : bitText (.inl c) = '&' :: (body ++ [';']) := hbody
      refine ⟨⟨_, htext⟩, ?_⟩
      rw [htext]
      refine reads_of_nextItem? (by simp) fun rest => ?_
      have hrow : '&' :: (body ++ [';']) ++ rest = '&' :: (body ++ ';' :: rest) := by simp
      rw [hrow, nextItem?, href]
      rfl
  | inr name =>
    refine ⟨⟨_, rfl⟩, ?_⟩
    refine reads_of_nextItem? (by simp [bitText, referenceText]) fun rest => ?_
    have hrow : bitText (.inr name) ++ rest = '&' :: (name.toList ++ ';' :: rest) := by
      simp [bitText, referenceText]
    rw [hrow, nextItem?, reference?_entity hb]
    rfl

theorem spelled_reference (b : Bit) : (bitItem b).spelled = [bitItem b] := by cases b <;> rfl

/-- Characters that stand for themselves are their text. -/
theorem self_run {bits : List Bit} (h : ∀ b ∈ bits, IsBit b) (hself : ∀ b ∈ bits, isSelf b = true) :
    IsText (bits.flatMap bitText) ∧ (∀ c ∈ bits.flatMap bitText, textChar c = [c])
      ∧ (bits.flatMap bitText).map Item.char = bits.map bitItem := by
  induction bits with
  | nil => exact ⟨IsText.nil, by simp, rfl⟩
  | cons b bits ih =>
    obtain ⟨hb, hbits⟩ := List.forall_mem_cons.mp h
    obtain ⟨hone, hrest⟩ := List.forall_mem_cons.mp hself
    obtain ⟨htext, hwritten, hitems⟩ := ih hbits hrest
    cases b with
    | inl c =>
      have hc : textChar c = [c] := by simpa [isSelf] using hone
      have hrow : (Sum.inl c :: bits).flatMap bitText = c :: bits.flatMap bitText := by
        rw [List.flatMap_cons, bitText, hc]
        rfl
      rw [hrow]
      refine ⟨htext.cons hb, List.forall_mem_cons.mpr ⟨hc, hwritten⟩, ?_⟩
      rw [List.map_cons, List.map_cons, hitems]
      rfl
    | inr name => cases hone

/-- **Character data is read back**, up to markup. -/
theorem exists_readsBefore {bits : List Bit} (h : ∀ b ∈ bits, IsBit b) :
    ∃ items, ReadsBefore (bits.flatMap bitText) items ∧ spell items = bits.map bitItem := by
  -- a run is taken off at once, so the parts get fewer by more than one
  induction hn : bits.length using Nat.strongRecOn generalizing bits with
  | ind n ih =>
    subst hn
    cases bits with
    | nil => exact ⟨[], fun passed rest _ => rfl, rfl⟩
    | cons b bits =>
      cases hb : isSelf b with
      | true =>
        -- the longest run of characters that stand for themselves is one item
        obtain ⟨hrun, hself, hchars⟩ := self_run
          (fun d hd => h d ((List.takeWhile_sublist isSelf).subset hd))
          (fun d hd => List.all_eq_true.mp List.all_takeWhile d hd)
        have hlt : ((b :: bits).dropWhile isSelf).length < (b :: bits).length := by
          rw [List.dropWhile_cons_of_pos hb, List.length_cons]
          exact Nat.lt_succ_of_le (List.dropWhile_sublist isSelf).length_le
        obtain ⟨items, hitems, hspell⟩ :=
          ih _ hlt (fun d hd => h d ((List.dropWhile_sublist isSelf).subset hd)) rfl
        have hne : ((b :: bits).takeWhile isSelf).flatMap bitText ≠ [] := by
          intro hnil
          rw [hnil, List.takeWhile_cons_of_pos hb] at hchars
          cases hchars
        refine ⟨.text (((b :: bits).takeWhile isSelf).flatMap bitText) :: items,
          fun passed rest hrest => ?_, ?_⟩
        · have hsplit : (b :: bits).flatMap bitText
              = ((b :: bits).takeWhile isSelf).flatMap bitText
                ++ ((b :: bits).dropWhile isSelf).flatMap bitText := by
            rw [← List.flatMap_append, List.takeWhile_append_dropWhile]
          -- after the run comes a reference or markup
          have hnext : ∀ c,
              (((b :: bits).dropWhile isSelf).flatMap bitText ++ rest).head? = some c →
                c = '<' ∨ c = '&' := by
            intro c hc
            cases hdrop : (b :: bits).dropWhile isSelf with
            | nil =>
              rw [hdrop] at hc
              exact Or.inl (hrest c hc)
            | cons d more =>
              have hd : isSelf d = false := by
                have hnot := List.head?_dropWhile_not isSelf (b :: bits)
                rw [hdrop] at hnot
                exact hnot
              have hmem : d ∈ b :: bits :=
                (List.dropWhile_sublist isSelf).subset (by rw [hdrop]; exact List.mem_cons_self ..)
              obtain ⟨⟨text, htext⟩, _⟩ := reads_reference (h d hmem) hd
              rw [hdrop, List.flatMap_cons, htext] at hc
              exact Or.inr (Option.some.inj hc).symm
          rw [hsplit, List.append_assoc,
            itemsFrom_of_nextItem? (nextItem?_run hne hrun hself hnext) ?_, hitems _ _ hrest]
          · simp
          · have := List.length_pos_iff.mpr hne
            simp only [List.length_append]
            omega
        · rw [spell_cons, spelled_text hne, hchars, hspell, ← List.map_append,
            List.takeWhile_append_dropWhile]
      | false =>
        obtain ⟨_, hitem⟩ := reads_reference (h b (List.mem_cons_self ..)) hb
        obtain ⟨items, hitems, hspell⟩ :=
          ih bits.length (by simp) (fun d hd => h d (List.mem_cons_of_mem b hd)) rfl
        refine ⟨bitItem b :: items, fun passed rest hrest => ?_, ?_⟩
        · rw [List.flatMap_cons, List.append_assoc, hitem, hitems _ _ hrest]
          simp
        · rw [spell_cons, spelled_reference, hspell]
          rfl

/-! ## §3. Nodes. -/

/-- A namespace declaration as an attribute of a tag. -/
def Declaration.written (d : Declaration) : TagAttribute where
  name := match d.label with
    | some l => ⟨some declarationLabel, l⟩
    | none => ⟨none, declarationLabel⟩
  value := [.text d.space]

/-- An attribute as it stands in a tag. -/
def Attribute.written (a : Attribute) : TagAttribute := ⟨a.name.written, a.value⟩

/-- The declarations and attributes of an element as they stand in its tag. -/
def written (declared : List Declaration) (attributes : List Attribute) : List TagAttribute :=
  declared.map Declaration.written ++ attributes.map Attribute.written

theorem tagBody_eq (declared : List Declaration) (attributes : List Attribute) :
    tagBody declared attributes = (written declared attributes).flatMap TagAttribute.print := by
  have hdeclared : ∀ d : Declaration, declarationText d = d.written.print := by
    intro d
    rw [declarationText, TagAttribute.print, Declaration.written, List.flatMap_singleton]
    rfl
  rw [tagBody, written, List.flatMap_append, List.flatMap_map, List.flatMap_map]
  exact congrArg (· ++ _) (List.flatMap_congr fun d _ => hdeclared d)

theorem proper_written {declared : List Declaration} {attributes : List Attribute}
    (hdeclared : ∀ d ∈ declared, d.Proper) (hattributes : ∀ a ∈ attributes, a.Proper) :
    ∀ a ∈ written declared attributes, a.Proper := by
  intro a ha
  rcases List.mem_append.mp ha with ha | ha
  · obtain ⟨d, hd, rfl⟩ := List.mem_map.mp ha
    obtain ⟨hlabel, hspace⟩ := hdeclared d hd
    refine ⟨?_, fun p hp => ?_, List.isChain_singleton _⟩
    · unfold Declaration.written
      dsimp only
      split
      next l hl => exact ⟨fun m hm => (by cases hm; decide), hlabel l hl⟩
      next => exact ⟨fun m hm => (by cases hm), by decide⟩
    · rw [List.mem_singleton.mp hp]
      exact hspace
  · obtain ⟨b, hb, rfl⟩ := List.mem_map.mp ha
    exact ⟨(hattributes b hb).name, (hattributes b hb).value⟩

mutual
/-- The items of a node, in document order, its characters one by one. -/
def itemsIn : Node → List Item
  | .element name declared attributes children =>
    let given := (written declared attributes).map TagAttribute.tidy
    if children.isEmpty then [.start name.written given true]
    else .start name.written given false :: (itemsInAll children ++ [.finish name.written])
  | .text s => s.toList.map .char
  | .comment s => [.comment s]
  | .instruction target data => [.instruction target data]
  | .reference name => [.reference name]

/-- The items of nodes, in document order. -/
def itemsInAll : List Node → List Item
  | [] => []
  | n :: rest => itemsIn n ++ itemsInAll rest
end

/-- A node that is character data, or markup with its items. -/
def Readable (n : Node) : Prop :=
  (∃ bits : List Bit, (∀ b ∈ bits, IsBit b) ∧ nodeText n = bits.flatMap bitText
      ∧ itemsIn n = bits.map bitItem)
    ∨ ∃ items more, nodeText n = '<' :: more ∧ Reads (nodeText n) items ∧ spell items = itemsIn n

theorem noBits : ∀ b ∈ ([] : List Bit), IsBit b := by simp

/-- Readable nodes are read back after character data, up to markup. -/
theorem exists_readsBefore_nodes {ns : List Node} (h : ∀ n ∈ ns, Readable n) {bits : List Bit}
    (hbits : ∀ b ∈ bits, IsBit b) :
    ∃ items, ReadsBefore (bits.flatMap bitText ++ nodesText ns) items
      ∧ spell items = bits.map bitItem ++ itemsInAll ns := by
  -- character data of neighbours is read as one, so what has come of it goes along
  induction ns generalizing bits with
  | nil =>
    obtain ⟨items, hitems, hspell⟩ := exists_readsBefore hbits
    refine ⟨items, ?_, by rw [hspell, itemsInAll, List.append_nil]⟩
    rwa [nodesText, List.append_nil]
  | cons n ns ih =>
    obtain ⟨hn, hns⟩ := List.forall_mem_cons.mp h
    rcases hn with ⟨more, hmore, htext, hown⟩ | ⟨own, more, htext, hown, hspell⟩
    · -- character data goes on
      have hall : ∀ b ∈ bits ++ more, IsBit b :=
        fun b hb => (List.mem_append.mp hb).elim (hbits b) (hmore b)
      obtain ⟨items, hitems, hspell⟩ := ih hns hall
      refine ⟨items, ?_, by rw [hspell, itemsInAll, hown, List.map_append, List.append_assoc]⟩
      rwa [nodesText, htext, ← List.append_assoc, ← List.flatMap_append]
    · -- markup ends it
      obtain ⟨before, hbefore, hbeforeSpell⟩ := exists_readsBefore hbits
      obtain ⟨after, hafter, hafterSpell⟩ := ih hns noBits
      refine ⟨before ++ (own ++ after), fun passed rest hboundary => ?_, ?_⟩
      · have hmarkup : ∀ c, (nodeText n ++ (nodesText ns ++ rest)).head? = some c → c = '<' := by
          intro c hc
          rw [htext] at hc
          exact (Option.some.inj hc).symm
        rw [nodesText, List.append_assoc, List.append_assoc, hbefore _ _ hmarkup, hown,
          show nodesText ns ++ rest = List.flatMap bitText [] ++ nodesText ns ++ rest from rfl,
          hafter _ _ hboundary]
        simp
      · rw [spell_append, spell_append, hbeforeSpell, hspell, hafterSpell, itemsInAll]
        rfl

/-- The text of an element up to its children or its end. -/
theorem nodeText_element (name : Name) (declared : List Declaration) (attributes : List Attribute)
    (children : List Node) :
    nodeText (.element name declared attributes children)
      = '<' :: (name.written.text.toList ++ ((written declared attributes).flatMap TagAttribute.print
          ++ if children.isEmpty then ['/', '>']
            else '>' :: (nodesText children ++ '<' :: '/' :: (name.written.text.toList ++ ['>'])))) := by
  rw [nodeText, tagBody_eq, List.append_assoc]

/-- An element is readable if its children are. -/
theorem readable_element {name : Name} {declared : List Declaration} {attributes : List Attribute}
    {children : List Node} (hname : name.written.Proper) (hdeclared : ∀ d ∈ declared, d.Proper)
    (hattributes : ∀ a ∈ attributes, a.Proper) (hchildren : ∀ n ∈ children, Readable n) :
    Readable (.element name declared attributes children) := by
  obtain ⟨c, more, hcons, hstart⟩ := exists_nameStart hname
  have hnext : ∀ closed rest, nextItem? ('<' :: (name.written.text.toList
      ++ ((written declared attributes).flatMap TagAttribute.print ++ (tagEnd closed ++ rest))))
      = some (.start name.written ((written declared attributes).map TagAttribute.tidy) closed,
        rest) := by
    intro closed rest
    refine Eq.trans ?_ (startTag?_print hname (proper_written hdeclared hattributes) closed rest)
    rw [hcons]
    exact nextItem?_name hstart _
  by_cases hempty : children = []
  · -- an element without children is one tag
    subst hempty
    refine Or.inr ⟨[.start name.written ((written declared attributes).map TagAttribute.tidy) true],
      _, rfl, ?_, rfl⟩
    rw [nodeText_element]
    refine reads_of_nextItem? (by simp) fun rest => ?_
    refine Eq.trans ?_ (hnext true rest)
    simp [tagEnd]
  · -- its children stand before the end tag, which is markup
    obtain ⟨inner, hinner, hspell⟩ := exists_readsBefore_nodes hchildren noBits
    refine Or.inr ⟨.start name.written ((written declared attributes).map TagAttribute.tidy) false
      :: (inner ++ [.finish name.written]), _, rfl, ?_, ?_⟩
    · intro passed rest
      have hrow : nodeText (.element name declared attributes children) ++ rest
          = '<' :: (name.written.text.toList
              ++ ((written declared attributes).flatMap TagAttribute.print
              ++ (tagEnd false ++ (nodesText children
              ++ '<' :: '/' :: (name.written.text.toList ++ '>' :: rest))))) := by
        rw [nodeText_element, if_neg (by simpa using hempty)]
        simp [tagEnd]
      have hfinish : nextItem? ('<' :: '/' :: (name.written.text.toList ++ '>' :: rest))
          = some (.finish name.written, rest) := by
        rw [nextItem?]
        exact endTag?_append hname rest
      rw [hrow, itemsFrom_of_nextItem? (hnext false _) (by simp; omega),
        show nodesText children ++ '<' :: '/' :: (name.written.text.toList ++ '>' :: rest)
          = List.flatMap bitText [] ++ nodesText children
            ++ '<' :: '/' :: (name.written.text.toList ++ '>' :: rest) from rfl,
        hinner _ _ (fun c hc => by cases hc; rfl),
        itemsFrom_of_nextItem? hfinish (by simp; omega)]
      simp
    · rw [spell_cons, spell_append, hspell, itemsIn]
      refine Eq.trans ?_ (if_neg (by simpa using hempty)).symm
      rfl

/-- **Every proper node is readable.** -/
theorem readable_of_proper {n : Node} (h : n.Proper) : Readable n := by
  induction h with
  | element hname hdeclared hattributes _ ih => exact readable_element hname hdeclared hattributes ih
  | @text s hs =>
    refine Or.inl ⟨s.toList.map .inl, fun b hb => ?_, ?_, ?_⟩
    · obtain ⟨c, hc, rfl⟩ := List.mem_map.mp hb
      exact hs c hc
    · rw [nodeText, List.flatMap_map]
      rfl
    · rw [itemsIn, List.map_map]
      rfl
  | @comment s hs =>
    refine Or.inr ⟨[.comment s], _, rfl, ?_, by rw [itemsIn]; rfl⟩
    refine reads_of_nextItem? (by simp [nodeText]) fun rest => ?_
    have hrow : nodeText (.comment s) ++ rest
        = '<' :: '!' :: '-' :: '-' :: (s.toList ++ '-' :: '-' :: '>' :: rest) := by
      simp [nodeText]
    rw [hrow, nextItem?, comment?_append hs]
    rfl
  | @instruction target data hi =>
    refine Or.inr ⟨[.instruction target data], _, rfl, ?_, by rw [itemsIn]; rfl⟩
    refine reads_of_nextItem? (by simp [nodeText]) fun rest => ?_
    have hrow : nodeText (.instruction target data) ++ rest
        = '<' :: '?' :: (instructionText target data ++ '?' :: '>' :: rest) := by
      simp [nodeText, instructionText]
    rw [hrow, nextItem?, instruction?_append hi]
    rfl
  | @reference name hname =>
    refine Or.inl ⟨[.inr name], fun b hb => ?_, (List.append_nil _).symm, by rw [itemsIn]; rfl⟩
    rw [List.mem_singleton.mp hb]
    exact hname

/-- **What is printed is read back**: the text of a proper element has the items of the element. -/
theorem exists_spelled_nodeText {n : Node} (h : n.Proper) (hmarkup : n.name?.isSome = true) :
    ∃ items, items? (nodeText n) = some items ∧ spell items = itemsIn n := by
  rcases readable_of_proper h with ⟨bits, _, _, hown⟩ | ⟨items, _, _, hreads, hspell⟩
  · -- character data has no tags
    cases n with
    | element name declared attributes children =>
      have hmem : ∃ closed, Item.start name.written
          ((written declared attributes).map TagAttribute.tidy) closed ∈ bits.map bitItem := by
        rw [← hown, itemsIn]
        split
        next => exact ⟨true, List.mem_singleton.mpr rfl⟩
        next => exact ⟨false, List.mem_cons_self ..⟩
      obtain ⟨closed, hmem⟩ := hmem
      obtain ⟨b, _, hb⟩ := List.mem_map.mp hmem
      cases b <;> cases hb
    | _ => cases hmarkup
  · refine ⟨items, ?_, hspell⟩
    have hall := hreads [] []
    rw [List.append_nil, List.append_nil, itemsFrom.eq_def items.reverse []] at hall
    simpa [items?] using hall

/-! ## §4. Start tags. -/

/-- The start tags among items: their names and attributes. -/
def tagsOf (items : List Item) : List (QName × List TagAttribute) :=
  items.filterMap fun
    | .start name given _ => some (name, given)
    | _ => none

theorem tagsOf_append (items more : List Item) : tagsOf (items ++ more) = tagsOf items ++ tagsOf more :=
  List.filterMap_append

theorem tagsOf_chars (cs : List Char) : tagsOf (cs.map .char) = [] :=
  List.filterMap_eq_nil_iff.mpr fun i hi => by
    obtain ⟨c, _, rfl⟩ := List.mem_map.mp hi
    rfl

/-- How characters are divided is nothing to the tags. -/
theorem tagsOf_spell (items : List Item) : tagsOf (spell items) = tagsOf items := by
  induction items with
  | nil => rfl
  | cons item items ih =>
    have hone : tagsOf item.spelled = tagsOf [item] := by
      cases item with
      | text cs =>
        cases cs with
        | nil => rfl
        | cons c cs => exact tagsOf_chars (c :: cs)
      | _ => rfl
    rw [spell_cons, tagsOf_append, ih, hone, ← tagsOf_append]
    rfl

mutual
/-- The start tags of a node, in document order. -/
def tagsIn : Node → List (QName × List TagAttribute)
  | .element name declared attributes children =>
    (name.written, written declared attributes) :: tagsInAll children
  | _ => []

/-- The start tags of nodes, in document order. -/
def tagsInAll : List Node → List (QName × List TagAttribute)
  | [] => []
  | n :: rest => tagsIn n ++ tagsInAll rest
end

/-- Tags of one name whose attributes say the same. -/
def SameTag (s t : QName × List TagAttribute) : Prop :=
  s.1 = t.1 ∧ List.Forall₂ SameReading s.2 t.2

theorem sameReading_map_tidy (given : List TagAttribute) :
    List.Forall₂ SameReading given (given.map TagAttribute.tidy) := by
  induction given with
  | nil => exact .nil
  | cons a given ih => exact .cons (sameReading_tidy a) ih

mutual
/-- The start tags of a node are those among its items. -/
theorem sameTag_itemsIn : (n : Node) → List.Forall₂ SameTag (tagsIn n) (tagsOf (itemsIn n))
  | .element name declared attributes children => by
    have hown : SameTag (name.written, written declared attributes)
        (name.written, (written declared attributes).map TagAttribute.tidy) :=
      ⟨rfl, sameReading_map_tidy _⟩
    rw [tagsIn, itemsIn]
    cases children with
    | nil => exact .cons hown .nil
    | cons n rest =>
      refine .cons hown ?_
      show List.Forall₂ SameTag _ (tagsOf (itemsInAll (n :: rest) ++ [.finish name.written]))
      rw [tagsOf_append]
      refine Eq.mp (congrArg _ (List.append_nil _).symm) (sameTag_itemsInAll (n :: rest))
  | .text s => by
    rw [tagsIn, itemsIn, tagsOf_chars]
    · exact .nil
    · simp
  | .comment s => .nil
  | .instruction target data => .nil
  | .reference name => .nil

theorem sameTag_itemsInAll :
    (ns : List Node) → List.Forall₂ SameTag (tagsInAll ns) (tagsOf (itemsInAll ns))
  | [] => .nil
  | n :: rest => by
    rw [tagsInAll, itemsInAll, tagsOf_append]
    exact List.rel_append (sameTag_itemsIn n) (sameTag_itemsInAll rest)
end

/-- **The tags of a printed element** are the start tags of the elements in it. -/
theorem exists_items_nodeText {n : Node} (h : n.Proper) (hmarkup : n.name?.isSome = true) :
    ∃ items, items? (nodeText n) = some items
      ∧ List.Forall₂ SameTag (tagsIn n) (tagsOf items) := by
  obtain ⟨items, hitems, hspell⟩ := exists_spelled_nodeText h hmarkup
  refine ⟨items, hitems, ?_⟩
  rw [← tagsOf_spell, hspell]
  exact sameTag_itemsIn n

end ControlSurface.Xml
