/-
  ControlSurface.Proofs.Xml.Gains
  ───────────────────────────────
  How much longer a document is as it is written than as it was given.  A reference, a tag that ends
  an element and a note are written with no more bytes than they were read from.  Three things can
  gain bytes: a tag that begins an element is written with its defaults and in its escapes, character
  data is escaped, and the bytes of a text may be taken for characters of another encoding.

  Main results:
    * `writing_le` — what an item is written with, against what it was read from.
    * `size_of_read?` — what a document is written with, against its text and what it gains.
-/
import ControlSurface.Proofs.Xml.Size

namespace ControlSurface.Xml

open ControlSurface.Outcome ControlSurface.Text
open String (utf8Len utf8Len_append utf8Len_cons utf8Len_nil utf8Len_le_of_suffix
  utf8Len_le_of_sublist)

/-! ## §1. What is read stands in the text. -/

theorem split_of_name? {cs : List Char} : Finds (fun p => p.1 ++ p.2 = cs) (name? cs) := by
  unfold name?
  dsimp only
  split
  next => exact finds_some List.takeWhile_append_dropWhile
  next => exact finds_none

theorem split_of_qname? {cs : List Char} :
    Finds (fun p => p.1.text.toList ++ p.2 = cs) (qname? cs) := by
  unfold qname?
  refine finds_bind split_of_name? ?_
  rintro ⟨first, rest⟩ hfirst
  dsimp only at hfirst ⊢
  split
  next more =>
    refine finds_bind split_of_name? ?_
    rintro ⟨second, rest⟩ hsecond
    dsimp only at hsecond ⊢
    split
    next => exact finds_none
    next =>
      refine finds_some ?_
      rw [← hfirst, ← hsecond]
      simp [QName.text]
  next =>
    refine finds_some ?_
    rw [← hfirst]
    simp [QName.text]

theorem split_of_upToSemicolon? {cs : List Char} :
    Finds (fun p => p.1 ++ ';' :: p.2 = cs) (upToSemicolon? cs) := by
  unfold upToSemicolon?
  split
  next rest hdrop =>
    refine finds_some ?_
    rw [← hdrop]
    exact List.takeWhile_append_dropWhile
  next => exact finds_none

/-! ## §2. References. -/

theorem length_le_utf8Len (cs : List Char) : cs.length ≤ utf8Len cs := by
  induction cs with
  | nil => exact Nat.le_refl 0
  | cons c cs ih =>
    have hpos := c.utf8Size_pos
    rw [List.length_cons, utf8Len_cons]
    omega

theorem utf8Len_textChar_le (c : Char) : utf8Len (textChar c) ≤ 5 := by
  unfold textChar
  have hfour := c.utf8Size_le_four
  repeat' split
  all_goals first | decide | (rw [utf8Len_cons, utf8Len_nil]; omega)

/-- The only character of a document that one decimal digit refers to is written as itself. -/
theorem utf8Len_textChar_of_digit {d : Char} {n : Nat} {c : Char} (hn : number? 10 [d] = some n)
    (hc : charOf? n = some c) : utf8Len (textChar c) = 1 := by
  have hlt : n < 10 := by
    unfold number? at hn
    obtain ⟨v, -, hv⟩ := Option.bind_eq_some_iff.mp hn
    split at hv
    next => cases hv; omega
    next => cases hv
  unfold charOf? at hc
  split at hc
  next hcode =>
    cases hc
    have hall : ∀ m < 10, isCharCode m = true → utf8Len (textChar (Char.ofNat m)) = 1 := by decide
    exact hall n hlt hcode
  next => cases hc

/-- A number that was read has digits. -/
theorem ne_nil_of_number? {base : Nat} {ds : List Char} :
    Finds (fun _ => ds ≠ []) (number? base ds) := by
  rintro n hn rfl
  cases hn

/-- A character that was referred to is written with no more bytes than the reference. -/
theorem textChar_of_reference? {cs : List Char} {c : Char} {rest : List Char}
    (h : reference? cs = some (.char c, rest)) :
    utf8Len (textChar c) + utf8Len rest ≤ utf8Len cs + 1 := by
  obtain ⟨⟨body, after⟩, hsplit, h⟩ := Option.bind_eq_some_iff.mp h
  have hcs := split_of_upToSemicolon? _ hsplit
  have hlen : utf8Len cs = utf8Len body + (utf8Len after + 1) := by
    rw [← hcs, utf8Len_append, utf8Len_cons]
    rfl
  have hany := utf8Len_textChar_le c
  dsimp only at h
  split at h
  next ds =>
    obtain ⟨n, hn, h⟩ := Option.bind_eq_some_iff.mp h
    obtain ⟨c', hc, h⟩ := Option.bind_eq_some_iff.mp h
    cases h
    have hpos := List.length_pos_iff.mpr (ne_nil_of_number? n hn)
    have hds := length_le_utf8Len ds
    have hbody : utf8Len ('#' :: 'x' :: ds) = utf8Len ds + 2 := rfl
    omega
  next ds _ =>
    obtain ⟨n, hn, h⟩ := Option.bind_eq_some_iff.mp h
    obtain ⟨c', hc, h⟩ := Option.bind_eq_some_iff.mp h
    cases h
    have hbody : utf8Len ('#' :: ds) = utf8Len ds + 1 := rfl
    have hds := length_le_utf8Len ds
    match ds, hn with
    | [], hn => exact absurd rfl (ne_nil_of_number? n hn)
    | [d], hn =>
      have hone := utf8Len_textChar_of_digit hn hc
      omega
    | _ :: _ :: _, _ =>
      rw [List.length_cons, List.length_cons] at hds
      omega
  next =>
    split at h
    next name found hfind =>
      cases h
      have hall : ∀ n ∈ namedChars, utf8Len (textChar n.2) ≤ utf8Len n.1.toList + 2 := by decide
      have hname : name = String.ofList body := by simpa using List.find?_some hfind
      have hle := hall _ (List.mem_of_find?_eq_some hfind)
      rw [hname, String.toList_ofList] at hle
      dsimp only at hle
      omega
    next =>
      split at h
      next => cases h
      next => cases h

/-- A reference to an entity is written as it was read. -/
theorem referenceText_of_reference? {cs : List Char} {name : String} {rest : List Char}
    (h : reference? cs = some (.entity name, rest)) : referenceText name ++ rest = '&' :: cs := by
  obtain ⟨⟨body, after⟩, hsplit, h⟩ := Option.bind_eq_some_iff.mp h
  have hcs := split_of_upToSemicolon? _ hsplit
  have hnumber : ∀ x : Option Nat, (x.bind fun n => (charOf? n).bind fun c =>
      some (Reference.char c, after)) ≠ some (.entity name, rest) := by
    intro x hx
    obtain ⟨n, -, hx⟩ := Option.bind_eq_some_iff.mp hx
    obtain ⟨c, -, hx⟩ := Option.bind_eq_some_iff.mp hx
    cases hx
  dsimp only at h
  split at h
  next => exact absurd h (hnumber _)
  next => exact absurd h (hnumber _)
  next =>
    split at h
    next => cases h
    next =>
      split at h
      next =>
        cases h
        rw [referenceText, String.toList_ofList, ← hcs]
        simp
      next => cases h

/-! ## §3. Items. -/

/-- By how many bytes an item is longer as it is written than the text that it was read from: only
character data and tags that begin an element are ever longer. -/
def Item.gain (rules : List AttributeRule) (given : Nat) (item : Item) : Nat :=
  match item with
  | .text _ | .literal _ | .start _ _ _ => utf8Len (item.writing rules) - given
  | _ => 0

/-- An item that may gain is bounded by what it gains, and one that is not written by anything. -/
theorem writing_le_of_suffix {rules : List AttributeRule} {item : Item} {cs rest : List Char}
    (hrest : rest <:+ cs)
    (hgain : ∀ given, utf8Len (item.writing rules) ≤ given + item.gain rules given) :
    utf8Len (item.writing rules) + utf8Len rest
      ≤ utf8Len cs + item.gain rules (utf8Len cs - utf8Len rest) := by
  have hle := utf8Len_le_of_suffix hrest
  have hitem := hgain (utf8Len cs - utf8Len rest)
  omega

theorem writing_of_endTag? (rules : List AttributeRule) {cs : List Char} :
    Finds (fun p => utf8Len (p.1.writing rules) + utf8Len p.2 ≤ utf8Len cs + 2) (endTag? cs) := by
  unfold endTag?
  refine finds_bind split_of_qname? ?_
  rintro ⟨name, rest⟩ hname
  dsimp only at hname ⊢
  split
  next after hskip =>
    refine finds_some ?_
    have hle := utf8Len_le_of_suffix (suffix_skipSpace rest)
    rw [hskip, utf8Len_cons] at hle
    have hmark : ('>' : Char).utf8Size = 1 := rfl
    have hwriting : utf8Len ((Item.finish name).writing rules) = utf8Len name.text.toList + 3 :=
      endSize_eq ⟨name, none⟩
    show utf8Len ((Item.finish name).writing rules) + utf8Len after ≤ _
    rw [← hname, utf8Len_append, hwriting]
    omega
  next => exact finds_none

/-- **What an item is written with** is no more than the text that it was read from and what it
gains. -/
theorem writing_le (rules : List AttributeRule) {cs : List Char} :
    Finds (fun p => utf8Len (p.1.writing rules) + utf8Len p.2
        ≤ utf8Len cs + p.1.gain rules (utf8Len cs - utf8Len p.2)) (nextItem? cs) := by
  rintro ⟨item, rest⟩ h
  have hrest := suffix_of_nextItem? _ h
  dsimp only at hrest ⊢
  unfold nextItem? at h
  split at h
  next more =>
    have hle := writing_of_endTag? rules _ h
    have hmark : utf8Len ('<' :: '/' :: more) = utf8Len more + 2 := rfl
    dsimp only at hle
    omega
  next =>
    obtain ⟨p, -, hp⟩ := Option.map_eq_some_iff.mp h
    cases hp
    exact writing_le_of_suffix hrest fun _ => Nat.zero_le _
  next =>
    obtain ⟨p, -, hp⟩ := Option.map_eq_some_iff.mp h
    cases hp
    exact writing_le_of_suffix hrest fun _ => le_add_tsub
  next =>
    obtain ⟨p, -, hp⟩ := Option.map_eq_some_iff.mp h
    cases hp
    exact writing_le_of_suffix hrest fun _ => Nat.zero_le _
  next =>
    obtain ⟨⟨name, after⟩, -, h⟩ := Option.bind_eq_some_iff.mp h
    obtain ⟨⟨given, closed, after⟩, -, h⟩ := Option.bind_eq_some_iff.mp h
    cases h
    exact writing_le_of_suffix hrest fun _ => le_add_tsub
  next more =>
    have hmark : utf8Len ('&' :: more) = utf8Len more + 1 := rfl
    obtain ⟨⟨r, after⟩, hr, hp⟩ := Option.map_eq_some_iff.mp h
    cases r with
    | char c =>
      cases hp
      exact textChar_of_reference? hr
    | entity name =>
      cases hp
      have hsame := congrArg utf8Len (referenceText_of_reference? hr)
      rw [utf8Len_append] at hsame
      exact hsame.le
  next =>
    dsimp only at h
    split at h
    next =>
      cases h
      exact writing_le_of_suffix hrest fun _ => le_add_tsub
    next => cases h

/-- By how many bytes the items of a text are longer as they are written, all together. -/
def gains (rules : List AttributeRule) (cs : List Char) : Nat :=
  if cs.isEmpty then 0
  else match nextItem? cs with
    | none => 0
    | some (item, rest) =>
      if rest.length < cs.length then
        item.gain rules (utf8Len cs - utf8Len rest) + gains rules rest
      else 0
termination_by cs.length

theorem gains_item (rules : List AttributeRule) {cs rest : List Char} {item : Item}
    (hitem : nextItem? cs = some (item, rest)) (hlen : rest.length < cs.length) :
    gains rules cs = item.gain rules (utf8Len cs - utf8Len rest) + gains rules rest := by
  have hne : ¬ cs.isEmpty = true := by
    rw [List.isEmpty_iff]
    rintro rfl
    exact absurd hlen (Nat.not_lt_zero _)
  rw [gains.eq_def, if_neg hne, hitem]
  exact if_pos hlen

theorem Sliced.writing_le (rules : List AttributeRule) {cs : List Char} {items : List Item}
    (h : Sliced cs items) :
    utf8Len (items.flatMap (Item.writing rules)) ≤ utf8Len cs + gains rules cs := by
  induction h with
  | done => exact Nat.zero_le _
  | item hitem hlen _ ih =>
    have hfirst := Xml.writing_le rules _ hitem
    dsimp only at hfirst
    rw [gains_item rules hitem hlen, List.flatMap_cons, utf8Len_append]
    omega

/-- **What the items of a text are written with**, against the text and what they gain. -/
theorem writing_of_items? (rules : List AttributeRule) {cs : List Char} :
    Finds (fun items => utf8Len (items.flatMap (Item.writing rules)) ≤ utf8Len cs + gains rules cs)
      (items? cs) :=
  fun _ hitems => (sliced_of_items? _ hitems).writing_le rules

/-! ## §4. Documents. -/

theorem utf8Len_unifyLines (cs : List Char) : utf8Len (unifyLines cs) ≤ utf8Len cs := by
  induction cs using unifyLines.induct with
  | case1 cs ih =>
    rw [unifyLines, utf8Len_cons, utf8Len_cons, utf8Len_cons]
    omega
  | case2 cs hcs ih =>
    rw [unifyLines, utf8Len_cons, utf8Len_cons]
    · exact Nat.add_le_add_right ih _
    · exact hcs
  | case3 c cs hc hother ih =>
    rw [unifyLines, utf8Len_cons, utf8Len_cons]
    · omega
    · exact hc
    · exact hother
  | case4 => exact Nat.le_refl 0

theorem suffix_of_declarationPart? {word : String} {cs : List Char} :
    Finds (fun p => p.2 <:+ cs) (declarationPart? word cs) := by
  unfold declarationPart?
  refine finds_bind suffix_of_space? fun rest hrest => ?_
  refine finds_bind (finds_suffix hrest suffix_of_word?) fun rest hrest => ?_
  refine finds_bind (finds_suffix ((suffix_skipSpace rest).trans hrest) suffix_of_word?)
    fun rest hrest => ?_
  exact finds_suffix ((suffix_skipSpace rest).trans hrest) suffix_of_quotedText?

/-- The end of a declaration, from the part that tells whether the document stands alone. -/
theorem suffix_of_standalone {cs rest : List Char} (encoding : Option String)
    (hrest : rest <:+ cs) :
    Finds (fun p : Prolog × List Char => p.2 <:+ cs)
      (match declarationPart? "standalone" rest with
      | some (v, rest) =>
        if v = "yes".toList then do some (⟨encoding, true⟩, ← word? "?>" (skipSpace rest))
        else if v = "no".toList then do some (⟨encoding, false⟩, ← word? "?>" (skipSpace rest))
        else none
      | none => do some (⟨encoding, false⟩, ← word? "?>" (skipSpace rest))) := by
  have hend : ∀ {after : List Char} (standalone : Bool), after <:+ cs →
      Finds (fun p : Prolog × List Char => p.2 <:+ cs)
        (do some (⟨encoding, standalone⟩, ← word? "?>" (skipSpace after))) :=
    fun standalone hafter => finds_bind
      (finds_suffix ((suffix_skipSpace _).trans hafter) suffix_of_word?) fun _ h => finds_some h
  split
  next v after hv =>
    have hafter := (suffix_of_declarationPart? _ hv).trans hrest
    split
    next => exact hend true hafter
    next =>
      split
      next => exact hend false hafter
      next => exact finds_none
  next => exact hend false hrest

theorem suffix_of_prolog? {cs : List Char} : Finds (fun p => p.2 <:+ cs) (prolog? cs) := by
  unfold prolog?
  refine finds_bind suffix_of_declarationPart? ?_
  rintro ⟨version, rest⟩ hrest
  dsimp only
  split
  next => exact finds_none
  next =>
    split
    next e after he =>
      exact suffix_of_standalone _ ((suffix_of_declarationPart? _ he).trans hrest)
    next => exact suffix_of_standalone _ hrest

/-- The declaration of a document, and the text after it. -/
def opening? (text : List Char) : Option (Prolog × List Char) :=
  let cs := match text with
    | '\uFEFF' :: rest => rest
    | cs => cs
  match (word? "<?xml" cs).filter fun rest => (rest.head?.map isSpace).getD false with
  | some rest => prolog? rest
  | none => some (⟨none, false⟩, cs)

theorem suffix_of_opening? {text : List Char} : Finds (fun p => p.2 <:+ text) (opening? text) := by
  have hmark : (match text with
      | '\uFEFF' :: rest => rest
      | cs => cs) <:+ text := by
    split
    next rest => exact List.suffix_cons _ rest
    next => exact List.suffix_refl text
  unfold opening?
  dsimp only
  split
  next rest hword =>
    have hrest := suffix_of_word? _ (Option.filter_eq_some_iff.mp hword).1
    exact finds_suffix (hrest.trans hmark) suffix_of_prolog?
  next => exact finds_some hmark

/-- A document is what is read after its declaration. -/
theorem read?_eq (keepsNotes : Bool) (text : List Char) :
    read? keepsNotes text = (opening? text).bind fun p => document? keepsNotes p.1 p.2 := by
  have hsame : ∀ (opening : Option (List Char)) (cs : List Char),
      (match opening with
        | some rest => (prolog? rest).bind fun p => document? keepsNotes p.1 p.2
        | none => document? keepsNotes ⟨none, false⟩ cs)
        = (match opening with
          | some rest => prolog? rest
          | none => some (⟨none, false⟩, cs)).bind fun p => document? keepsNotes p.1 p.2 := by
    intro opening cs
    cases opening <;> rfl
  exact hsame _ _

/-- What the size of a document depends on. -/
structure Layout where
  /-- The text after the declaration. -/
  given : List Char
  /-- The same text in the characters of the encoding that is declared. -/
  decoded : List Char
  doctype : Doctype
  /-- The text from the root element on. -/
  content : List Char

/-- The layout of a document. -/
def layout? (text : List Char) : Option Layout := do
  let (prolog, given) ← opening? text
  let decoded ← decode? prolog.encoding given
  let (doctype, content) ← beforeRoot? none (unifyLines decoded)
  some ⟨given, decoded, doctype, content⟩

/-- By how many bytes a text is longer in the characters of its encoding. -/
def Layout.recoded (l : Layout) : Nat := utf8Len l.decoded - utf8Len l.given

/-- By how many bytes what is read of a text can be longer as it is written. -/
def Layout.gain (l : Layout) : Nat := l.recoded + gains l.doctype.rules l.content

/-- **What a document is written with**, when its notes are left out, is no more than its text and
what that gains. -/
theorem size_of_read? {text : List Char} {d : Document} (h : read? false text = some d) :
    ∃ l, layout? text = some l ∧ d.root.size ≤ utf8Len text + l.gain := by
  rw [read?_eq] at h
  obtain ⟨⟨prolog, given⟩, hopening, h⟩ := Option.bind_eq_some_iff.mp h
  obtain ⟨decoded, hdecoded, h⟩ := Option.bind_eq_some_iff.mp h
  obtain ⟨⟨doctype, content⟩, hbefore, h⟩ := Option.bind_eq_some_iff.mp h
  obtain ⟨items, hitems, h⟩ := Option.bind_eq_some_iff.mp h
  obtain ⟨b, hb, h⟩ := Option.bind_eq_some_iff.mp h
  dsimp only at hdecoded hbefore hitems hb
  refine ⟨⟨given, decoded, doctype, content⟩, ?_, ?_⟩
  · unfold layout?
    dsimp only [Option.bind_eq_bind]
    rw [hopening]
    dsimp only [Option.bind_some]
    rw [hdecoded]
    dsimp only [Option.bind_some]
    rw [hbefore]
    rfl
  · have hgiven := utf8Len_le_of_suffix (suffix_of_opening? _ hopening)
    have hcontent := (utf8Len_le_of_suffix (suffix_of_beforeRoot? _ hbefore)).trans
      (utf8Len_unifyLines decoded)
    have hwriting := writing_of_items? doctype.rules _ hitems
    have hsize := size_of_run rfl _ _ _ _ hb
    dsimp only at hgiven hcontent
    split at h
    next root =>
      cases h
      have hroot : root.size ≤ utf8Len (items.flatMap (Item.writing doctype.rules)) := by
        simpa [Builder.size, rootSize] using hsize
      dsimp only [Layout.gain, Layout.recoded]
      omega
    next => cases h

end ControlSurface.Xml
