/-
  ControlSurface.Proofs.Xml.Remainder
  ───────────────────────────────────
  What a reader leaves is an end of the text that it was given: no reader makes up characters.  So
  what is left after the document type and what stands before the root element is text of the
  document (`suffix_of_beforeRoot?`), and what is left after an item is too (`suffix_of_nextItem?`).
-/
import ControlSurface.Proofs.Fault.Outcome
import ControlSurface.Proofs.Text.Search
import ControlSurface.Xml.Reader

namespace ControlSurface.Xml

open ControlSurface.Outcome ControlSurface.Text

/-! ## §1. Small parts. -/

theorem suffix_skipSpace (cs : List Char) : skipSpace cs <:+ cs := List.dropWhile_suffix _

/-- What is left of an end of a text is an end of the text. -/
theorem finds_suffix {α : Type} {left : α → List Char} {cs rest : List Char} {x : Option α}
    (hrest : rest <:+ cs) (h : Finds (fun p => left p <:+ rest) x) :
    Finds (fun p => left p <:+ cs) x :=
  fun p hp => (h p hp).trans hrest

theorem suffix_of_cutAt? {pattern cs : List Char} :
    Finds (fun p => p.2 <:+ cs) (cutAt? pattern cs) := by
  rintro ⟨body, rest⟩ h
  refine ⟨body ++ pattern, ?_⟩
  rw [(cutAt?_eq_some_iff.mp h).1, List.append_assoc]

theorem suffix_of_word? {word : String} {cs : List Char} : Finds (· <:+ cs) (word? word cs) :=
  fun _ h => ⟨word.toList, after?_eq_some_iff.mp h ▸ rfl⟩

theorem suffix_of_space? {cs : List Char} : Finds (· <:+ cs) (space? cs) := by
  unfold space?
  split
  next =>
    split
    next => exact finds_some (suffix_skipSpace _)
    next => exact finds_none
  next => exact finds_none

theorem suffix_of_close? {cs : List Char} : Finds (· <:+ cs) (close? cs) :=
  finds_suffix (suffix_skipSpace cs) suffix_of_word?

theorem suffix_of_name? {cs : List Char} : Finds (fun p => p.2 <:+ cs) (name? cs) := by
  unfold name?
  dsimp only
  split
  next => exact finds_some (List.dropWhile_suffix _)
  next => exact finds_none

theorem suffix_of_qname? {cs : List Char} : Finds (fun p => p.2 <:+ cs) (qname? cs) := by
  unfold qname?
  refine finds_bind suffix_of_name? ?_
  rintro ⟨first, rest⟩ hrest
  dsimp only
  split
  next more =>
    refine finds_bind (finds_suffix ((List.suffix_cons ':' more).trans hrest) suffix_of_name?) ?_
    rintro ⟨second, rest⟩ hrest
    dsimp only
    split
    next => exact finds_none
    next => exact finds_some hrest
  next => exact finds_some hrest

theorem suffix_of_quotedText? {cs : List Char} : Finds (fun p => p.2 <:+ cs) (quotedText? cs) := by
  unfold quotedText?
  split
  next q rest =>
    split
    next =>
      split
      next mark after hdrop =>
        have hafter : after <:+ rest := (List.suffix_cons mark after).trans
          (hdrop ▸ List.dropWhile_suffix _)
        exact finds_some (hafter.trans (List.suffix_cons q rest))
      next => exact finds_none
    next => exact finds_none
  next => exact finds_none

theorem suffix_of_reference? {cs : List Char} : Finds (fun p => p.2 <:+ cs) (reference? cs) := by
  have hcut : Finds (fun p => p.2 <:+ cs) (upToSemicolon? cs) := by
    unfold upToSemicolon?
    split
    next rest hdrop =>
      exact finds_some ((List.suffix_cons ';' rest).trans (hdrop ▸ List.dropWhile_suffix _))
    next => exact finds_none
  unfold reference?
  refine finds_bind hcut ?_
  rintro ⟨body, rest⟩ hrest
  dsimp only
  split
  next => exact finds_after fun n => finds_after fun c => finds_some hrest
  next => exact finds_after fun n => finds_after fun c => finds_some hrest
  next =>
    split
    next => exact finds_some hrest
    next =>
      split
      next => exact finds_some hrest
      next => exact finds_none

/-! ## §2. Items. -/

theorem suffix_of_tagRest {passed : List TagAttribute} {cs : List Char} :
    Finds (fun found => found.2.2 <:+ cs) (tagRest passed cs) := by
  induction hn : cs.length using Nat.strongRecOn generalizing passed cs with
  | ind n ih =>
    subst hn
    have hskip := suffix_skipSpace cs
    rw [tagRest.eq_def]
    split
    next rest heq => exact finds_some ((List.suffix_cons '>' rest).trans (heq ▸ hskip))
    next rest heq =>
      exact finds_some (((List.suffix_cons '>' rest).trans (List.suffix_cons '/' _)).trans
        (heq ▸ hskip))
    next =>
      split
      next => exact finds_none
      next =>
        split
        next => exact finds_none
        next name rest hname =>
          -- what is left after a value is left after its name and the equals sign
          have hrest : rest <:+ cs := (suffix_of_qname? _ hname).trans hskip
          split
          next more hmore =>
            have hmore : more <:+ cs :=
              (List.suffix_cons '=' more).trans ((hmore ▸ suffix_skipSpace rest).trans hrest)
            split
            next => exact finds_none
            next raw after hraw =>
              have hafter : after <:+ cs :=
                (suffix_of_quotedText? _ hraw).trans ((suffix_skipSpace more).trans hmore)
              split
              next => exact finds_none
              next =>
                split
                next hlen => exact finds_suffix hafter (ih after.length hlen rfl)
                next => exact finds_none
          next => exact finds_none

theorem suffix_of_startTag? {cs : List Char} : Finds (fun p => p.2 <:+ cs) (startTag? cs) := by
  unfold startTag?
  refine finds_bind suffix_of_qname? ?_
  rintro ⟨name, rest⟩ hrest
  refine finds_bind (finds_suffix hrest suffix_of_tagRest) ?_
  rintro ⟨attributes, closed, rest⟩ hrest
  exact finds_some hrest

theorem suffix_of_endTag? {cs : List Char} : Finds (fun p => p.2 <:+ cs) (endTag? cs) := by
  unfold endTag?
  refine finds_bind suffix_of_qname? ?_
  rintro ⟨name, rest⟩ hrest
  dsimp only
  split
  next more hmore =>
    exact finds_some ((List.suffix_cons '>' more).trans ((hmore ▸ suffix_skipSpace rest).trans hrest))
  next => exact finds_none

theorem suffix_of_comment? {cs : List Char} : Finds (fun p => p.2 <:+ cs) (comment? cs) := by
  unfold comment?
  refine finds_bind suffix_of_cutAt? ?_
  rintro ⟨body, rest⟩ hrest
  dsimp only
  split
  next more =>
    split
    next => exact finds_some ((List.suffix_cons '>' more).trans hrest)
    next => exact finds_none
  next => exact finds_none

theorem suffix_of_instruction? {cs : List Char} :
    Finds (fun p => p.2.2 <:+ cs) (instruction? cs) := by
  unfold instruction?
  refine finds_bind suffix_of_name? ?_
  rintro ⟨target, rest⟩ hrest
  refine finds_bind (finds_suffix hrest suffix_of_cutAt?) ?_
  rintro ⟨body, after⟩ hafter
  dsimp only
  split
  next => exact finds_none
  next =>
    split
    next => exact finds_none
    next =>
      split
      next => exact finds_some hafter
      next =>
        split
        next => exact finds_some hafter
        next => exact finds_none

theorem suffix_of_literal? {cs : List Char} : Finds (fun p => p.2 <:+ cs) (literal? cs) := by
  unfold literal?
  refine finds_bind suffix_of_cutAt? ?_
  rintro ⟨body, rest⟩ hrest
  dsimp only
  split
  next => exact finds_some hrest
  next => exact finds_none

/-- What is left after a mark is left. -/
theorem suffix_after (mark : List Char) {rest cs : List Char} (h : rest <:+ cs) : rest <:+ mark ++ cs :=
  h.trans (List.suffix_append mark cs)

/-- **What is left after an item** is an end of the text. -/
theorem suffix_of_nextItem? {cs : List Char} : Finds (fun p => p.2 <:+ cs) (nextItem? cs) := by
  unfold nextItem?
  split
  next rest => exact finds_suffix (suffix_after ['<', '/'] (List.suffix_refl rest)) suffix_of_endTag?
  next rest =>
    exact finds_map (finds_suffix (suffix_after ['<', '!', '-', '-'] (List.suffix_refl rest))
      suffix_of_comment?)
  next rest =>
    exact finds_map (finds_suffix
      (suffix_after ['<', '!', '[', 'C', 'D', 'A', 'T', 'A', '['] (List.suffix_refl rest))
      suffix_of_literal?)
  next rest =>
    exact finds_map (finds_suffix (suffix_after ['<', '?'] (List.suffix_refl rest))
      suffix_of_instruction?)
  next rest _ _ _ _ =>
    exact finds_suffix (suffix_after ['<'] (List.suffix_refl rest)) suffix_of_startTag?
  next rest =>
    refine finds_map ?_
    rintro ⟨r, more⟩ hr
    have hmore := suffix_after ['&'] (suffix_of_reference? _ hr)
    cases r with
    | char c => exact hmore
    | entity name => exact hmore
  next =>
    dsimp only
    split
    next => exact finds_some (List.dropWhile_suffix _)
    next => exact finds_none

/-! ## §3. Declarations of a document type. -/

theorem suffix_of_externalId? {lone : Bool} {cs : List Char} :
    Finds (· <:+ cs) (externalId? lone cs) := by
  unfold externalId?
  split
  next rest hword =>
    refine finds_bind (finds_suffix (suffix_of_word? _ hword) suffix_of_space?) fun rest hrest => ?_
    refine finds_bind (finds_suffix hrest suffix_of_quotedText?) ?_
    rintro ⟨place, rest⟩ hrest
    dsimp only
    split
    next => exact finds_some hrest
    next => exact finds_none
  next =>
    refine finds_bind suffix_of_word? fun rest hrest => ?_
    refine finds_bind (finds_suffix hrest suffix_of_space?) fun rest hrest => ?_
    refine finds_bind (finds_suffix hrest suffix_of_quotedText?) ?_
    rintro ⟨known, rest⟩ hrest
    dsimp only
    split
    next => exact finds_none
    next =>
      split
      next place more hplace =>
        obtain ⟨after, hafter, hmore⟩ := Option.bind_eq_some_iff.mp hplace
        split
        next =>
          exact finds_some ((suffix_of_quotedText? _ hmore).trans
            ((suffix_of_space? _ hafter).trans hrest))
        next => exact finds_none
      next =>
        split
        next => exact finds_some hrest
        next => exact finds_none

theorem suffix_of_entityDeclaration? {d : Doctype} {cs : List Char} :
    Finds (fun p => p.2 <:+ cs) (entityDeclaration? d cs) := by
  unfold entityDeclaration?
  refine finds_bind suffix_of_space? fun rest hrest => ?_
  dsimp only
  split
  next more =>
    have hmore := (List.suffix_cons '%' more).trans hrest
    refine finds_bind (finds_suffix hmore suffix_of_space?) fun rest hrest => ?_
    refine finds_bind (finds_suffix hrest suffix_of_name?) ?_
    rintro ⟨name, rest⟩ hrest
    refine finds_bind (finds_suffix hrest suffix_of_space?) fun rest hrest => ?_
    dsimp only
    split
    next raw after hraw =>
      have hafter := (suffix_of_quotedText? _ hraw).trans hrest
      exact finds_after fun text =>
        finds_bind (finds_suffix hafter suffix_of_close?) fun rest hrest => finds_some hrest
    next =>
      refine finds_bind (finds_suffix hrest suffix_of_externalId?) fun rest hrest => ?_
      exact finds_bind (finds_suffix hrest suffix_of_close?) fun rest hrest => finds_some hrest
  next =>
    refine finds_bind (finds_suffix hrest suffix_of_name?) ?_
    rintro ⟨name, rest⟩ hrest
    refine finds_bind (finds_suffix hrest suffix_of_space?) fun rest hrest => ?_
    dsimp only
    split
    next raw after hraw =>
      have hafter := (suffix_of_quotedText? _ hraw).trans hrest
      exact finds_after fun text =>
        finds_bind (finds_suffix hafter suffix_of_close?) fun rest hrest => finds_some hrest
    next =>
      refine finds_bind (finds_suffix hrest suffix_of_externalId?) fun rest hrest => ?_
      split
      next more hmore =>
        obtain ⟨after, hafter, hmore⟩ := Option.bind_eq_some_iff.mp hmore
        have hmore := (suffix_of_word? _ hmore).trans ((suffix_of_space? _ hafter).trans hrest)
        refine finds_bind (finds_suffix hmore suffix_of_space?) fun rest hrest => ?_
        refine finds_bind (finds_suffix hrest suffix_of_name?) ?_
        rintro ⟨_, rest⟩ hrest
        exact finds_bind (finds_suffix hrest suffix_of_close?) fun rest hrest => finds_some hrest
      next => exact finds_bind (finds_suffix hrest suffix_of_close?) fun rest hrest => finds_some hrest

theorem suffix_of_alternatives? {token : Bool} {cs : List Char} :
    Finds (· <:+ cs) (alternatives? token cs) := by
  unfold alternatives?
  split
  next => exact finds_none
  next body rest hcut =>
    intro found hfound
    obtain ⟨_, hrest⟩ := Option.ite_none_right_eq_some.mp hfound
    cases hrest
    exact suffix_of_cutAt? _ hcut

theorem suffix_of_attributeType? {cs : List Char} :
    Finds (fun p => p.2 <:+ cs) (attributeType? cs) := by
  unfold attributeType?
  dsimp only
  split
  next found hfound =>
    -- one of the words stands there
    obtain ⟨w, _, hw⟩ := List.exists_of_findSome?_eq_some hfound
    obtain ⟨rest, hrest, rfl⟩ := Option.map_eq_some_iff.mp hw
    exact finds_some (suffix_of_word? _ hrest)
  next =>
    split
    next rest hword =>
      refine finds_bind (finds_suffix (suffix_of_word? _ hword) suffix_of_space?)
        fun rest hrest => ?_
      refine finds_bind (finds_suffix hrest suffix_of_word?) fun rest hrest => ?_
      exact finds_bind (finds_suffix hrest suffix_of_alternatives?) fun rest hrest => finds_some hrest
    next =>
      refine finds_bind suffix_of_word? fun rest hrest => ?_
      exact finds_bind (finds_suffix hrest suffix_of_alternatives?) fun rest hrest => finds_some hrest

theorem suffix_of_quotedDefault? {cs : List Char} :
    Finds (fun p => p.2 <:+ cs) (quotedDefault? cs) := by
  unfold quotedDefault?
  refine finds_bind suffix_of_quotedText? ?_
  rintro ⟨raw, rest⟩ hrest
  exact finds_after fun value => finds_some hrest

theorem suffix_of_attributeDefault? {cs : List Char} :
    Finds (fun p => p.2 <:+ cs) (attributeDefault? cs) := by
  unfold attributeDefault?
  split
  next rest hword => exact finds_some (suffix_of_word? _ hword)
  next =>
    split
    next rest hword => exact finds_some (suffix_of_word? _ hword)
    next =>
      split
      next rest hword =>
        exact finds_bind (finds_suffix (suffix_of_word? _ hword) suffix_of_space?)
          fun rest hrest => finds_suffix hrest suffix_of_quotedDefault?
      next => exact suffix_of_quotedDefault?

theorem suffix_of_attributeRule? {element : QName} {cs : List Char} :
    Finds (fun p => p.2 <:+ cs) (attributeRule? element cs) := by
  unfold attributeRule?
  refine finds_bind suffix_of_qname? ?_
  rintro ⟨name, rest⟩ hrest
  refine finds_bind (finds_suffix hrest suffix_of_space?) fun rest hrest => ?_
  refine finds_bind (finds_suffix hrest suffix_of_attributeType?) ?_
  rintro ⟨collapses, rest⟩ hrest
  refine finds_bind (finds_suffix hrest suffix_of_space?) fun rest hrest => ?_
  refine finds_bind (finds_suffix hrest suffix_of_attributeDefault?) ?_
  rintro ⟨fallback, rest⟩ hrest
  exact finds_some hrest

theorem suffix_of_attributeRules? {element : QName} {rules : List AttributeRule} {cs : List Char} :
    Finds (fun p => p.2 <:+ cs) (attributeRules? element rules cs) := by
  induction hn : cs.length using Nat.strongRecOn generalizing rules cs with
  | ind n ih =>
    subst hn
    have hskip := suffix_skipSpace cs
    rw [attributeRules?.eq_def]
    split
    next rest heq => exact finds_some ((List.suffix_cons '>' rest).trans (heq ▸ hskip))
    next =>
      split
      next => exact finds_none
      next =>
        split
        next => exact finds_none
        next rule rest hrule =>
          split
          next hlen =>
            exact finds_suffix ((suffix_of_attributeRule? _ hrule).trans hskip)
              (ih rest.length hlen rfl)
          next => exact finds_none

theorem suffix_of_elementDeclaration? {cs : List Char} :
    Finds (· <:+ cs) (elementDeclaration? cs) := by
  unfold elementDeclaration?
  refine finds_bind suffix_of_space? fun rest hrest => ?_
  refine finds_bind (finds_suffix hrest suffix_of_qname?) ?_
  rintro ⟨_, rest⟩ hrest
  refine finds_bind (finds_suffix hrest suffix_of_space?) fun rest hrest => ?_
  refine finds_bind (finds_suffix hrest suffix_of_cutAt?) ?_
  rintro ⟨model, rest⟩ hrest
  dsimp only
  split
  next => exact finds_some hrest
  next =>
    split
    next => exact finds_some hrest
    next => exact finds_none

theorem suffix_of_notationDeclaration? {cs : List Char} :
    Finds (· <:+ cs) (notationDeclaration? cs) := by
  unfold notationDeclaration?
  refine finds_bind suffix_of_space? fun rest hrest => ?_
  refine finds_bind (finds_suffix hrest suffix_of_name?) ?_
  rintro ⟨_, rest⟩ hrest
  refine finds_bind (finds_suffix hrest suffix_of_space?) fun rest hrest => ?_
  refine finds_bind (finds_suffix hrest suffix_of_externalId?) fun rest hrest => ?_
  exact finds_suffix hrest suffix_of_close?

theorem suffix_of_declaration? {d : Doctype} {cs : List Char} :
    Finds (fun p => p.2 <:+ cs) (declaration? d cs) := by
  unfold declaration?
  split
  next rest hword => exact finds_suffix (suffix_of_word? _ hword) suffix_of_entityDeclaration?
  next =>
    split
    next rest hword =>
      refine finds_bind (finds_suffix (suffix_of_word? _ hword) suffix_of_space?)
        fun rest hrest => ?_
      refine finds_bind (finds_suffix hrest suffix_of_qname?) ?_
      rintro ⟨element, rest⟩ hrest
      refine finds_bind (finds_suffix hrest suffix_of_attributeRules?) ?_
      rintro ⟨rules, rest⟩ hrest
      exact finds_some hrest
    next =>
      split
      next rest hword =>
        exact finds_map (finds_suffix (suffix_of_word? _ hword) suffix_of_elementDeclaration?)
      next =>
        split
        next rest hword =>
          exact finds_map (finds_suffix (suffix_of_word? _ hword) suffix_of_notationDeclaration?)
        next =>
          split
          next rest hword =>
            exact finds_map (finds_suffix (suffix_of_word? _ hword) suffix_of_comment?)
          next =>
            split
            next rest hword =>
              exact finds_map (finds_suffix (suffix_of_word? _ hword) suffix_of_instruction?)
            next => exact finds_none

theorem suffix_of_declarations? {depth : Nat} {d : Doctype} {cs : List Char} :
    Finds (fun p => p.2 <:+ cs) (declarations? depth d cs) := by
  -- the text of a parameter is read apart, so only the length of the text itself counts here
  induction hn : cs.length using Nat.strongRecOn generalizing d cs with
  | ind n ih =>
    subst hn
    rw [declarations?.eq_def]
    split
    next => exact finds_some (List.suffix_refl [])
    next c rest =>
      have htail := List.suffix_cons c rest
      split
      next => exact finds_suffix htail (ih rest.length (by simp) rfl)
      next =>
        split
        next => exact finds_some (List.suffix_refl _)
        next =>
          split
          next =>
            split
            next name after hname =>
              have hafter : after <:+ c :: rest :=
                (List.suffix_cons ';' after).trans ((suffix_of_name? _ hname).trans htail)
              dsimp only
              split
              next =>
                split
                next hlen => exact finds_suffix hafter (ih after.length (by simp; omega) rfl)
                next => exact finds_none
              next => exact finds_none
            next => exact finds_none
          next =>
            split
            next d' after hd' =>
              split
              next hlen =>
                exact finds_suffix (suffix_of_declaration? _ hd')
                  (ih after.length (by simp; omega) rfl)
              next => exact finds_none
            next => exact finds_none

/-! ## §4. What stands before the root element. -/

/-- The declarations and the end of a document type, after its name and an optional place outside. -/
theorem suffix_of_inside {cs after : List Char} (d : Doctype) (hafter : after <:+ cs) :
    Finds (fun p => p.2 <:+ cs) (match skipSpace after with
      | '[' :: rest => do
        let (d, rest) ← declarations? maxParameterDepth d rest
        match rest with
        | ']' :: rest => some (d, ← close? rest)
        | _ => none
      | rest => do some (d, ← close? rest)) := by
  have hskip := (suffix_skipSpace after).trans hafter
  split
  next inside heq =>
    have hinside := (List.suffix_cons '[' inside).trans (heq ▸ hskip)
    refine finds_bind (finds_suffix hinside suffix_of_declarations?) ?_
    rintro ⟨d, rest⟩ hrest
    dsimp only
    split
    next more =>
      have hmore := (List.suffix_cons ']' more).trans hrest
      exact finds_bind (finds_suffix hmore suffix_of_close?) fun rest hrest => finds_some hrest
    next => exact finds_none
  next =>
    exact finds_bind (finds_suffix hskip suffix_of_close?) fun rest hrest => finds_some hrest

theorem suffix_of_doctype? {cs : List Char} : Finds (fun p => p.2 <:+ cs) (doctype? cs) := by
  unfold doctype?
  refine finds_bind suffix_of_space? fun rest hrest => ?_
  refine finds_bind (finds_suffix hrest suffix_of_qname?) ?_
  rintro ⟨_, rest⟩ hrest
  dsimp only
  rcases hplace : (space? rest).bind (externalId? false) with _ | more
  · exact suffix_of_inside _ hrest
  · obtain ⟨blank, hblank, hmore⟩ := Option.bind_eq_some_iff.mp hplace
    exact suffix_of_inside _
      ((suffix_of_externalId? _ hmore).trans ((suffix_of_space? _ hblank).trans hrest))

theorem suffix_of_pass? {d : Option Doctype} {cs : List Char} :
    Finds (fun p => p.2 <:+ cs) (pass? d cs) := by
  unfold pass?
  split
  next rest hword => exact finds_map (finds_suffix (suffix_of_word? _ hword) suffix_of_comment?)
  next =>
    split
    next rest hword => exact finds_map (finds_suffix (suffix_of_word? _ hword) suffix_of_instruction?)
    next =>
      split
      next rest hword => exact finds_map (finds_suffix (suffix_of_word? _ hword) suffix_of_doctype?)
      next => exact finds_none
      next => exact finds_some (List.suffix_refl cs)

/-- **What is left from the root element on** is an end of the text. -/
theorem suffix_of_beforeRoot? {d : Option Doctype} {cs : List Char} :
    Finds (fun p => p.2 <:+ cs) (beforeRoot? d cs) := by
  induction hn : cs.length using Nat.strongRecOn generalizing d cs with
  | ind n ih =>
    subst hn
    rw [beforeRoot?.eq_def]
    split
    next => exact finds_none
    next c rest =>
      split
      next => exact finds_suffix (List.suffix_cons c rest) (ih rest.length (by simp) rfl)
      next =>
        split
        next => exact finds_none
        next d' after hpass =>
          have hafter := suffix_of_pass? _ hpass
          split
          next hlen => exact finds_suffix hafter (ih after.length (by simp; omega) rfl)
          next => exact finds_some hafter

end ControlSurface.Xml
