/-
  ControlSurface.Proofs.Stylesheet.Items
  ──────────────────────────────────────
  A stylesheet as the items that it is written with: white space, comments, statements, rules, and
  at-rules with rules in them or without.  Every row that closes is a list of such items and a tail
  (`exists_items`), and the items say what becomes of it: `Item.spell` writes everything as it
  stands and only the selectors anew (`confined_eq_spell`).
-/
import ControlSurface.Proofs.Stylesheet.Continuing

namespace ControlSurface.Stylesheet

open ControlSurface.Outcome ControlSurface.Text

/-! ## §1. Items. -/

/-- An item of a stylesheet, by the lexemes that it is written with. -/
inductive Item where
  /-- A character of white space between two items. -/
  | blank (c : Char)
  /-- A comment between two items. -/
  | comment (text : List Char)
  /-- What ends with a semicolon, such as `@import`. -/
  | statement (head : List Lexeme)
  /-- A style rule. -/
  | rule (selectors body : List Lexeme)
  /-- An at-rule in which no rules are looked for, such as `@font-face`. -/
  | atRule (head body : List Lexeme)
  /-- An at-rule that holds rules, such as `@media`, and text behind them that belongs to none. -/
  | group (head : List Lexeme) (items : List Item) (tail : List Lexeme)
  deriving Inhabited

mutual
/-- The lexemes of an item. -/
def Item.row : Item → List Lexeme
  | .blank c => [.char c]
  | .comment t => [.comment t]
  | .statement head => head ++ [.char ';']
  | .rule selectors body => selectors ++ .char '{' :: (body ++ [.char '}'])
  | .atRule head body => head ++ .char '{' :: (body ++ [.char '}'])
  | .group head items tail => head ++ .char '{' :: (rows items ++ tail ++ [.char '}'])

/-- The lexemes of items, one after the other. -/
def rows : List Item → List Lexeme
  | [] => []
  | i :: is => i.row ++ rows is
end

mutual
/-- The text of an item in which the selectors of the rules are written in a way of their own. -/
def Item.spell (write : List Lexeme → List Char) : Item → List Char
  | .blank c => [c]
  | .comment t => t
  | .statement head => textOf head ++ [';']
  | .rule selectors body => write selectors ++ '{' :: (textOf body ++ ['}'])
  | .atRule head body => textOf head ++ '{' :: (textOf body ++ ['}'])
  | .group head items tail => textOf head ++ '{' :: (spellAll write items ++ textOf tail ++ ['}'])

/-- The text of items, one after the other. -/
def spellAll (write : List Lexeme → List Char) : List Item → List Char
  | [] => []
  | i :: is => i.spell write ++ spellAll write is
end

/-- The selectors of a rule inside a scope, as they are written out. -/
def scopedHead (scope : List Char) (selectors : List Lexeme) : List Char :=
  joinWith selectorSeparator
    (confineSelectors scope (splitSelectors (trim (textOf selectors)))) ++ [' ']

/-! ## §2. Items in their place. -/

/-- What can stand before the brace or the semicolon of an item: it begins with neither white space
nor a comment, and goes on to the first brace or semicolon outside brackets. -/
structure IsHead (head : List Lexeme) : Prop where
  begins : Begins (head ++ [.char '{'])
  ends : scan endsHead 0 head = some 0

/-- What can stand between the braces of an item: it ends at the brace that closes the first one. -/
def IsBody (body : List Lexeme) : Prop := openBlocks 0 body = some 0

/-- What can stand behind the last item: text that begins an item and does not end it. -/
def IsTail (tail : List Lexeme) : Prop := tail = [] ∨ Begins tail ∧ cut endsHead tail = none

/-- Whether the head of an item is that of an at-rule. -/
def isAtHead (head : List Lexeme) : Bool := (trim (textOf head)).head? == some '@'

mutual
/-- An item that is read as what it is. -/
def Item.Proper : Item → Prop
  | .blank c => isBlank c = true
  | .comment _ => True
  | .statement head => IsHead head
  | .rule selectors body => IsHead selectors ∧ isAtHead selectors = false ∧ IsBody body
  | .atRule head body =>
    IsHead head ∧ isAtHead head = true ∧ holdsRules (trim (textOf head)) = false ∧ IsBody body
  | .group head items tail =>
    IsHead head ∧ isAtHead head = true ∧ holdsRules (trim (textOf head)) = true
      ∧ AllProper items ∧ IsTail tail ∧ IsBody (rows items ++ tail)

/-- Items that are read as what they are. -/
def AllProper : List Item → Prop
  | [] => True
  | i :: is => i.Proper ∧ AllProper is
end

/-- Whether a row begins with an item is seen before the character that ends its head. -/
theorem IsHead.begins_append {head : List Lexeme} (h : IsHead head) (c : Char)
    (hc : isBlank c = false) (rest : List Lexeme) : Begins (head ++ .char c :: rest) := by
  obtain ⟨l, tail, heq, hl⟩ := h.begins
  cases head with
  | nil =>
    exact ⟨.char c, rest, rfl, by simp, by simpa [allBlank, Lexeme.text] using hc⟩
  | cons m head =>
    obtain ⟨rfl, -⟩ := List.cons.inj heq
    exact ⟨m, head ++ .char c :: rest, rfl, hl⟩

theorem isHead_of_begins {head rest : List Lexeme} {c : Char} (h : Begins (head ++ .char c :: rest))
    (hscan : scan endsHead 0 head = some 0) : IsHead head := by
  refine ⟨?_, hscan⟩
  obtain ⟨l, tail, heq, hl⟩ := h
  cases head with
  | nil => exact ⟨.char '{', [], rfl, by simp, by decide⟩
  | cons m head =>
    obtain ⟨rfl, -⟩ := List.cons.inj heq
    exact ⟨m, head ++ [.char '{'], rfl, hl⟩

mutual
/-- An item with its selectors as they stand is its lexemes. -/
theorem Item.spell_textOf : ∀ i : Item, i.spell textOf = textOf i.row
  | .blank c => by simp [Item.spell, Item.row, textOf, Lexeme.text]
  | .comment t => by simp [Item.spell, Item.row, textOf, Lexeme.text]
  | .statement head => by simp [Item.spell, Item.row, textOf, Lexeme.text]
  | .rule selectors body => by simp [Item.spell, Item.row, textOf, Lexeme.text]
  | .atRule head body => by simp [Item.spell, Item.row, textOf, Lexeme.text]
  | .group head items tail => by
    rw [Item.spell, Item.row, spellAll_textOf items]
    simp [textOf, Lexeme.text]

theorem spellAll_textOf : ∀ is : List Item, spellAll textOf is = textOf (rows is)
  | [] => rfl
  | i :: is => by
    rw [spellAll, rows, textOf_append, Item.spell_textOf i, spellAll_textOf is]
end

/-! ## §3. Every row that closes has items. -/

/-- Behind an item a new one may begin. -/
theorem Item.Proper.after_row {i : Item} (h : i.Proper) (rest : List Lexeme) :
    Position.after .between (i.row ++ rest) = Position.after .between rest := by
  have hblock : ∀ {head body : List Lexeme}, IsHead head → IsBody body →
      Position.after .between (head ++ .char '{' :: (body ++ [.char '}']) ++ rest)
        = Position.after .between rest := by
    intro head body hhead hbody
    rw [List.append_assoc, List.cons_append, List.append_assoc, List.singleton_append,
      (hhead.begins_append '{' (by decide) _).after_eq,
      after_of_cut (cut_of_scan hhead.ends stops_brace _), if_neg (by decide),
      after_of_block (block_of_openBlocks_eq hbody rest)]
  cases i with
  | blank c => exact congrArg (fun place => Position.after place rest) (if_pos h)
  | comment t => rfl
  | statement head =>
    have hhead : IsHead head := h
    rw [Item.row, List.append_assoc, List.singleton_append,
      (hhead.begins_append ';' (by decide) _).after_eq,
      after_of_cut (cut_of_scan hhead.ends stops_semicolon _), if_pos rfl]
  | rule selectors body => exact hblock h.1 h.2.2
  | atRule head body => exact hblock h.1 h.2.2.2
  | group head items tail =>
    obtain ⟨hhead, -, -, -, -, hbody⟩ := h
    exact hblock hhead hbody

theorem after_rows {is : List Item} (h : AllProper is) (rest : List Lexeme) :
    Position.after .between (rows is ++ rest) = Position.after .between rest := by
  induction is with
  | nil => rfl
  | cons i is ih => rw [rows, List.append_assoc, h.1.after_row, ih h.2]

/-- A row can be told apart into items and a tail. -/
def HasItems (ls : List Lexeme) : Prop :=
  ∃ is tail, AllProper is ∧ IsTail tail ∧ ls = rows is ++ tail

theorem HasItems.cons {i : Item} {rest : List Lexeme} (hi : i.Proper) (h : HasItems rest) :
    HasItems (i.row ++ rest) := by
  obtain ⟨is, tail, his, htail, rfl⟩ := h
  exact ⟨i :: is, tail, ⟨hi, his⟩, htail, by rw [rows, List.append_assoc]⟩

/-- A head and a body are an item. -/
theorem exists_block_item {head body : List Lexeme} (hhead : IsHead head) (hbody : IsBody body)
    (hitems : HasItems body) :
    ∃ i : Item, i.Proper ∧ i.row = head ++ .char '{' :: (body ++ [.char '}']) := by
  cases hat : isAtHead head with
  | false => exact ⟨.rule head body, ⟨hhead, hat, hbody⟩, rfl⟩
  | true =>
    cases hholds : holdsRules (trim (textOf head)) with
    | false => exact ⟨.atRule head body, ⟨hhead, hat, hholds, hbody⟩, rfl⟩
    | true =>
      obtain ⟨is, tail, his, htail, rfl⟩ := hitems
      exact ⟨.group head is tail, ⟨hhead, hat, hholds, his, htail, hbody⟩, rfl⟩

/-- A row that closes is a tail or begins with an item, if that holds of shorter ones. -/
theorem exists_first_item {ls : List Lexeme} (hclean : Clean ls) (hcloses : Closes ls)
    (hshorter : ∀ ms : List Lexeme, ms.length < ls.length → Clean ms → Closes ms → HasItems ms) :
    IsTail ls ∨ ∃ i rest, i.Proper ∧ i.row ≠ [] ∧ ls = Item.row i ++ rest := by
  rcases hclean.begins_cases with rfl | ⟨t, tail, rfl⟩ | ⟨c, tail, rfl, hc⟩ | hbegins
  · exact .inl (.inl rfl)
  · exact .inr ⟨.comment t, tail, trivial, by simp [Item.row], rfl⟩
  · exact .inr ⟨.blank c, tail, hc, by simp [Item.row], rfl⟩
  · cases hbegins.onward with
    | head hcut => exact .inl (.inr ⟨hbegins, hcut⟩)
    | unclosed hend => exact absurd hend (hcloses _)
    | @statement head rest heq hscan =>
      subst heq
      have hhead : IsHead head := isHead_of_begins hbegins hscan
      exact .inr ⟨.statement head, rest, hhead, by simp [Item.row], by simp [Item.row]⟩
    | @block head body after heq hscan hopen hblock =>
      subst heq
      -- the body of a block closes, whether its rules are looked for or not
      have hinner : HasItems body := by
        refine hshorter body (by simp; omega) ?_ ?_
        · exact hclean.stretch ⟨head ++ [.char '{'], .char '}' :: after, by simp⟩
        · exact (parts_ok_iff body).mp (parts_of_paired (paired_of_block hblock).2)
      obtain ⟨i, hi, hrow⟩ := exists_block_item (isHead_of_begins hbegins hscan) hopen hinner
      exact .inr ⟨i, after, hi, by simp [hrow], by simp [hrow]⟩

/-- **A clean row that closes has items.** -/
theorem exists_items {ls : List Lexeme} (hclean : Clean ls) (hcloses : Closes ls) :
    HasItems ls := by
  -- over the length: the body of a block is shorter than the row, but no tail of it
  induction hn : ls.length using Nat.strong_induction_on generalizing ls with
  | _ n ih =>
    subst hn
    have hshorter : ∀ ms : List Lexeme, ms.length < ls.length → Clean ms → Closes ms →
        HasItems ms := fun ms hlt hms hmscloses => ih ms.length hlt hms hmscloses rfl
    obtain htail | ⟨i, rest, hi, hrow, rfl⟩ := exists_first_item hclean hcloses hshorter
    · exact ⟨[], ls, trivial, htail, rfl⟩
    · rw [Closes, hi.after_row] at hcloses
      have hpos := List.length_pos_iff.mpr hrow
      refine (hshorter rest (by simp; omega) ?_ hcloses).cons hi
      exact hclean.stretch ⟨i.row, [], by simp⟩

/-- A complete stylesheet has items and no tail. -/
theorem Complete.exists_items {css : String} (h : Complete css) :
    ∃ is, AllProper is ∧ rows is = lexemes css.toList := by
  have hcloses : Closes (lexemes css.toList) := by
    rw [Closes, h.ended]
    exact fun _ => Position.noConfusion
  obtain ⟨is, tail, his, htail, heq⟩ := Stylesheet.exists_items (clean_lexemes h.closed) hcloses
  refine ⟨is, his, ?_⟩
  obtain rfl | ⟨hbegins, hcut⟩ := htail
  · rw [heq, List.append_nil]
  · -- a tail is passed as a head that does not end
    have hended := h.ended
    obtain ⟨brackets, hend⟩ := after_of_cut_none hcut
    rw [heq, after_rows his, hbegins.after_eq, hend] at hended
    cases hended

/-! ## §4. Parts of items. -/

/-- What is left of a row behind its items, as parts. -/
def tailParts (tail : List Lexeme) : List Part :=
  if tail = [] then [] else [.copied (textOf tail)]

mutual
/-- What an item is read as. -/
def Item.part : Item → Part
  | .blank c => .copied [c]
  | .comment t => .copied t
  | .statement head => .copied (textOf head ++ [';'])
  | .rule selectors body => .rule (splitSelectors (trim (textOf selectors))) (textOf body)
  | .atRule head body => .copied (textOf head ++ '{' :: textOf body ++ ['}'])
  | .group head items tail => .group (textOf head) (partsOf items ++ tailParts tail)

/-- What items are read as. -/
def partsOf : List Item → List Part
  | [] => []
  | i :: is => i.part :: partsOf is
end

theorem parts_tail {tail : List Lexeme} (h : IsTail tail) : parts tail = .ok (tailParts tail) := by
  obtain rfl | ⟨hbegins, hcut⟩ := h
  · rw [parts]
    rfl
  · have hne : tail ≠ [] := by
      obtain ⟨l, ls, rfl, -⟩ := hbegins
      exact List.cons_ne_nil l ls
    rw [parts_text hbegins hcut, tailParts, if_neg hne]

/-- A block is one part, and what follows it is read as it is alone. -/
theorem parts_head_body {head body : List Lexeme} (hhead : IsHead head) (hbody : IsBody body)
    {p : Part} (hp : blockPart head body = .ok p) (rest : List Lexeme) :
    parts (head ++ .char '{' :: (body ++ [.char '}']) ++ rest)
      = (do .ok (p :: (← parts rest))) := by
  rw [List.append_assoc, List.cons_append, List.append_assoc, List.singleton_append,
    parts_block (hhead.begins_append '{' (by decide) _) (cut_of_scan hhead.ends stops_brace _)
      (block_of_openBlocks_eq hbody rest), hp]
  rfl

theorem blockPart_of_not_at {head : List Lexeme} (h : isAtHead head = false) (body : List Lexeme) :
    blockPart head body = .ok (.rule (splitSelectors (trim (textOf head))) (textOf body)) :=
  if_pos (by simpa [isAtHead] using h)

theorem blockPart_of_at {head : List Lexeme} (h : isAtHead head = true) (body : List Lexeme) :
    blockPart head body
      = if holdsRules (trim (textOf head)) then do .ok (.group (textOf head) (← parts body))
        else .ok (.copied (textOf head ++ '{' :: textOf body ++ ['}'])) :=
  if_neg (by simpa [isAtHead] using h)

mutual
/-- An item is read as its part, and what follows it as it is alone. -/
theorem parts_row : ∀ (i : Item), i.Proper → ∀ rest : List Lexeme,
    parts (i.row ++ rest) = (do .ok (i.part :: (← parts rest)))
  | .blank _, h, rest => parts_blank h rest
  | .comment t, _, rest => parts_comment t rest
  | .statement head, h, rest => by
    have hhead : IsHead head := h
    rw [Item.row, List.append_assoc, List.singleton_append,
      parts_statement (hhead.begins_append ';' (by decide) _)
        (cut_of_scan hhead.ends stops_semicolon _)]
    rfl
  | .rule _ body, ⟨hhead, hat, hbody⟩, rest =>
    parts_head_body hhead hbody (blockPart_of_not_at hat body) rest
  | .atRule head body, ⟨hhead, hat, hholds, hbody⟩, rest => by
    have hp := blockPart_of_at hat body
    rw [if_neg (by simp [hholds])] at hp
    exact parts_head_body hhead hbody hp rest
  | .group head items tail, ⟨hhead, hat, hholds, hitems, htail, hbody⟩, rest => by
    have hp := blockPart_of_at hat (rows items ++ tail)
    rw [if_pos hholds, parts_rows items hitems htail] at hp
    exact parts_head_body hhead hbody hp rest

/-- **A row is read as the parts of its items and of its tail.** -/
theorem parts_rows : ∀ (is : List Item), AllProper is → ∀ {tail : List Lexeme}, IsTail tail →
    parts (rows is ++ tail) = .ok (partsOf is ++ tailParts tail)
  | [], _, _, htail => parts_tail htail
  | i :: is, h, tail, htail => by
    rw [rows, List.append_assoc, parts_row i h.1, parts_rows is h.2 htail]
    rfl
end

/-! ## §5. What is written for items. -/

theorem printAll_tailParts (scope : List Char) (tail : List Lexeme) :
    printAll (confineAll scope (tailParts tail)) = textOf tail := by
  unfold tailParts
  split
  next h =>
    rw [h]
    rfl
  next => simp [confineAll, confine, printAll, print]

mutual
/-- An item is written as it stands, but for the selectors of its rules. -/
theorem print_part (scope : List Char) :
    ∀ i : Item, print (confine scope i.part) = i.spell (scopedHead scope)
  | .blank _ => rfl
  | .comment _ => rfl
  | .statement _ => rfl
  | .rule selectors body => by
    simp [Item.part, Item.spell, confine, print, scopedHead]
  | .atRule head body => by simp [Item.part, Item.spell, confine, print]
  | .group head items tail => by
    rw [Item.part, Item.spell, confine, print, confineAll_append, printAll_append,
      print_partsOf scope items, printAll_tailParts]
    simp

theorem print_partsOf (scope : List Char) :
    ∀ is : List Item, printAll (confineAll scope (partsOf is)) = spellAll (scopedHead scope) is
  | [] => rfl
  | i :: is => by
    rw [partsOf, confineAll, printAll, spellAll, print_part scope i, print_partsOf scope is]
end

/-- **A stylesheet is written item by item**, each as it stands but for the selectors. -/
theorem confined_eq_spell (scope : String) {css : String} {is : List Item} (h : AllProper is)
    (hrows : rows is = lexemes css.toList) :
    confined scope css = .ok (String.ofList (spellAll (scopedHead scope.toList) is)) := by
  have hparts : parts (lexemes css.toList) = .ok (partsOf is) := by
    have hread := parts_rows is h (.inl rfl)
    rwa [List.append_nil, hrows, tailParts, if_pos rfl, List.append_nil] at hread
  rw [confined, hparts]
  exact congrArg (fun cs => Except.ok (String.ofList cs)) (print_partsOf scope.toList is)

/-- **Confining works item by item.**  A complete stylesheet has items, and whatever its items are,
their texts are the stylesheet, and the confined one is the same texts with the selectors of the
rules scoped.  What can be confined behind it is confined as it is alone. -/
theorem confined_itemwise (scope : String) {a : String} (h : Complete a) :
    (∃ is, AllProper is ∧ rows is = lexemes a.toList)
      ∧ (∀ is, AllProper is → rows is = lexemes a.toList →
          a = String.ofList (spellAll textOf is)
            ∧ confined scope a = .ok (String.ofList (spellAll (scopedHead scope.toList) is)))
      ∧ ∀ b out, confined scope b = .ok out →
          ∃ outA, confined scope a = .ok outA ∧ confined scope (a ++ b) = .ok (outA ++ out) := by
  refine ⟨h.exists_items, fun is his hrows => ⟨?_, confined_eq_spell scope his hrows⟩, ?_⟩
  · rw [spellAll_textOf, hrows, textOf_lexemes, String.ofList_toList]
  · intro b out hb
    obtain ⟨outA, ha⟩ := h.exists_confined scope
    refine ⟨outA, ha, ?_⟩
    rw [confined_append scope h, ha, hb]
    rfl

/-- A comment, a group and a statement with a rule behind them. -/
theorem media_itemwise :
    Complete "/*x*/@media print\x7bh1,p\x7b\x7d\x7d @import y;"
      ∧ (∃ is, AllProper is
          ∧ "/*x*/@media print\x7bh1,p\x7b\x7d\x7d @import y;" = String.ofList (spellAll textOf is)
          ∧ confined ".s" "/*x*/@media print\x7bh1,p\x7b\x7d\x7d @import y;"
              = .ok (String.ofList (spellAll (scopedHead ".s".toList) is)))
      ∧ ∃ out, confined ".s" "/*x*/@media print\x7bh1,p\x7b\x7d\x7d @import y;" = .ok out
          ∧ confined ".s" ("/*x*/@media print\x7bh1,p\x7b\x7d\x7d @import y;" ++ "h2\x7b\x7d")
              = .ok (out ++ ".s h2 \x7b\x7d") := by
  have ha : Complete "/*x*/@media print\x7bh1,p\x7b\x7d\x7d @import y;" :=
    ⟨by decide, by decide⟩
  obtain ⟨⟨is, his, hrows⟩, hspell, hbehind⟩ := confined_itemwise ".s" ha
  exact ⟨ha, ⟨is, his, hspell is his hrows⟩, hbehind _ _ (by decide +kernel)⟩

end ControlSurface.Stylesheet
