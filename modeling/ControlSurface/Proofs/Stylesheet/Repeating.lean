/-
  ControlSurface.Proofs.Stylesheet.Repeating
  ──────────────────────────────────────────
  Scoping that is repeated.  A selector that is scoped begins with the scope, and a second pass
  leaves it as it is exactly if nothing or a blank follows there.  That is so unless it selected the
  page itself and went on right behind its name, with a class for instance (`goesOn`).

  What is printed for a stylesheet is read as the same items with other selectors (`Rescoped`), so
  its rules have the selectors that scoping gave them (`exists_rescoped`).

  Main result: `rescoping_iff`, for selectors and for stylesheets.
-/
import ControlSurface.Proofs.Stylesheet.Ending
import ControlSurface.Proofs.Stylesheet.Isolation

namespace ControlSurface.Stylesheet

open ControlSurface.Outcome ControlSurface.Text

/-! ## §1. A selector that is scoped twice. -/

/-- Whether a selector of the page goes on right behind its names, with a class or an attribute for
instance: with neither white space nor a combinator. -/
def goesOn (selector : List Char) : Bool :=
  match (afterPage? selector).map withoutNested with
  | some (c :: _) => !isCombinator c
  | _ => false

/-- A scope, also in that no selector which begins with it selects the page. -/
structure IsOwnScope (scope : List Char) : Prop extends IsScope scope where
  noPage : ∀ rest, afterPage? (scope ++ rest) = none

theorem isOwnScope_sectionScope {slug : String} (h : slug.toList.all Name.isSlugChar = true) :
    IsOwnScope (Preview.sectionScope slug).toList := by
  refine ⟨isScope_sectionScope h, fun rest => ?_⟩
  -- a number sign begins no name of the page
  rw [Preview.sectionScope, String.toList_append, List.append_assoc]
  rfl

/-- What follows the scope in a selector that scoping leaves as it is. -/
def StaysApart (rest : List Char) : Prop := rest = [] ∨ rest.head? = some ' '

theorem trim_trim (cs : List Char) : trim (trim cs) = trim cs := by
  by_cases h : trim cs = []
  · rw [h]
    rfl
  · exact (trimmed_trim h).trim_eq

theorem scopeSelector_trim (scope s : List Char) :
    scopeSelector scope (trim s) = scopeSelector scope s := by
  rw [scopeSelector, scopeSelector, trim_trim]

section Selectors

variable {scope : List Char} (hscope : IsOwnScope scope)

include hscope

/-- **A selector that begins with the scope** is left as it is if nothing or a blank follows. -/
theorem scopeSelector_scope_append_iff {rest : List Char} (h : Trimmed (scope ++ rest)) :
    scopeSelector scope (scope ++ rest) = scope ++ rest ↔ StaysApart rest := by
  rw [scopeSelector_eq h, List.append_cancel_left_eq, remainder]
  by_cases hnil : rest = []
  · simp [hnil, StaysApart]
  · rw [if_neg (by simpa using hnil)]
    cases hafter : after? (scope ++ [' ']) (scope ++ rest) with
    | some more =>
      have heq := append_of_after? hafter
      rw [List.append_assoc, List.append_cancel_left_eq] at heq
      simp [heq, StaysApart]
    | none =>
      -- now the selector is put inside the scope, so it gets longer
      have hblank : rest.head? ≠ some ' ' := by
        intro hhead
        obtain ⟨more, rfl⟩ := List.head?_eq_some_iff.mp hhead
        rw [show scope ++ ' ' :: more = (scope ++ [' ']) ++ more by simp, after?_append] at hafter
        cases hafter
      have hlonger : ' ' :: (scope ++ rest) ≠ rest := by
        intro heq
        have hlength := congrArg List.length heq
        simp only [List.length_cons, List.length_append] at hlength
        omega
      simp [hscope.noPage, StaysApart, hnil, hblank, hlonger]

/-- **What scoping puts behind the scope** begins with a blank unless the selector goes on. -/
theorem staysApart_remainder_iff (selector : List Char) :
    StaysApart (remainder scope selector) ↔ goesOn selector = false := by
  have hown : ∀ rest, goesOn (scope ++ rest) = false := fun rest => by
    rw [goesOn, hscope.noPage]
    rfl
  rw [remainder]
  split
  next hself =>
    have hgoes := hown []
    rw [List.append_nil, ← hself] at hgoes
    simp [StaysApart, hgoes]
  next =>
    split
    next rest hafter =>
      rw [append_of_after? hafter, List.append_assoc, hown]
      simp [StaysApart]
    next =>
      split
      next hnone => simp [StaysApart, goesOn, hnone]
      next rest hpage =>
        split
        next hnested => simp [StaysApart, goesOn, hpage, hnested]
        next c tail hnested =>
          have hblank : isCombinator ' ' = true := by decide
          have hgoes : goesOn selector = !isCombinator c := by simp [goesOn, hpage, hnested]
          rw [hgoes]
          split
          next hc => simp [StaysApart, hc]
          next hc =>
            have hne : c ≠ ' ' := fun heq => hc (heq ▸ hblank)
            simp [StaysApart, hc, hne]

/-- **Scoping a selector twice** is scoping it once, unless it selects the page and goes on. -/
theorem scopeSelector_twice_iff (s : List Char) :
    scopeSelector scope (scopeSelector scope s) = scopeSelector scope s
      ↔ goesOn (trim s) = false := by
  rw [← scopeSelector_trim scope s]
  by_cases hnil : trim s = []
  · rw [hnil]
    exact iff_of_true rfl rfl
  · have htrimmed : Trimmed (trim s) := trimmed_trim hnil
    have hscoped := trimmed_scopeSelector hscope.toIsScope htrimmed
    rw [scopeSelector_eq htrimmed] at hscoped ⊢
    rw [scopeSelector_scope_append_iff hscope hscoped, staysApart_remainder_iff hscope]

end Selectors

/-! ## §2. A list of selectors that is scoped twice. -/

section Repeats

variable {α : Type} [BEq α]

theorem eraseDups_sublist (as : List α) : as.eraseDups.Sublist as := by
  induction hn : as.length using Nat.strong_induction_on generalizing as with
  | _ n ih =>
    subst hn
    cases as with
    | nil => simp
    | cons a as =>
      have hfewer : (as.filter fun b => !b == a).length ≤ as.length := List.length_filter_le ..
      rw [List.eraseDups_cons]
      exact ((ih _ (by simp only [List.length_cons]; omega) _ rfl).trans
        List.filter_sublist).cons_cons a

theorem eraseDups_eraseDups [LawfulBEq α] (as : List α) :
    as.eraseDups.eraseDups = as.eraseDups := by
  induction hn : as.length using Nat.strong_induction_on generalizing as with
  | _ n ih =>
    subst hn
    cases as with
    | nil => simp
    | cons a as =>
      have hfewer : (as.filter fun b => !b == a).length ≤ as.length := List.length_filter_le ..
      -- none of the others is the first one, so it is taken out of them in vain
      have hothers : ∀ b ∈ (as.filter fun b => !b == a).eraseDups, (!b == a) = true :=
        fun b hb => (List.mem_filter.mp (List.mem_eraseDups.mp hb)).2
      rw [List.eraseDups_cons, List.eraseDups_cons, List.filter_eq_self.mpr hothers,
        ih _ (by simp only [List.length_cons]; omega) _ rfl]

end Repeats

/-- **A list that is scoped twice** is the list that is scoped once exactly if that is so for each
of its selectors. -/
theorem confineSelectors_twice_iff (scope : List Char) (ss : List (List Char)) :
    confineSelectors scope (confineSelectors scope ss) = confineSelectors scope ss
      ↔ ∀ s ∈ ss, scopeSelector scope (scopeSelector scope s) = scopeSelector scope s := by
  have hmem : (∀ t ∈ confineSelectors scope ss, scopeSelector scope t = t)
      ↔ ∀ s ∈ ss, scopeSelector scope (scopeSelector scope s) = scopeSelector scope s := by
    simp only [mem_confineSelectors, List.forall_mem_map]
  rw [← hmem]
  have hself : ∀ ts : List (List Char), (∀ t ∈ ts, scopeSelector scope t = t)
      ↔ ts.map (scopeSelector scope) = ts := by
    intro ts
    conv_rhs => rhs; rw [← List.map_id ts]
    exact List.map_inj_left.symm
  rw [hself]
  constructor
  · intro heq
    -- the list is as long as before, so no repeat was left out
    have hsublist := eraseDups_sublist ((confineSelectors scope ss).map (scopeSelector scope))
    have hall := hsublist.eq_of_length (by
      rw [List.length_map]
      exact congrArg List.length heq)
    exact hall.symm.trans heq
  · intro heq
    rw [confineSelectors, heq]
    exact eraseDups_eraseDups _

/-! ## §3. Braces in selectors. -/

/-- Every brace that a selector opens, outside strings and comments, is closed in it. -/
def PairsBraces (selector : List Char) : Prop := openBlocks 0 (lexemes selector) = some 0

/-- What is open around a row does not change what it does. -/
theorem openBlocks_around {ls : List Lexeme} {blocks n : Nat} (h : openBlocks blocks ls = some n)
    (around : Nat) : openBlocks (blocks + around) ls = some (n + around) := by
  induction ls generalizing blocks with
  | nil =>
    cases h
    rfl
  | cons l ls ih =>
    cases l with
    | char c =>
      rw [openBlocks.eq_def] at h ⊢
      dsimp only at h ⊢
      split at h
      next hopen =>
        rw [if_pos hopen, Nat.add_right_comm]
        exact ih h
      next hopen =>
        rw [if_neg hopen]
        split at h
        next hclose =>
          rw [if_pos hclose]
          cases blocks with
          | zero => cases h
          | succ inner =>
            rw [Nat.add_right_comm]
            exact ih h
        next hclose =>
          rw [if_neg hclose]
          exact ih h
    | quoted t => exact ih h
    | comment t => exact ih h

/-- A row in which all braces are closed is passed at any depth. -/
def PassesBlocks (ls : List Lexeme) : Prop := ∀ blocks, openBlocks blocks ls = some blocks

theorem passesBlocks_of_paired {ls : List Lexeme} (h : openBlocks 0 ls = some 0) :
    PassesBlocks ls := by
  intro blocks
  have hpass := openBlocks_around h blocks
  rwa [Nat.zero_add] at hpass

theorem PassesBlocks.append {ls ms : List Lexeme} (hl : PassesBlocks ls) (hm : PassesBlocks ms) :
    PassesBlocks (ls ++ ms) := by
  intro blocks
  rw [openBlocks_append, hl blocks, Option.bind_some, hm blocks]

theorem PassesBlocks.openBlocks_append {ls : List Lexeme} (h : PassesBlocks ls) (blocks : Nat)
    (ms : List Lexeme) : openBlocks blocks (ls ++ ms) = openBlocks blocks ms := by
  rw [Stylesheet.openBlocks_append, h blocks, Option.bind_some]

/-- Plain characters open no block and close none. -/
theorem passesBlocks_plain {cs : List Char} (h : ∀ c ∈ cs, isPlain c = true) :
    PassesBlocks (charsOf cs) := by
  intro blocks
  induction cs with
  | nil => rfl
  | cons c cs ih =>
    obtain ⟨hc, hcs⟩ := List.forall_mem_cons.mp h
    show openBlocks blocks (.char c :: charsOf cs) = _
    rw [openBlocks.eq_def]
    dsimp only
    rw [if_neg (ne_of_plain hc (by decide)), if_neg (ne_of_plain hc (by decide)), ih hcs]

/-- Rows between plain characters open and close what the rows do. -/
theorem openBlocks_between {cs ds : List Char} (hcs : ∀ c ∈ cs, isPlain c = true)
    (hds : ∀ c ∈ ds, isPlain c = true) (blocks : Nat) (ls : List Lexeme) :
    openBlocks blocks (charsOf cs ++ ls ++ charsOf ds) = openBlocks blocks ls := by
  rw [List.append_assoc, (passesBlocks_plain hcs).openBlocks_append, openBlocks_append]
  cases openBlocks blocks ls with
  | none => rfl
  | some n => exact passesBlocks_plain hds n

/-- Scoping changes no brace. -/
theorem pairsBraces_scopeSelector {scope s : List Char} (hscope : IsScope scope) (h : Separate s)
    (hbraces : PairsBraces s) : PairsBraces (scopeSelector scope s) := by
  obtain ⟨begun, front, ms, hbegun, hfront, hbefore, hafter⟩ :=
    exists_scoped_row hscope h.heading.clean h.trimmed
  have hnone : ∀ c ∈ ([] : List Char), isPlain c = true := by simp
  rw [PairsBraces, hbefore, openBlocks_between hbegun hnone] at hbraces
  rw [PairsBraces, hafter,
    openBlocks_between (List.forall_mem_append.mpr ⟨hscope.plain, hfront⟩) hnone, hbraces]

/-- A row is passed if its pieces are. -/
theorem passesBlocks_of_pieces {ls : List Lexeme} (h : ∀ ms ∈ pieces ls, PassesBlocks ms) :
    PassesBlocks ls := by
  induction ls using pieces.induct with
  | case1 ls head c rest hcut _ ih =>
    rw [pieces_of_cut hcut] at h
    obtain ⟨hhead, hrest⟩ := List.forall_mem_cons.mp h
    obtain ⟨heq, -, hstops⟩ := partsAt_of_cut hcut
    obtain rfl : c = ',' := of_decide_eq_true hstops.stops
    have hcomma : PassesBlocks [.char ','] := fun _ => rfl
    rw [heq]
    exact hhead.append (hcomma.append (ih hrest))
  | case2 ls hcut =>
    rw [pieces_of_none hcut] at h
    exact h ls (List.mem_singleton_self ls)

/-- **The head of a rule is passed** if the braces of its selectors are closed. -/
theorem passesBlocks_head {head : List Lexeme} (h : Heading head)
    (hbraces : ∀ s ∈ splitSelectors (trim (textOf head)), PairsBraces s) : PassesBlocks head := by
  obtain ⟨cs, ms, ds, rfl, htext, hcs, hds⟩ := exists_trimmed h.clean
  have hms : Heading ms := (heading_between hcs hds).mp h
  have hlexemes : lexemes (textOf ms) = ms := lexemes_textOf hms.clean
  rw [← htext] at hbraces
  intro blocks
  rw [openBlocks_between hcs hds]
  refine passesBlocks_of_pieces (fun piece hpiece => ?_) blocks
  -- a piece is a selector between white space, or white space only
  have hheading := (pieces_heading hms _ hpiece).1
  obtain ⟨es, ns, fs, rfl, hpieceText, hes, hfs⟩ := exists_trimmed hheading.clean
  have hns : Clean ns := ((heading_between hes hfs).mp hheading).clean
  intro inner
  rw [openBlocks_between hes hfs]
  by_cases hnil : ns = []
  · rw [hnil]
    rfl
  · refine passesBlocks_of_paired ?_ inner
    have hne : textOf ns ≠ [] := by
      obtain ⟨l, ls, rfl⟩ := List.exists_cons_of_ne_nil hnil
      rw [textOf_cons]
      simp [text_ne_nil (hns.whole l (List.mem_cons_self ..))]
    have hmem : textOf ns ∈ splitSelectors (textOf ms) := by
      rw [splitSelectors, hlexemes, List.mem_filter, List.mem_map]
      exact ⟨⟨_, hpiece, hpieceText.symm⟩, by simpa using hne⟩
    have hpaired := hbraces _ hmem
    rwa [PairsBraces, lexemes_textOf hns] at hpaired

/-! ## §4. The rules of a stylesheet. -/

mutual
/-- The lists of selectors of the rules in a part. -/
def Part.rules : Part → List (List (List Char))
  | .copied _ => []
  | .group _ body => rulesOf body
  | .rule selectors _ => [selectors]

/-- The lists of selectors of the rules in parts, one for each rule. -/
def rulesOf : List Part → List (List (List Char))
  | [] => []
  | p :: ps => p.rules ++ rulesOf ps
end

/-- The lists of selectors of the rules of a stylesheet, also of those in groups. -/
def rulesIn (css : String) : Except Fault (List (List (List Char))) := do
  .ok (rulesOf (← parts (lexemes css.toList)))

theorem rulesOf_append (ps qs : List Part) : rulesOf (ps ++ qs) = rulesOf ps ++ rulesOf qs := by
  induction ps with
  | nil => rfl
  | cons p ps ih => rw [List.cons_append, rulesOf, rulesOf, ih, List.append_assoc]

theorem rulesOf_tailParts (tail : List Lexeme) : rulesOf (tailParts tail) = [] := by
  unfold tailParts
  split
  next => rfl
  next => rfl

theorem rows_append (is js : List Item) : rows (is ++ js) = rows is ++ rows js := by
  induction is with
  | nil => rfl
  | cons i is ih => rw [List.cons_append, rows, rows, ih, List.append_assoc]

theorem spellAll_append (write : List Lexeme → List Char) (is js : List Item) :
    spellAll write (is ++ js) = spellAll write is ++ spellAll write js := by
  induction is with
  | nil => rfl
  | cons i is ih => rw [List.cons_append, spellAll, spellAll, ih, List.append_assoc]

theorem partsOf_append (is js : List Item) : partsOf (is ++ js) = partsOf is ++ partsOf js := by
  induction is with
  | nil => rfl
  | cons i is ih => rw [List.cons_append, partsOf, partsOf, ih, List.cons_append]

theorem AllProper.append {is js : List Item} (h : AllProper is) (h' : AllProper js) :
    AllProper (is ++ js) := by
  induction is with
  | nil => exact h'
  | cons i is ih => exact ⟨h.1, ih h.2⟩

mutual
/-- The selectors of a rule are those of some text. -/
theorem exists_of_mem_rules : ∀ (i : Item), ∀ r ∈ i.part.rules, ∃ cs, r = splitSelectors cs
  | .blank _ | .comment _ | .statement _ | .atRule _ _ => fun r hr => by cases hr
  | .rule selectors _ => fun r hr => ⟨_, List.mem_singleton.mp hr⟩
  | .group _ items tail => fun r hr => by
    rw [Item.part, Part.rules, rulesOf_append, rulesOf_tailParts, List.append_nil] at hr
    exact exists_of_mem_rulesOf items r hr

theorem exists_of_mem_rulesOf : ∀ (is : List Item), ∀ r ∈ rulesOf (partsOf is),
    ∃ cs, r = splitSelectors cs
  | [] => fun r hr => by cases hr
  | i :: is => fun r hr => by
    rw [partsOf, rulesOf] at hr
    rcases List.mem_append.mp hr with hr | hr
    · exact exists_of_mem_rules i r hr
    · exact exists_of_mem_rulesOf is r hr
end

/-! ## §5. Items with scoped selectors. -/

/-- What is printed for items with their selectors scoped, told apart into items again. -/
structure Rescoped (scope : List Char) (is is' : List Item) : Prop where
  proper : AllProper is'
  clean : Clean (rows is')
  text : textOf (rows is') = spellAll (scopedHead scope) is
  rules : rulesOf (partsOf is') = (rulesOf (partsOf is)).map (confineSelectors scope)
  braces : ∀ r ∈ rulesOf (partsOf is'), ∀ s ∈ r, PairsBraces s
  blocks : ∀ n, openBlocks n (rows is') = openBlocks n (rows is)

theorem Rescoped.nil (scope : List Char) : Rescoped scope [] [] :=
  ⟨trivial, Clean.nil, rfl, rfl, by simp [partsOf, rulesOf], fun _ => rfl⟩

theorem Rescoped.append {scope : List Char} {is is' js js' : List Item} (h : Rescoped scope is is')
    (h' : Rescoped scope js js') : Rescoped scope (is ++ js) (is' ++ js') where
  proper := h.proper.append h'.proper
  clean := by
    rw [rows_append]
    exact h.clean.append h'.clean fun hlast => absurd hlast (getLast?_rows h.proper)
  text := by rw [rows_append, textOf_append, h.text, h'.text, spellAll_append]
  rules := by
    rw [partsOf_append, rulesOf_append, h.rules, h'.rules, partsOf_append, rulesOf_append,
      List.map_append]
  braces := by
    rw [partsOf_append, rulesOf_append]
    exact List.forall_mem_append.mpr ⟨h.braces, h'.braces⟩
  blocks n := by
    rw [rows_append, rows_append, openBlocks_append, openBlocks_append, h.blocks]
    exact congrArg _ (funext h'.blocks)

/-- An item without selectors stays as it is. -/
theorem rescoped_self {scope : List Char} {i : Item} (h : i.Proper) (hclean : Clean (rows [i]))
    (hspell : i.spell (scopedHead scope) = i.spell textOf) (hrules : i.part.rules = []) :
    Rescoped scope [i] [i] := by
  have hnone : rulesOf (partsOf [i]) = [] := by rw [partsOf, rulesOf, hrules]; rfl
  refine ⟨⟨h, trivial⟩, hclean, ?_, by rw [hnone]; rfl, by simp [hnone], fun _ => rfl⟩
  rw [spellAll, spellAll, hspell, Item.spell_textOf, rows, rows, List.append_nil, List.append_nil]

/-- What is printed for a rule.  Without selectors a blank is all that stands before the brace, and
that is an item of its own. -/
def ruleItems (ts : List (List Char)) (body : List Lexeme) : List Item :=
  if ts = [] then [.blank ' ', .rule [] body] else [.rule (ruleHead ts) body]

theorem rows_ruleItems (ts : List (List Char)) (body : List Lexeme) :
    rows (ruleItems ts body) = ruleHead ts ++ .char '{' :: (body ++ [.char '}']) := by
  unfold ruleItems
  split
  next hnil =>
    rw [hnil]
    simp [rows, Item.row, ruleHead, joinRows, charsOf]
  next => simp [rows, Item.row]

theorem heading_ruleHead {ts : List (List Char)} (hts : ∀ t ∈ ts, Separate t) :
    Heading (ruleHead ts) :=
  have hnone : ∀ c ∈ ([] : List Char), isPlain c = true := by simp
  (heading_between hnone (List.all_eq_true.mp (by decide))).mpr (heading_joinRows hts)

/-- **The head of a scoped rule has its selectors.** -/
theorem splitSelectors_ruleHead {ts : List (List Char)} (hts : ∀ t ∈ ts, Separate t) :
    splitSelectors (trim (textOf (ruleHead ts))) = ts := by
  rw [trim_ruleHead fun t ht => (hts t ht).trimmed]
  exact splitSelectors_joinWith fun t ht => (hts t ht).lone

/-- **A rule is printed as a rule** with the selectors that are left of the scoped ones. -/
theorem allProper_ruleItems {scope : List Char} (hscope : IsScope scope) {ts : List (List Char)}
    (hts : ∀ t ∈ ts, Separate t) (hbegin : ∀ t ∈ ts, ∃ rest, t = scope ++ rest)
    {body : List Lexeme} (hbody : IsBody body) : AllProper (ruleItems ts body) := by
  unfold ruleItems
  split
  next =>
    have hhead : IsHead [] := ⟨⟨.char '{', [], rfl, by simp, by decide⟩, rfl⟩
    exact ⟨show isBlank ' ' = true by decide, ⟨hhead, by decide, hbody⟩, trivial⟩
  next hne =>
    obtain ⟨c, ms, hc, hms, hjoined⟩ := exists_ruleHead hscope hts hbegin hne
    have hsolid := hscope.solid c (List.mem_of_head? hc)
    have hbegins : Begins (ruleHead ts ++ [.char '{']) := by
      refine ⟨.char c, ms ++ (charsOf [' '] ++ [.char '{']), ?_, by simp, ?_⟩
      · rw [ruleHead, hms]
        simp
      · simp [allBlank, Lexeme.text, hsolid]
    have hat : isAtHead (ruleHead ts) = false := by
      rw [isAtHead, trim_ruleHead fun t ht => (hts t ht).trimmed, hjoined, ← hc]
      simpa using hscope.noAt
    exact ⟨⟨⟨hbegins, (heading_ruleHead hts).head⟩, hat, hbody⟩, trivial⟩

theorem rules_ruleItems {ts : List (List Char)} (hts : ∀ t ∈ ts, Separate t) (body : List Lexeme) :
    rulesOf (partsOf (ruleItems ts body)) = [ts] := by
  unfold ruleItems
  split
  next hnil =>
    rw [hnil]
    have hnone : splitSelectors (trim (textOf (ruleHead []))) = [] :=
      splitSelectors_ruleHead (by simp)
    exact congrArg (fun ts => [ts]) hnone
  next => exact congrArg (fun ts => [ts]) (splitSelectors_ruleHead hts)

/-- The scoped selectors of a rule, each of them as it is needed in the rule that is printed. -/
theorem confined_of_heading {scope : List Char} (hscope : IsScope scope) {selectors : List Lexeme}
    (h : Heading selectors)
    (hbraces : ∀ s ∈ splitSelectors (trim (textOf selectors)), PairsBraces s) :
    ∀ t ∈ confineSelectors scope (splitSelectors (trim (textOf selectors))),
      Separate t ∧ (∃ rest, t = scope ++ rest) ∧ PairsBraces t := by
  obtain ⟨cs, ms, ds, rfl, htext, hcs, hds⟩ := exists_trimmed h.clean
  have hms : Heading ms := (heading_between hcs hds).mp h
  have hlexemes : Heading (lexemes (textOf ms)) := by rwa [lexemes_textOf hms.clean]
  rw [← htext] at hbraces ⊢
  intro t ht
  obtain ⟨s, hs, rfl⟩ := List.mem_map.mp ((mem_confineSelectors scope _ t).mp ht)
  have hseparate : Separate s := separate_of_mem hlexemes s hs
  exact ⟨separate_scopeSelector hscope hseparate, ⟨_, scopeSelector_eq hseparate.trimmed⟩,
    pairsBraces_scopeSelector hscope hseparate (hbraces s hs)⟩

theorem rescoped_rule {scope : List Char} (hscope : IsScope scope) {selectors body : List Lexeme}
    (h : (Item.rule selectors body).Proper) (hclean : Clean (rows [.rule selectors body]))
    (hbraces : ∀ s ∈ splitSelectors (trim (textOf selectors)), PairsBraces s) :
    Rescoped scope [.rule selectors body]
      (ruleItems (confineSelectors scope (splitSelectors (trim (textOf selectors)))) body) := by
  obtain ⟨hhead, -, hbody⟩ := h
  have hrow : rows [.rule selectors body] = selectors ++ .char '{' :: (body ++ [.char '}']) := by
    rw [rows, Item.row, rows, List.append_nil]
  rw [hrow] at hclean
  have hheading : Heading selectors := ⟨hclean.stretch ⟨[], _, rfl⟩, hhead.ends⟩
  have hcleanBody : Clean body :=
    hclean.stretch ⟨selectors ++ [.char '{'], [.char '}'], by simp⟩
  have hts := confined_of_heading hscope hheading hbraces
  generalize hlist : confineSelectors scope (splitSelectors (trim (textOf selectors))) = ts at hts ⊢
  have hseparate : ∀ t ∈ ts, Separate t := fun t ht => (hts t ht).1
  have hnew : Heading (ruleHead ts) := heading_ruleHead hseparate
  have hrules := rules_ruleItems hseparate body
  refine ⟨allProper_ruleItems hscope hseparate (fun t ht => (hts t ht).2.1) hbody, ?_, ?_, ?_, ?_,
    fun n => ?_⟩
  · rw [rows_ruleItems]
    exact hnew.clean.insert (.inr (.inl rfl)) (hcleanBody.insert (.inr (.inr (.inl rfl))) Clean.nil)
  · rw [rows_ruleItems, ruleHead, textOf_append, textOf_append, textOf_joinRows, spellAll, spellAll,
      Item.spell, scopedHead, hlist]
    simp [textOf, charsOf, Lexeme.text]
  · rw [hrules, ← hlist]
    rfl
  · rw [hrules]
    exact List.forall_mem_singleton.mpr fun t ht => (hts t ht).2.2
  · have hpass := passesBlocks_head hheading hbraces
    have hpassNew := passesBlocks_head hnew (by
      rw [splitSelectors_ruleHead hseparate]
      exact fun t ht => (hts t ht).2.2)
    rw [hrow, rows_ruleItems, hpass.openBlocks_append, hpassNew.openBlocks_append]

theorem rescoped_group {scope : List Char} {head tail : List Lexeme} {items items' : List Item}
    (h : (Item.group head items tail).Proper) (hclean : Clean (rows [.group head items tail]))
    (hitems : Rescoped scope items items') :
    Rescoped scope [.group head items tail] [.group head items' tail] := by
  obtain ⟨hhead, hat, hholds, -, htail, hbody⟩ := h
  have hrow : ∀ is, rows [.group head is tail]
      = head ++ .char '{' :: (rows is ++ tail ++ [.char '}']) := by
    intro is
    rw [rows, Item.row, rows, List.append_nil]
  rw [hrow] at hclean
  have hcleanHead : Clean head := hclean.stretch ⟨[], _, rfl⟩
  have hcleanTail : Clean tail :=
    hclean.stretch ⟨head ++ .char '{' :: rows items, [.char '}'], by simp⟩
  have hrules : ∀ is, rulesOf (partsOf [.group head is tail]) = rulesOf (partsOf is) := by
    intro is
    rw [partsOf, partsOf, rulesOf, rulesOf, Item.part, Part.rules, rulesOf_append,
      rulesOf_tailParts, List.append_nil, List.append_nil]
  have hblocks : ∀ n rest,
      openBlocks n (rows items' ++ rest) = openBlocks n (rows items ++ rest) := by
    intro n rest
    rw [openBlocks_append, openBlocks_append, hitems.blocks]
  refine ⟨⟨⟨hhead, hat, hholds, hitems.proper, htail, ?_⟩, trivial⟩, ?_, ?_, ?_, ?_, fun n => ?_⟩
  · rw [IsBody, hblocks]
    exact hbody
  · rw [hrow]
    have hinner : Clean (rows items' ++ tail) :=
      hitems.clean.append hcleanTail fun hlast => absurd hlast (getLast?_rows hitems.proper)
    exact hcleanHead.insert (.inr (.inl rfl)) (hinner.insert (.inr (.inr (.inl rfl))) Clean.nil)
  · rw [hrow, spellAll, spellAll, Item.spell, ← hitems.text]
    simp [textOf, Lexeme.text]
  · rw [hrules, hrules, hitems.rules]
  · rw [hrules]
    exact hitems.braces
  · rw [hrow, hrow, openBlocks_append, openBlocks_append]
    refine congrArg _ (funext fun m => ?_)
    rw [List.append_assoc, List.append_assoc]
    show openBlocks (m + 1) _ = openBlocks (m + 1) _
    rw [hblocks]

mutual
theorem exists_rescoped_item {scope : List Char} (hscope : IsScope scope) : ∀ i : Item, i.Proper →
    Clean (rows [i]) → (∀ r ∈ i.part.rules, ∀ s ∈ r, PairsBraces s) →
    ∃ is', Rescoped scope [i] is'
  | .blank _, h, hclean, _ => ⟨_, rescoped_self h hclean rfl rfl⟩
  | .comment _, h, hclean, _ => ⟨_, rescoped_self h hclean rfl rfl⟩
  | .statement _, h, hclean, _ => ⟨_, rescoped_self h hclean rfl rfl⟩
  | .atRule _ _, h, hclean, _ => ⟨_, rescoped_self h hclean rfl rfl⟩
  | .rule _ _, h, hclean, hbraces =>
    ⟨_, rescoped_rule hscope h hclean (hbraces _ (List.mem_singleton_self _))⟩
  | .group head items tail, h, hclean, hbraces => by
    have hrow : rows [.group head items tail]
        = head ++ .char '{' :: (rows items ++ tail ++ [.char '}']) := by
      rw [rows, Item.row, rows, List.append_nil]
    have hcleanItems : Clean (rows items) :=
      hclean.stretch ⟨head ++ [.char '{'], tail ++ [.char '}'], by rw [hrow]; simp⟩
    obtain ⟨items', hitems⟩ := exists_rescoped_items hscope items h.2.2.2.1 hcleanItems
      fun r hr => hbraces r (by
        rw [Item.part, Part.rules, rulesOf_append]
        exact List.mem_append_left _ hr)
    exact ⟨_, rescoped_group h hclean hitems⟩

/-- **Items with their selectors scoped are items again**, if the braces of the selectors are
closed. -/
theorem exists_rescoped_items {scope : List Char} (hscope : IsScope scope) : ∀ is : List Item,
    AllProper is → Clean (rows is) → (∀ r ∈ rulesOf (partsOf is), ∀ s ∈ r, PairsBraces s) →
    ∃ is', Rescoped scope is is'
  | [], _, _, _ => ⟨[], .nil scope⟩
  | i :: is, h, hclean, hbraces => by
    rw [partsOf, rulesOf] at hbraces
    obtain ⟨hi, his⟩ := List.forall_mem_append.mp hbraces
    have hcleanItem : Clean (rows [i]) :=
      hclean.stretch ⟨[], rows is, by rw [rows, rows, rows, List.append_nil]; rfl⟩
    have hcleanItems : Clean (rows is) := hclean.stretch ⟨i.row, [], by rw [rows]; simp⟩
    obtain ⟨first, hfirst⟩ := exists_rescoped_item hscope i h.1 hcleanItem hi
    obtain ⟨others, hothers⟩ := exists_rescoped_items hscope is h.2 hcleanItems his
    exact ⟨first ++ others, hfirst.append hothers⟩
end

/-! ## §6. A stylesheet that is scoped twice. -/

theorem exists_itemized_rules {css : String} {rs : List (List (List Char))}
    (h : rulesIn css = .ok rs) :
    ∃ is tail, Itemized css.toList is tail ∧ rs = rulesOf (partsOf is) := by
  obtain ⟨ps, hps, hread⟩ := (bind_eq_ok_iff _ _ _).mp h
  obtain ⟨is, tail, his⟩ := exists_itemized ((parts_ok_iff _).mp ⟨ps, hps⟩)
  refine ⟨is, tail, his, ?_⟩
  rw [his.parts_eq] at hps
  cases hps
  cases hread
  rw [rulesOf_append, rulesOf_tailParts, List.append_nil]

theorem trimmed_of_rulesIn {css : String} {rs : List (List (List Char))}
    (h : rulesIn css = .ok rs) : ∀ r ∈ rs, ∀ s ∈ r, Trimmed s := by
  obtain ⟨is, tail, -, rfl⟩ := exists_itemized_rules h
  intro r hr s hs
  obtain ⟨cs, rfl⟩ := exists_of_mem_rulesOf is r hr
  obtain ⟨hne, ms, -, rfl⟩ := exists_piece hs
  exact trimmed_trim hne

/-- **A scoped stylesheet has the selectors that scoping gave its rules.** -/
theorem exists_rescoped {scope css : String} (hscope : IsScope scope.toList)
    {rs : List (List (List Char))} (hrules : rulesIn css = .ok rs)
    (hbraces : ∀ r ∈ rs, ∀ s ∈ r, PairsBraces s) :
    ∃ out, confined scope css = .ok out
      ∧ rulesIn out = .ok (rs.map (confineSelectors scope.toList))
      ∧ ∀ r ∈ rs.map (confineSelectors scope.toList), ∀ s ∈ r, PairsBraces s := by
  obtain ⟨is, tail, his, rfl⟩ := exists_itemized_rules hrules
  obtain ⟨is', his'⟩ := exists_rescoped_items hscope is his.proper his.clean hbraces
  refine ⟨_, his.confined_eq scope, ?_, his'.rules ▸ his'.braces⟩
  have hout := (his.change his'.proper his'.clean).parts_eq
  rw [his'.text] at hout
  rw [rulesIn, String.toList_ofList, hout]
  show Except.ok (rulesOf (partsOf is' ++ tailParts tail)) = _
  rw [rulesOf_append, rulesOf_tailParts, List.append_nil, his'.rules]

/-- **When scoping twice is scoping once.**  A second pass leaves a scoped selector as it is unless
the selector selected the page and went on right behind its names.  Where the braces of all
selectors are closed, a scoped stylesheet can be scoped again, and its rules keep their selectors
unless one of the selectors of the stylesheet goes on so. -/
theorem rescoping_iff (slug : String) (hslug : slug.toList.all Name.isSlugChar = true) :
    (∀ s, scopeSelector (Preview.sectionScope slug).toList
          (scopeSelector (Preview.sectionScope slug).toList s)
        = scopeSelector (Preview.sectionScope slug).toList s ↔ goesOn (trim s) = false)
      ∧ ∀ css rs, rulesIn css = .ok rs → (∀ r ∈ rs, ∀ s ∈ r, PairsBraces s) →
          ∃ out again, confined (Preview.sectionScope slug) css = .ok out
            ∧ confined (Preview.sectionScope slug) out = .ok again
            ∧ (rulesIn again = rulesIn out ↔ ∀ r ∈ rs, ∀ s ∈ r, goesOn s = false) := by
  have hscope := isOwnScope_sectionScope hslug
  have htwice := scopeSelector_twice_iff hscope
  refine ⟨htwice, fun css rs hrules hbraces => ?_⟩
  obtain ⟨out, hout, houtRules, houtBraces⟩ := exists_rescoped hscope.toIsScope hrules hbraces
  obtain ⟨again, hagain, hagainRules, -⟩ := exists_rescoped hscope.toIsScope houtRules houtBraces
  refine ⟨out, again, hout, hagain, ?_⟩
  have hlists : rulesIn again = rulesIn out
      ↔ ∀ r ∈ rs, confineSelectors (Preview.sectionScope slug).toList
            (confineSelectors (Preview.sectionScope slug).toList r)
          = confineSelectors (Preview.sectionScope slug).toList r := by
    rw [hagainRules, houtRules, Except.ok.injEq, List.map_map]
    exact List.map_inj_left
  rw [hlists]
  refine forall₂_congr fun r hr => (confineSelectors_twice_iff _ r).trans
    (forall₂_congr fun s hs => ?_)
  rw [htwice s, (trimmed_of_rulesIn hrules r hr s hs).trim_eq]

/-- A child of the page, and the page itself: both stay as they are in a second pass. -/
theorem child_rescoped :
    scopeSelector (Preview.sectionScope "main").toList
        (scopeSelector (Preview.sectionScope "main").toList "body > .x".toList)
      = scopeSelector (Preview.sectionScope "main").toList "body > .x".toList
    ∧ ∃ out again,
        confined (Preview.sectionScope "main") "@media print\x7bbody > .x, html\x7b\x7d\x7d"
          = .ok out
        ∧ confined (Preview.sectionScope "main") out = .ok again ∧ rulesIn again = rulesIn out := by
  obtain ⟨hselector, hsheet⟩ := rescoping_iff "main" (by decide)
  refine ⟨(hselector _).mpr (by decide +kernel), ?_⟩
  have hrules : rulesIn "@media print\x7bbody > .x, html\x7b\x7d\x7d"
      = .ok [["body > .x".toList, "html".toList]] := by decide +kernel
  have hbraces : ∀ r ∈ [["body > .x".toList, "html".toList]], ∀ s ∈ r, PairsBraces s := by
    unfold PairsBraces
    decide +kernel
  obtain ⟨out, again, hout, hagain, hiff⟩ := hsheet _ _ hrules hbraces
  exact ⟨out, again, hout, hagain, hiff.mpr (by decide +kernel)⟩

/-- A class of the page becomes one of the scope, and a second pass does not know the scope in it:
it puts the selector inside the scope. -/
theorem class_not_rescoped :
    scopeSelector (Preview.sectionScope "main").toList
        (scopeSelector (Preview.sectionScope "main").toList "body.dark".toList)
      ≠ scopeSelector (Preview.sectionScope "main").toList "body.dark".toList
    ∧ confined (Preview.sectionScope "main") "body.dark \x7b\x7d"
      = .ok "#fp-window-main.dark \x7b\x7d"
    ∧ confined (Preview.sectionScope "main") "#fp-window-main.dark \x7b\x7d"
      = .ok "#fp-window-main #fp-window-main.dark \x7b\x7d" := by
  decide +kernel

end ControlSurface.Stylesheet
