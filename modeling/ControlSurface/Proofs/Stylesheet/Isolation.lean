/-
  ControlSurface.Proofs.Stylesheet.Isolation
  ──────────────────────────────────────────
  Isolation of windows by their scope.  Scoping a well-formed sheet gives a well-formed sheet with
  the same rules, in which every selector that `parts` reaches is scoped (`exists_scoping`).  So
  the scoped sheet is confined to the scope exactly if no selector that is reached leaves it by
  what follows the scope, and every other selector was confined already (`isolates_iff`).
-/
import ControlSurface.Preview.Document
import ControlSurface.Proofs.Name.Slugs
import ControlSurface.Proofs.Stylesheet.Reach
import ControlSurface.Proofs.Stylesheet.Splitting

namespace ControlSurface.Stylesheet

open ControlSurface.Text

/-! ## §1. Confined selectors. -/

/-- Whether a sibling combinator comes first, after white space and comments. -/
def goesSideways : List Lexeme → Bool
  | .comment _ :: ls => goesSideways ls
  | .char c :: ls => if isBlank c then goesSideways ls else c = '+' || c = '~'
  | _ => false

/-- Whether what follows the scope goes on with its name or leads to a sibling of it. -/
def leaves (rest : List Char) : Bool :=
  rest.head?.any isNameChar || goesSideways (lexemes rest)

/-- Whether a selector begins with the scope and stays in it. -/
def isConfined (scope selector : List Char) : Bool :=
  match after? scope selector with
  | some rest => !leaves rest
  | none => false

/-- A stylesheet all of whose selectors stay in the scope. -/
def Isolated (scope css : String) : Prop :=
  ∀ t ∈ selectorsOf (lexemes css.toList), isConfined scope.toList t = true

/-- A stylesheet with closed strings and comments, and balanced brackets and braces. -/
structure WellFormed (css : String) : Prop where
  closed : ∀ l ∈ lexemes css.toList, l.isWhole = true
  balanced : Balanced (lexemes css.toList)

/-! ## §2. Blocks of the scoped sheet. -/

/-- A character on its own is put between clean rows. -/
theorem Clean.insert {c : Char} (hc : isPlain c = true ∨ c = '{' ∨ c = '}' ∨ c = ';')
    {head rest : List Lexeme} (hhead : Clean head) (hrest : Clean rest) :
    Clean (head ++ .char c :: rest) := by
  have hne : c ≠ '/' ∧ c ≠ '*' ∧ c ≠ '"' ∧ c ≠ '\'' := by
    rcases hc with hc | rfl | rfl | rfl
    · exact ⟨ne_of_plain hc (by decide), ne_of_plain hc (by decide), ne_of_plain hc (by decide),
        ne_of_plain hc (by decide)⟩
    all_goals decide
  have hwhole : (Lexeme.char c).isWhole = true := by simp [Lexeme.isWhole, hne.2.2.1, hne.2.2.2]
  refine hhead.append ((Clean.singleton hwhole).append hrest fun hlast => ?_) fun _ hfirst => ?_
  · exact absurd (Lexeme.char.inj (Option.some.inj hlast)) hne.1
  · exact absurd (Lexeme.char.inj (Option.some.inj hfirst)) hne.2.1

/-- A row with a block. -/
def withBlock (head body rest : List Lexeme) : List Lexeme :=
  head ++ .char '{' :: (body ++ .char '}' :: rest)

theorem clean_withBlock {head body rest : List Lexeme} (hhead : Clean head) (hbody : Clean body)
    (hrest : Clean rest) : Clean (withBlock head body rest) :=
  hhead.insert (.inr (.inl rfl)) (hbody.insert (.inr (.inr (.inl rfl))) hrest)

/-- What is due around a row does not change what it does. -/
theorem nest_around {ls : List Lexeme} {due due' : List Char} (h : nest due ls = some due')
    (around : List Char) : nest (due ++ around) ls = some (due' ++ around) := by
  induction ls generalizing due with
  | nil =>
    cases h
    rfl
  | cons l ls ih =>
    cases l with
    | char c =>
      obtain ⟨due₁, hdue₁, hrest⟩ := Option.bind_eq_some_iff.mp h
      rw [nest]
      have hstep : nestChar (due ++ around) c = some (due₁ ++ around) := by
        rcases nestChar_cases hdue₁ with ⟨e, he, rfl⟩ | ⟨hopens, hcloses, rfl⟩ | ⟨hopens, hcloses, rfl⟩
        · exact nestChar_open he _
        · exact nestChar_close hopens hcloses _
        · exact nestChar_other hopens hcloses _
      rw [hstep]
      exact ih hrest
    | quoted t => exact ih h
    | comment t => exact ih h

theorem balanced_withBlock {head body rest : List Lexeme} (hhead : Balanced head)
    (hbody : Balanced body) (hrest : Balanced rest) : Balanced (withBlock head body rest) := by
  have hinner : nest ['}'] body = some ['}'] := nest_around hbody ['}']
  rw [Balanced, withBlock, nest_append, hhead, Option.bind_some, nest, nestChar_open rfl,
    Option.bind_some, nest_append, hinner, Option.bind_some, nest, nestChar_close rfl rfl,
    Option.bind_some]
  exact hrest

/-- A row still begins with a part after a change of what follows its head. -/
theorem Begins.change {head rest : List Lexeme} {c : Char} (h : Begins (head ++ .char c :: rest))
    (rest' : List Lexeme) : Begins (head ++ .char c :: rest') := by
  -- the first lexeme is one of the head or the character after it
  obtain ⟨l, tail, heq, hl⟩ := h
  cases head with
  | nil =>
    cases heq
    exact ⟨_, _, rfl, hl⟩
  | cons m head =>
    cases heq
    exact ⟨_, _, rfl, hl⟩

/-- The selectors of a row with a block are those of the block and those after it. -/
theorem found_withBlock {head body rest : List Lexeme} (hbegins : Begins (withBlock head body rest))
    (hhead : scan endsHead 0 head = some 0) (hbody : Balanced body) :
    found true (withBlock head body rest) = foundInBlock true head body ++ found true rest :=
  found_block true hbegins (cut_of_scan hhead stops_brace _) (block_of_balanced hbody _)

/-! ## §3. Scoped rules. -/

/-- The text that scoping makes of a selector: what is not reached stays as it is. -/
def Found.scoped (scope : List Char) (f : Found) : List Char :=
  if f.reached then scopeSelector scope f.text else f.text

/-- Selectors that were not reached stay as they are. -/
theorem scoped_within_false (scope : List Char) (fs : List Found) :
    (fs.map (Found.within false)).map (Found.scoped scope) = fs.map Found.text := by
  rw [List.map_map]
  exact List.map_congr_left fun f _ => rfl

/-- A scoped rule that has selectors begins as its first selector does, with the scope. -/
theorem exists_ruleHead {scope : List Char} (hscope : IsScope scope) {ts : List (List Char)}
    (hts : ∀ t ∈ ts, Separate t) (hbegin : ∀ t ∈ ts, ∃ rest, t = scope ++ rest) (hne : ts ≠ []) :
    ∃ c ms, scope.head? = some c ∧ joinRows ts = .char c :: ms
      ∧ (joinWith selectorSeparator ts).head? = some c := by
  obtain ⟨c, cs, hcons⟩ := List.exists_cons_of_ne_nil hscope.ne_nil
  obtain ⟨more, hmore⟩ : ∃ more, joinWith selectorSeparator ts = scope ++ more := by
    cases ts with
    | nil => exact absurd rfl hne
    | cons t us =>
      obtain ⟨rest, rfl⟩ := hbegin t (List.mem_cons_self ..)
      cases us with
      | nil => exact ⟨rest, by simp [joinWith]⟩
      | cons u us =>
        refine ⟨rest ++ (selectorSeparator ++ joinWith selectorSeparator (u :: us)), ?_⟩
        rw [joinWith_cons_cons, List.append_assoc]
  obtain ⟨ms, hms, _⟩ := exists_plain_prefix (heading_joinRows hts).clean hscope.plain
    ((textOf_joinRows ts).trans hmore)
  subst hcons
  exact ⟨c, charsOf cs ++ ms, rfl, hms, by rw [hmore]; rfl⟩

/-- The head of a scoped rule. -/
def ruleHead (ts : List (List Char)) : List Lexeme := joinRows ts ++ charsOf [' ']

/-- The prelude of a scoped rule is the list of its selectors. -/
theorem trim_ruleHead {ts : List (List Char)} (hts : ∀ t ∈ ts, Trimmed t) :
    trim (textOf (ruleHead ts)) = joinWith selectorSeparator ts := by
  rw [ruleHead, textOf_append, textOf_joinRows, textOf_charsOf]
  by_cases hne : ts = []
  · rw [hne]
    rfl
  · exact (trimmed_joinWith hts hne).trim_append_blank

theorem upright_ruleHead {ts : List (List Char)} (hts : ∀ t ∈ ts, StandsAlone t) :
    Upright (ruleHead ts) :=
  have hnone : ∀ c ∈ ([] : List Char), isPlain c = true := by simp
  (upright_between hnone (List.all_eq_true.mp (by decide))).mpr (upright_joinRows hts)

/-- **The selectors of a scoped rule are read back.** -/
theorem selectorsOf_ruleHead {scope : List Char} (hscope : IsScope scope) {ts : List (List Char)}
    (hts : ∀ t ∈ ts, StandsAlone t) (hbegin : ∀ t ∈ ts, ∃ rest, t = scope ++ rest)
    {body : List Lexeme} (hbody : Balanced body) (rest : List Lexeme) :
    selectorsOf (withBlock (ruleHead ts) body rest) = ts ++ selectorsOf rest := by
  by_cases hne : ts = []
  · -- a rule without selectors begins with its brace
    subst hne
    have hbegins : Begins (withBlock [] body rest) :=
      ⟨_, _, rfl, fun t ht => (by cases ht), by decide⟩
    have hrow : withBlock (ruleHead []) body rest = .char ' ' :: withBlock [] body rest := rfl
    rw [hrow, selectorsOf, found_blank true (by decide), found_withBlock hbegins rfl hbody]
    have hnone : foundInBlock true [] body = [] := by
      unfold foundInBlock
      rw [if_pos (by decide)]
      have hsplit : splitSelectors (joinWith selectorSeparator []) = [] :=
        splitSelectors_joinWith (by simp)
      exact congrArg (List.map _) hsplit
    rw [hnone]
    rfl
  · obtain ⟨c, ms, hc, hms, hhead⟩ :=
      exists_ruleHead hscope (fun t ht => (hts t ht).separate) hbegin hne
    have hbegins : Begins (withBlock (ruleHead ts) body rest) := by
      refine ⟨.char c, ms ++ (charsOf [' '] ++ .char '{' :: (body ++ .char '}' :: rest)), ?_,
        fun t ht => (by cases ht), ?_⟩
      · rw [withBlock, ruleHead, hms]
        simp
      · have hsolid := hscope.solid c (List.mem_of_head? hc)
        simp [allBlank, Lexeme.text, hsolid]
    -- the prelude is the list of selectors, and does not begin as an at-rule
    have hprelude : trim (textOf (ruleHead ts)) = joinWith selectorSeparator ts :=
      trim_ruleHead fun t ht => (hts t ht).trimmed
    have hat : (joinWith selectorSeparator ts).head? ≠ some '@' := by
      rw [hhead, ← hc]
      exact hscope.noAt
    have hinside : foundInBlock true (ruleHead ts) body = ts.map (Found.mk true) := by
      unfold foundInBlock
      rw [hprelude, if_pos hat, splitSelectors_joinWith fun t ht => (hts t ht).separate.lone]
    rw [selectorsOf, found_withBlock hbegins (upright_ruleHead hts).head hbody, hinside,
      List.map_append, List.map_map]
    exact congrArg (· ++ selectorsOf rest) (List.map_id ts)

/-- The selectors of a rule, scoped, each once. -/
theorem mem_confineSelectors (scope : List Char) (selectors : List (List Char)) (t : List Char) :
    t ∈ confineSelectors scope selectors ↔ t ∈ selectors.map (scopeSelector scope) :=
  List.mem_eraseDups

/-! ## §4. The scoped sheet. -/

/-- What scoping makes of a row: a well-formed row with the same selectors, those that are reached
scoped. -/
structure Scoping (scope : List Char) (ls out : List Lexeme) : Prop where
  clean : Clean out
  balanced : Balanced out
  selectors : ∀ t, t ∈ selectorsOf out ↔ t ∈ (found true ls).map (Found.scoped scope)

/-- A head, a block and a rest that are well-formed make a well-formed row. -/
theorem Scoping.withBlock {scope : List Char} {ls head body rest : List Lexeme}
    (hhead : Upright head) (hclean : Clean body) (hbalanced : Balanced body)
    (hcleanRest : Clean rest) (hbalancedRest : Balanced rest)
    (hselectors : ∀ t, t ∈ selectorsOf (Stylesheet.withBlock head body rest)
      ↔ t ∈ (found true ls).map (Found.scoped scope)) :
    Scoping scope ls (Stylesheet.withBlock head body rest) :=
  ⟨clean_withBlock hhead.clean hclean hcleanRest,
    balanced_withBlock hhead.balanced hbalanced hbalancedRest, hselectors⟩

/-- The part of a block, and the row that it becomes before what follows it. -/
theorem exists_blockScoping {scope : List Char} (hscope : IsScope scope)
    {head body rest rest' : List Lexeme} (hbegins : Begins (withBlock head body rest))
    (hhead : Upright head) (hclean : Clean body) (hbalanced : Balanced body) (hbody : Sheet body)
    (ihbody : ∃ ps out, parts body = .ok ps ∧ textOf out = printAll (confineAll scope ps)
      ∧ Scoping scope body out)
    (hrest : Scoping scope rest rest') :
    ∃ part out, blockPart head body = .ok part
      ∧ textOf out = print (confine scope part) ++ textOf rest'
      ∧ Scoping scope (withBlock head body rest) out := by
  have hfound := found_withBlock hbegins hhead.head hbalanced
  by_cases hat : (trim (textOf head)).head? ≠ some '@'
  · -- a style rule: its selectors stand alone, so they do after scoping
    obtain ⟨ds, ms, es, hrow, htext, hds, hes⟩ := exists_trimmed hhead.clean
    have hms : Upright ms := (upright_between hds hes).mp (hrow ▸ hhead)
    have hup : Upright (lexemes (trim (textOf head))) := by
      rw [← htext, lexemes_textOf hms.clean]
      exact hms
    have hstand := standsAlone_of_mem hup
    have hts : ∀ t ∈ confineSelectors scope (splitSelectors (trim (textOf head))),
        StandsAlone t ∧ ∃ rest, t = scope ++ rest := by
      intro t ht
      obtain ⟨s, hs, rfl⟩ := List.mem_map.mp ((mem_confineSelectors scope _ t).mp ht)
      exact ⟨standsAlone_scopeSelector hscope (hstand s hs), _, scopeSelector_eq (hstand s hs).trimmed⟩
    refine ⟨_, withBlock (ruleHead (confineSelectors scope (splitSelectors (trim (textOf head)))))
      body rest', if_pos hat, ?_, ?_⟩
    · rw [confine, print, withBlock, ruleHead, textOf_append, textOf_append, textOf_joinRows]
      simp [textOf, Lexeme.text, charsOf]
    · refine .withBlock (upright_ruleHead fun t ht => (hts t ht).1) hclean hbalanced hrest.clean
        hrest.balanced fun t => ?_
      have hinside : foundInBlock true head body
          = (splitSelectors (trim (textOf head))).map (Found.mk true) := if_pos hat
      rw [selectorsOf_ruleHead hscope (fun t ht => (hts t ht).1) (fun t ht => (hts t ht).2) hbalanced,
        hfound, hinside, List.map_append, List.map_map, List.mem_append, List.mem_append,
        mem_confineSelectors, hrest.selectors]
      rfl
  · by_cases hholds : holdsRules (trim (textOf head)) = true
    · -- a group, whose body is scoped
      obtain ⟨ps, inner, hps, hinner, hscoping⟩ := ihbody
      refine ⟨.group (textOf head) ps, withBlock head inner rest', ?_, ?_, ?_⟩
      · unfold blockPart
        rw [if_neg hat, if_pos hholds, hps]
        rfl
      · rw [confine, print, ← hinner, withBlock, textOf_append]
        simp [textOf, Lexeme.text]
      · refine .withBlock hhead hscoping.clean hscoping.balanced hrest.clean hrest.balanced
          fun t => ?_
        rw [selectorsOf, found_withBlock (hbegins.change _) hhead.head hscoping.balanced, hfound,
          List.map_append, List.map_append, List.mem_append, List.mem_append, ← hrest.selectors]
        refine or_congr ?_ Iff.rfl
        -- a reader takes the group for one or passes over it, before and after
        unfold foundInBlock
        rw [if_neg hat, if_neg hat, hholds]
        split
        next => exact hscoping.selectors t
        next => simp
    · -- a block that is copied
      refine ⟨.copied (textOf head ++ '{' :: textOf body ++ ['}']), withBlock head body rest', ?_,
        ?_, ?_⟩
      · unfold blockPart
        rw [if_neg hat, if_neg hholds]
      · rw [confine, print, withBlock, textOf_append]
        simp [textOf, Lexeme.text]
      · refine .withBlock hhead hclean hbalanced hrest.clean hrest.balanced fun t => ?_
        rw [selectorsOf, found_withBlock (hbegins.change _) hhead.head hbalanced, hfound,
          List.map_append, List.map_append, List.mem_append, List.mem_append, ← hrest.selectors]
        refine or_congr ?_ Iff.rfl
        unfold foundInBlock
        rw [if_neg hat, Bool.eq_false_iff.mpr hholds]
        split
        next =>
          -- a group that `parts` does not take for one: no selector in it is reached
          rw [Bool.and_false, found_within hbody false, scoped_within_false, List.map_map]
          rfl
        next => simp

theorem textOf_cons (l : Lexeme) (ls : List Lexeme) : textOf (l :: ls) = l.text ++ textOf ls := rfl

/-- **Scoping a sheet** gives a well-formed row with the same selectors, those that are reached
scoped. -/
theorem exists_scoping {scope : List Char} (hscope : IsScope scope) {ls : List Lexeme}
    (h : Sheet ls) :
    ∃ ps out, parts ls = .ok ps ∧ textOf out = printAll (confineAll scope ps)
      ∧ Scoping scope ls out := by
  induction h with
  | nil => exact ⟨[], [], by rw [parts], rfl, Clean.nil, rfl, by simp [selectorsOf, found_nil]⟩
  | @comment t rest hwhole _ ih =>
    obtain ⟨ps, out, hps, htext, hscoping⟩ := ih
    refine ⟨.copied t :: ps, .comment t :: out, ?_, ?_, ?_, hscoping.balanced, ?_⟩
    · rw [parts, hps]
      rfl
    · rw [textOf_cons, htext]
      rfl
    · exact (Clean.singleton hwhole).append hscoping.clean fun hlast => by cases hlast
    · rw [selectorsOf, found_comment, found_comment]
      exact hscoping.selectors
  | @blank c rest hblank _ ih =>
    obtain ⟨ps, out, hps, htext, hscoping⟩ := ih
    refine ⟨.copied [c] :: ps, .char c :: out, ?_, ?_, ?_, ?_, ?_⟩
    · rw [parts_blank hblank, hps]
      rfl
    · rw [textOf_cons, htext]
      rfl
    · exact Clean.nil.insert (.inl (plain_of_blank hblank)) hscoping.clean
    · rw [Balanced, nest, nestChar_plain (plain_of_blank hblank)]
      exact hscoping.balanced
    · rw [selectorsOf, found_blank true hblank, found_blank true hblank]
      exact hscoping.selectors
  | @text ls hbegins hclean hbalanced hcut =>
    refine ⟨[.copied (textOf ls)], ls, parts_text hbegins hcut, ?_, hclean, hbalanced, ?_⟩
    · exact (List.append_nil _).symm
    · rw [selectorsOf, found_text true hbegins hcut]
      exact fun t => Iff.rfl
  | @statement head rest hbegins hhead _ ih =>
    obtain ⟨ps, out, hps, htext, hscoping⟩ := ih
    have hcut := cut_of_scan hhead.head stops_semicolon
    refine ⟨.copied (textOf head ++ [';']) :: ps, head ++ .char ';' :: out, ?_, ?_, ?_, ?_, ?_⟩
    · rw [parts_statement hbegins (hcut rest), hps]
      rfl
    · rw [textOf_append, textOf_cons, htext, ← List.append_assoc]
      rfl
    · exact hhead.clean.insert (.inr (.inr (.inr rfl))) hscoping.clean
    · exact hhead.balanced.append hscoping.balanced
    · rw [selectorsOf, found_statement true (hbegins.change out) (hcut out),
        found_statement true hbegins (hcut rest)]
      exact hscoping.selectors
  | @block head body rest hbegins hhead hclean hbalanced hbody _ ihbody ihrest =>
    obtain ⟨ps, rest', hps, htext, hscoping⟩ := ihrest
    obtain ⟨part, out, hpart, hprint, hout⟩ :=
      exists_blockScoping hscope hbegins hhead hclean hbalanced hbody ihbody hscoping
    refine ⟨part :: ps, out, ?_, ?_, hout⟩
    · rw [parts_block hbegins (cut_of_scan hhead.head stops_brace _)
        (block_of_balanced hbalanced rest), hpart, hps]
      rfl
    · rw [hprint, htext]
      rfl

/-! ## §5. Isolation. -/

theorem plain_of_slugChar {c : Char} (h : Name.isSlugChar c = true) : isPlain c = true :=
  plain_of_kind (List.all_iff_forall_prop.mp (by decide)) h

/-- The selector of a window's section is a scope. -/
theorem isScope_sectionScope {slug : String} (h : slug.toList.all Name.isSlugChar = true) :
    IsScope (Preview.sectionScope slug).toList := by
  have htext : (Preview.sectionScope slug).toList = "#fp-window-".toList ++ slug.toList := by
    rw [Preview.sectionScope, String.toList_append]
    exact congrArg ('#' :: ·) (String.toList_append ..)
  have hprefix : ∀ c ∈ "#fp-window-".toList, isPlain c = true ∧ isBlank c = false :=
    List.all_iff_forall_prop.mp (by decide)
  have hall : ∀ c ∈ (Preview.sectionScope slug).toList, isPlain c = true ∧ isBlank c = false := by
    intro c hc
    rw [htext] at hc
    rcases List.mem_append.mp hc with hc | hc
    · exact hprefix c hc
    · have hslug := List.all_eq_true.mp h c hc
      exact ⟨plain_of_slugChar hslug, Name.solid_of_slugChar hslug⟩
  refine ⟨?_, fun c hc => (hall c hc).1, fun c hc => (hall c hc).2, ?_⟩
  · rw [htext]
    simp
  · rw [htext]
    simp

/-- A scoped selector is confined unless it leaves the scope. -/
theorem isConfined_scopeSelector {scope selector : List Char} (h : Trimmed selector) :
    isConfined scope (scopeSelector scope selector) = !leaves (remainder scope selector) := by
  rw [isConfined, scopeSelector_eq h, after?_append]

/-- **When a scoped sheet is isolated.**  Scoping a well-formed sheet never fails.  The result is
isolated exactly if no selector that scoping reaches goes on, right after the scope, with the name
of the scope or with a sibling combinator, and every selector that it does not reach was confined
already. -/
theorem isolates_iff (slug css : String) (hslug : slug.toList.all Name.isSlugChar = true)
    (hcss : WellFormed css) :
    ∃ out, confined (Preview.sectionScope slug) css = .ok out
      ∧ (Isolated (Preview.sectionScope slug) out
          ↔ ∀ f ∈ found true (lexemes css.toList),
              if f.reached then leaves (remainder (Preview.sectionScope slug).toList f.text) = false
              else isConfined (Preview.sectionScope slug).toList f.text = true) := by
  have hsheet := sheet_of_clean (clean_lexemes hcss.closed) hcss.balanced
  obtain ⟨ps, out, hps, htext, hscoping⟩ := exists_scoping (isScope_sectionScope hslug) hsheet
  refine ⟨String.ofList (printAll (confineAll (Preview.sectionScope slug).toList ps)), ?_, ?_⟩
  · rw [confined, hps]
    rfl
  · have hread : lexemes (String.ofList (textOf out)).toList = out := by
      rw [String.toList_ofList, lexemes_textOf hscoping.clean]
    rw [Isolated, ← htext, hread]
    -- every selector of the result comes from one of the sheet
    have hall : (∀ t ∈ selectorsOf out, isConfined (Preview.sectionScope slug).toList t = true)
        ↔ ∀ f ∈ found true (lexemes css.toList), isConfined (Preview.sectionScope slug).toList
            (f.scoped (Preview.sectionScope slug).toList) = true :=
      (forall_congr' fun t => imp_congr_left (hscoping.selectors t)).trans List.forall_mem_map
    rw [hall]
    refine forall₂_congr fun f hf => ?_
    cases hreached : f.reached with
    | true =>
      simp [Found.scoped, hreached, isConfined_scopeSelector (trimmed_of_mem_found hsheet true f hf)]
    | false => simp [Found.scoped, hreached]

/-- A sheet that is isolated: a rule of the page and one of an element, in a group. -/
theorem media_isolated :
    WellFormed "@media (width)\x7bhtml body>p,#gain\x7b\x7d\x7d"
      ∧ ∃ out, confined (Preview.sectionScope "main") "@media (width)\x7bhtml body>p,#gain\x7b\x7d\x7d" = .ok out
        ∧ Isolated (Preview.sectionScope "main") out := by
  have hcss : WellFormed "@media (width)\x7bhtml body>p,#gain\x7b\x7d\x7d" :=
    ⟨by decide, show nest [] _ = some [] by decide⟩
  obtain ⟨out, hout, hiff⟩ := isolates_iff "main" _ (by decide) hcss
  exact ⟨hcss, out, hout, hiff.mpr (by decide +kernel)⟩

/-- A group whose keyword touches what follows it is copied with the rules in it. -/
theorem touching_leaks :
    WellFormed "@media(max-width:600px)\x7b#gain\x7bwidth:10px\x7d\x7d"
      ∧ confined (Preview.sectionScope "main") "@media(max-width:600px)\x7b#gain\x7bwidth:10px\x7d\x7d"
          = .ok "@media(max-width:600px)\x7b#gain\x7bwidth:10px\x7d\x7d"
      ∧ ¬ Isolated (Preview.sectionScope "main") "@media(max-width:600px)\x7b#gain\x7bwidth:10px\x7d\x7d" := by
  refine ⟨⟨by decide +kernel, show nest [] _ = some [] by decide +kernel⟩, by decide +kernel, ?_⟩
  intro h
  exact absurd (h "#gain".toList (by decide +kernel)) (by decide +kernel)

end ControlSurface.Stylesheet
