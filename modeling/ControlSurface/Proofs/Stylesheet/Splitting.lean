/-
  ControlSurface.Proofs.Stylesheet.Splitting
  ──────────────────────────────────────────
  Splitting undoes joining.  A selector is sealed if its brackets, strings and comments are closed
  and every comma in it stands in one of them (`Sealed`); only round and square brackets count, and
  a backslash is a mark in strings only, as for the reader.  Sealed selectors that are trimmed can
  be put in a row with any white space around the commas between them (`Listed`), and splitting
  finds them again: what comes after a comma is read as if nothing stood before it.

  Main result: `splitSelectors_of_listed`, for rows of any length.
-/
import ControlSurface.Proofs.Stylesheet.Selecting

namespace ControlSurface.Stylesheet

open ControlSurface.Text

/-! ## §1. Sealed text. -/

/-- A character that is no bracket, no comma and no quote, and with which no comment begins. -/
def isOrdinary (c : Char) : Bool := !(['(', ')', '[', ']', ',', '"', '\'', '/'].contains c)

/-- The rest of a selector in front of which `depth` brackets are open: it closes them and all that
it opens, its strings and comments are closed, and its commas stand in brackets, strings or
comments. -/
inductive Sealed : Nat → List Char → Prop
  | nil : Sealed 0 []
  | ordinary {depth : Nat} {c : Char} {cs : List Char} (hc : isOrdinary c = true)
      (hcs : Sealed depth cs) : Sealed depth (c :: cs)
  | slash {depth : Nat} {cs : List Char} (hstar : cs.head? ≠ some '*') (hcs : Sealed depth cs) :
      Sealed depth ('/' :: cs)
  | opening {depth : Nat} {c : Char} {cs : List Char} (hc : opensBracket c = true)
      (hcs : Sealed (depth + 1) cs) : Sealed depth (c :: cs)
  | closing {depth : Nat} {c : Char} {cs : List Char} (hc : closesBracket c = true)
      (hcs : Sealed depth cs) : Sealed (depth + 1) (c :: cs)
  | comma {depth : Nat} {cs : List Char} (hcs : Sealed (depth + 1) cs) :
      Sealed (depth + 1) (',' :: cs)
  | string {depth : Nat} {quote : Char} (hquote : quote = '"' ∨ quote = '\'') (body : List Char)
      {cs : List Char} (hbody : stringEnds quote false body = true) (hcs : Sealed depth cs) :
      Sealed depth (quote :: (body ++ cs))
  | comment {depth : Nat} (body : List Char) {cs : List Char}
      (hbody : commentEnds false body = true) (hcs : Sealed depth cs) :
      Sealed depth ('/' :: '*' :: (body ++ cs))

/-- A selector as it can stand in a list: sealed, not blank, and without white space at its ends. -/
structure Listable (cs : List Char) : Prop where
  closed : Sealed 0 cs
  trimmed : Trimmed cs

/-- A lexeme can be put before a clean row, if the two open no comment. -/
theorem Clean.cons {l : Lexeme} {ls : List Lexeme} (hl : l.isWhole = true) (h : Clean ls)
    (hmark : l = .char '/' → ls.head? ≠ some (.char '*')) : Clean (l :: ls) :=
  (Clean.singleton hl).append h fun hlast => hmark (Option.some.inj hlast)

/-- What a bracket is not. -/
theorem bracket_ne {c : Char} (h : opensBracket c = true ∨ closesBracket c = true) :
    (Lexeme.char c).isWhole = true ∧ Lexeme.char c ≠ .char '/' := by
  simp only [opensBracket, closesBracket, Bool.or_eq_true, decide_eq_true_eq] at h
  rcases h with (rfl | rfl) | (rfl | rfl) <;> exact ⟨by decide, by decide⟩

theorem not_opens_of_closes {c : Char} (h : closesBracket c = true) : opensBracket c = false := by
  simp only [closesBracket, Bool.or_eq_true, decide_eq_true_eq] at h
  rcases h with rfl | rfl <;> decide

/-- **Sealed text is read as a clean row that no comma parts.** -/
theorem Sealed.exists_row {depth : Nat} {cs : List Char} (h : Sealed depth cs) :
    ∃ ls, Clean ls ∧ textOf ls = cs ∧ scan (· = ',') depth ls = some 0 := by
  -- each step of the text is one lexeme in front of the row of the rest
  induction h with
  | nil => exact ⟨[], Clean.nil, rfl, rfl⟩
  | @ordinary depth c cs hc _ ih =>
    obtain ⟨ls, hclean, htext, hscan⟩ := ih
    simp only [isOrdinary, Bool.not_eq_true', List.contains_eq_mem, List.mem_cons,
      List.not_mem_nil, or_false, decide_eq_false_iff_not, not_or] at hc
    obtain ⟨h1, h2, h3, h4, h5, h6, h7, h8⟩ := hc
    refine ⟨.char c :: ls, hclean.cons ?_ fun hslash => absurd (Lexeme.char.inj hslash) h8,
      congrArg (c :: ·) htext, ?_⟩
    · simp [Lexeme.isWhole, h6, h7]
    · simpa [scan, opensBracket, closesBracket, h1, h2, h3, h4, h5] using hscan
  | @slash depth cs hstar _ ih =>
    obtain ⟨ls, hclean, htext, hscan⟩ := ih
    refine ⟨.char '/' :: ls, hclean.cons rfl fun _ hhead => hstar ?_, congrArg ('/' :: ·) htext,
      ?_⟩
    · rw [← htext]
      cases ls with
      | nil => cases hhead
      | cons l ls => rw [Option.some.inj hhead]; rfl
    · simpa [scan, opensBracket, closesBracket] using hscan
  | @opening depth c cs hc _ ih =>
    obtain ⟨ls, hclean, htext, hscan⟩ := ih
    obtain ⟨hwhole, hslash⟩ := bracket_ne (Or.inl hc)
    refine ⟨.char c :: ls, hclean.cons hwhole fun heq => absurd heq hslash,
      congrArg (c :: ·) htext, ?_⟩
    rwa [scan, if_pos hc]
  | @closing depth c cs hc _ ih =>
    obtain ⟨ls, hclean, htext, hscan⟩ := ih
    obtain ⟨hwhole, hslash⟩ := bracket_ne (Or.inr hc)
    refine ⟨.char c :: ls, hclean.cons hwhole fun heq => absurd heq hslash,
      congrArg (c :: ·) htext, ?_⟩
    rwa [scan, if_neg (by simp [not_opens_of_closes hc]), if_pos hc]
  | @comma depth cs _ ih =>
    obtain ⟨ls, hclean, htext, hscan⟩ := ih
    exact ⟨.char ',' :: ls, hclean.cons (by decide) fun heq => absurd heq (by decide),
      congrArg (',' :: ·) htext, hscan⟩
  | @string depth quote hquote body cs hbody _ ih =>
    obtain ⟨ls, hclean, htext, hscan⟩ := ih
    refine ⟨.quoted (quote :: body) :: ls, hclean.cons ?_ fun heq => Lexeme.noConfusion heq,
      congrArg (fun rest => quote :: (body ++ rest)) htext, hscan⟩
    rcases hquote with rfl | rfl <;> simpa [Lexeme.isWhole] using hbody
  | @comment depth body cs hbody _ ih =>
    obtain ⟨ls, hclean, htext, hscan⟩ := ih
    exact ⟨.comment ('/' :: '*' :: body) :: ls,
      hclean.cons hbody fun heq => Lexeme.noConfusion heq,
      congrArg (fun rest => '/' :: '*' :: (body ++ rest)) htext, hscan⟩

/-! ## §2. Rows of selectors. -/

/-- A row of selectors: commas between them, with any white space around these. -/
inductive Listed : List (List Char) → List Char → Prop
  | nil : Listed [] []
  | last (t : List Char) : Listed [t] t
  | comma (t before after : List Char) {u cs : List Char} {ts : List (List Char)}
      (hbefore : allBlank before = true) (hafter : allBlank after = true)
      (hcs : Listed (u :: ts) cs) :
      Listed (t :: u :: ts) (t ++ before ++ ',' :: (after ++ cs))

/-- Selectors that are joined are such a row. -/
theorem listed_joinWith (ts : List (List Char)) : Listed ts (joinWith selectorSeparator ts) := by
  induction ts using joinRows.induct with
  | case1 => exact .nil
  | case2 t => simpa [joinWith] using Listed.last t
  | case3 t u ts ih =>
    have hrow := Listed.comma t [] [' '] rfl (by decide) ih
    rw [joinWith_cons_cons]
    simpa [selectorSeparator] using hrow

/-- A selector that is found again in a row: closed strings and comments, no comma that parts it,
and no white space at its ends. -/
structure Lone (t : List Char) : Prop where
  clean : Clean (lexemes t)
  onePiece : OnePiece (lexemes t)
  trimmed : Trimmed t

theorem Separate.lone {t : List Char} (h : Separate t) : Lone t :=
  ⟨h.heading.clean, h.onePiece, h.trimmed⟩

theorem Listable.lone {t : List Char} (h : Listable t) : Lone t := by
  obtain ⟨ls, hclean, htext, hscan⟩ := h.closed.exists_row
  have hlex : lexemes t = ls := by rw [← htext, lexemes_textOf hclean]
  exact ⟨hlex ▸ hclean, hlex ▸ hscan, h.trimmed⟩

/-- A selector between white space is one piece, whose trimmed text is the selector. -/
theorem Lone.piece {t : List Char} (h : Lone t) {before after : List Char}
    (hbefore : allBlank before = true) (hafter : allBlank after = true) :
    OnePiece (charsOf before ++ lexemes t ++ charsOf after)
      ∧ trim (textOf (charsOf before ++ lexemes t ++ charsOf after)) = t := by
  constructor
  · exact (onePiece_between (plain_of_allBlank hbefore) (plain_of_allBlank hafter)).mpr h.onePiece
  · rw [textOf_append, textOf_append, textOf_charsOf, textOf_charsOf, textOf_lexemes]
    exact h.trimmed.trim_between hbefore hafter

/-- A row of selectors falls apart into them, also behind white space. -/
theorem Listed.exists_row {ts : List (List Char)} {cs : List Char} (h : Listed ts cs)
    (hts : ∀ t ∈ ts, Lone t) (hne : ts ≠ []) :
    ∃ ls, Clean ls ∧ textOf ls = cs ∧ ∀ gap, allBlank gap = true →
      (pieces (charsOf gap ++ ls)).map (fun piece => trim (textOf piece)) = ts := by
  -- the white space after a comma is the gap before the next selector
  induction h with
  | nil => exact absurd rfl hne
  | last t =>
    have ht := hts t (by simp)
    refine ⟨lexemes t, ht.clean, textOf_lexemes t, fun gap hgap => ?_⟩
    obtain ⟨hone, htrim⟩ := ht.piece hgap (show allBlank [] = true from rfl)
    rw [show charsOf [] = [] from rfl, List.append_nil] at hone htrim
    rw [pieces_of_none (cut_eq_none hone), List.map_singleton, htrim]
  | @comma t before after u cs ts hbefore hafter _ ih =>
    have ht := hts t (by simp)
    obtain ⟨ms, hclean, htext, hpieces⟩ :=
      ih (fun a ha => hts a (List.mem_cons_of_mem t ha)) (by simp)
    refine ⟨lexemes t ++ charsOf before ++ .char ',' :: (charsOf after ++ ms), ?_, ?_,
      fun gap hgap => ?_⟩
    · have hrest := (hclean.plain_append (plain_of_allBlank hafter)).cons (l := .char ',')
        (by decide) fun heq => absurd heq (by decide)
      refine (ht.clean.append_plain (plain_of_allBlank hbefore)).append hrest fun _ hhead => ?_
      cases hhead
    · have hcomma : ∀ rest, textOf (.char ',' :: rest) = ',' :: textOf rest := fun _ => rfl
      rw [textOf_append, textOf_append, hcomma, textOf_append, textOf_charsOf, textOf_charsOf,
        textOf_lexemes, htext]
    · obtain ⟨hone, htrim⟩ := ht.piece hgap hbefore
      have hcut := cut_of_scan hone stops_comma (charsOf after ++ ms)
      have hrow : charsOf gap
            ++ (lexemes t ++ charsOf before ++ .char ',' :: (charsOf after ++ ms))
          = charsOf gap ++ lexemes t ++ charsOf before ++ .char ',' :: (charsOf after ++ ms) := by
        simp only [List.append_assoc]
      rw [hrow, pieces_of_cut hcut, List.map_cons, htrim, hpieces after hafter]

/-- **A row of selectors is split into them.** -/
theorem Listed.splitSelectors_eq {ts : List (List Char)} {cs : List Char} (h : Listed ts cs)
    (hts : ∀ t ∈ ts, Lone t) : splitSelectors cs = ts := by
  by_cases hne : ts = []
  · subst hne
    cases h
    rw [splitSelectors, show lexemes [] = [] from rfl, pieces_of_none rfl]
    rfl
  · obtain ⟨ls, hclean, htext, hpieces⟩ := h.exists_row hts hne
    have hmap := hpieces [] rfl
    rw [show charsOf [] ++ ls = ls from rfl] at hmap
    rw [splitSelectors, ← htext, lexemes_textOf hclean, hmap, List.filter_eq_self]
    -- none of them is blank, so none is left out
    intro t ht
    simpa using (hts t ht).trimmed.ne_nil

theorem splitSelectors_joinWith {ts : List (List Char)} (h : ∀ t ∈ ts, Lone t) :
    splitSelectors (joinWith selectorSeparator ts) = ts :=
  (listed_joinWith ts).splitSelectors_eq h

/-- **Splitting undoes joining**, with a comma and a blank between two selectors or with any white
space around the commas. -/
theorem splitSelectors_of_listed (ts : List (List Char)) (hts : ∀ t ∈ ts, Listable t) :
    splitSelectors (joinWith selectorSeparator ts) = ts
      ∧ ∀ cs, Listed ts cs → splitSelectors cs = ts := by
  have hlone : ∀ t ∈ ts, Lone t := fun t ht => (hts t ht).lone
  exact ⟨splitSelectors_joinWith hlone, fun cs hcs => hcs.splitSelectors_eq hlone⟩

/-- Ordinary characters can be put before a sealed text. -/
theorem Sealed.ordinaries {depth : Nat} (cs : List Char) {rest : List Char}
    (hcs : ∀ c ∈ cs, isOrdinary c = true) (h : Sealed depth rest) : Sealed depth (cs ++ rest) := by
  induction cs with
  | nil => exact h
  | cons c cs ih =>
    obtain ⟨hc, hcs⟩ := List.forall_mem_cons.mp hcs
    exact .ordinary hc (ih hcs)

/-- Selectors with commas in brackets, in a string with an escaped quote, and in a comment. -/
def commaSelectors : List (List Char) :=
  [":is(b, c)".toList, "[x=\"a,\\\"b\"]".toList, "a/*,*/>b".toList]

theorem trimmed_of_ends {cs : List Char} {c d : Char} (hfirst : cs.head? = some c)
    (hlast : cs.getLast? = some d) (hc : isBlank c = false) (hd : isBlank d = false) :
    Trimmed cs := by
  refine ⟨fun hnil => ?_, fun a ha => ?_, fun a ha => ?_⟩
  · rw [hnil] at hfirst
    cases hfirst
  · rwa [← Option.some.inj (hfirst.symm.trans ha)]
  · rwa [← Option.some.inj (hlast.symm.trans ha)]

theorem listable_commaSelectors : ∀ t ∈ commaSelectors, Listable t := by
  have hordinary : ∀ cs : List Char, cs.all isOrdinary = true → ∀ c ∈ cs, isOrdinary c = true :=
    fun _ => List.all_eq_true.mp
  have hbrackets : Sealed 0 ":is(b, c)".toList :=
    .ordinaries ":is".toList (hordinary _ (by decide)) (.opening rfl (.ordinary (by decide) (.comma
      (.ordinaries " c".toList (hordinary _ (by decide)) (.closing rfl .nil)))))
  have hstring : Sealed 0 "[x=\"a,\\\"b\"]".toList :=
    .opening rfl (.ordinaries "x=".toList (hordinary _ (by decide))
      (.string (Or.inl rfl) "a,\\\"b\"".toList (by decide) (.closing rfl .nil)))
  have hcomment : Sealed 0 "a/*,*/>b".toList :=
    .ordinary (by decide) (.comment ",*/".toList (by decide)
      (.ordinaries ">b".toList (hordinary _ (by decide)) .nil))
  intro t ht
  simp only [commaSelectors, List.mem_cons, List.not_mem_nil, or_false] at ht
  rcases ht with rfl | rfl | rfl
  · exact ⟨hbrackets, trimmed_of_ends rfl rfl (by decide) (by decide)⟩
  · exact ⟨hstring, trimmed_of_ends rfl rfl (by decide) (by decide)⟩
  · exact ⟨hcomment, trimmed_of_ends rfl rfl (by decide) (by decide)⟩

/-- Joined with blanks behind the commas, and with other white space around them. -/
theorem commaSelectors_split :
    splitSelectors ":is(b, c), [x=\"a,\\\"b\"], a/*,*/>b".toList = commaSelectors
      ∧ splitSelectors ":is(b, c) ,\t[x=\"a,\\\"b\"],a/*,*/>b".toList = commaSelectors := by
  obtain ⟨hjoined, hlisted⟩ := splitSelectors_of_listed commaSelectors listable_commaSelectors
  refine ⟨hjoined, hlisted _ ?_⟩
  exact .comma ":is(b, c)".toList [' '] ['\t'] rfl rfl
    (.comma "[x=\"a,\\\"b\"]".toList [] [] rfl rfl (.last "a/*,*/>b".toList))

end ControlSurface.Stylesheet
