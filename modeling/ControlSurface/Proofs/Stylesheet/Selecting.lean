/-
  ControlSurface.Proofs.Stylesheet.Selecting
  ──────────────────────────────────────────
  Selectors that can be taken out of a list and put into one.  A selector is separate if its strings
  and comments are closed and nothing in it parts it from others (`Separate`); it stands alone if
  its brackets and braces are closed too (`StandsAlone`).  What a list is split into is separate,
  and scoping changes a plain beginning only (`exists_scoped_row`), so it stays separate
  (`separate_scopeSelector`) and stands alone as before (`standsAlone_scopeSelector`).
-/
import ControlSurface.Proofs.Stylesheet.Plain

namespace ControlSurface.Stylesheet

open ControlSurface.Text

/-! ## §1. Splitting. -/

/-- A row that can be the head of a rule, whether its braces are closed or not. -/
structure Heading (ls : List Lexeme) : Prop where
  clean : Clean ls
  head : scan endsHead 0 ls = some 0

theorem Upright.heading {ls : List Lexeme} (h : Upright ls) : Heading ls := ⟨h.clean, h.head⟩

/-- A selector that can stand in any list of selectors. -/
structure StandsAlone (cs : List Char) : Prop where
  upright : Upright (lexemes cs)
  onePiece : OnePiece (lexemes cs)
  trimmed : Trimmed cs

/-- A selector as it is read from a list, whether its braces are closed or not. -/
structure Separate (cs : List Char) : Prop where
  heading : Heading (lexemes cs)
  onePiece : OnePiece (lexemes cs)
  trimmed : Trimmed cs

theorem StandsAlone.separate {cs : List Char} (h : StandsAlone cs) : Separate cs :=
  ⟨h.upright.heading, h.onePiece, h.trimmed⟩

theorem stops_comma : Stops (· = ',') ',' := ⟨rfl, rfl, rfl⟩

theorem stops_brace : Stops endsHead '{' := ⟨rfl, rfl, rfl⟩

theorem stops_semicolon : Stops endsHead ';' := ⟨rfl, rfl, rfl⟩

/-- What lies before a comma of a heading is one, and so is what follows it. -/
theorem heading_of_partsAt {ls head rest : List Lexeme} {c : Char} (h : Heading ls)
    (hparts : PartsAt (· = ',') 0 ls head rest c) :
    ls = head ++ .char ',' :: rest ∧ Heading head ∧ OnePiece head ∧ Heading rest := by
  obtain ⟨heq, hscan, hstops⟩ := hparts
  obtain rfl : c = ',' := of_decide_eq_true hstops.stops
  obtain ⟨hclean, hhead⟩ := h
  subst heq
  -- a comma is nothing at which a head ends
  rw [scan_append] at hhead
  obtain ⟨d, hd, hrest⟩ := Option.bind_eq_some_iff.mp hhead
  obtain rfl : d = 0 := scan_depth hd hscan
  exact ⟨rfl, ⟨hclean.stretch ⟨[], _, rfl⟩, hd⟩, hscan,
    ⟨hclean.stretch ⟨head ++ [.char ','], [], by simp⟩, hrest⟩⟩

/-- What lies before a comma of an upright row is upright, and so is what follows it. -/
theorem upright_of_partsAt {ls head rest : List Lexeme} {c : Char} (h : Upright ls)
    (hparts : PartsAt (· = ',') 0 ls head rest c) :
    Upright head ∧ OnePiece head ∧ Upright rest := by
  obtain ⟨rfl, hhead, hone, hrest⟩ := heading_of_partsAt h.heading hparts
  -- nothing is due before the comma or after it
  have hbalanced := h.balanced
  rw [Balanced, nest_append] at hbalanced
  obtain ⟨due, hdue, hafter⟩ := Option.bind_eq_some_iff.mp hbalanced
  have hbefore : Balanced head := balanced_of_scan rfl hhead.head hdue
  obtain rfl : due = [] := Option.some.inj (hdue.symm.trans hbefore)
  exact ⟨⟨hhead.clean, hbefore, hhead.head⟩, hone, ⟨hrest.clean, hafter, hrest.head⟩⟩

theorem pieces_of_cut {ls head rest : List Lexeme} {c : Char}
    (h : cut (· = ',') ls = some (head, c, rest)) : pieces ls = head :: pieces rest := by
  rw [pieces]
  split
  next h' =>
    rw [h] at h'
    cases h'
    rfl
  next h' =>
    rw [h] at h'
    cases h'

theorem pieces_of_none {ls : List Lexeme} (h : cut (· = ',') ls = none) : pieces ls = [ls] := by
  rw [pieces]
  split
  next h' =>
    rw [h] at h'
    cases h'
  next => rfl

/-- The pieces of a heading are headings of one piece. -/
theorem pieces_heading {ls : List Lexeme} (h : Heading ls) :
    ∀ ms ∈ pieces ls, Heading ms ∧ OnePiece ms := by
  induction ls using pieces.induct with
  | case1 ls head c rest hcut _ ih =>
    obtain ⟨-, hhead, hone, hrest⟩ := heading_of_partsAt h (partsAt_of_cut hcut)
    intro ms hms
    rw [pieces_of_cut hcut] at hms
    rcases List.mem_cons.mp hms with rfl | hms
    · exact ⟨hhead, hone⟩
    · exact ih hrest ms hms
  | case2 ls hcut =>
    intro ms hms
    rw [pieces_of_none hcut, List.mem_singleton] at hms
    obtain ⟨d, hd⟩ := scan_of_cut_none hcut
    rw [hms]
    refine ⟨h, ?_⟩
    rw [OnePiece, hd, scan_depth hd h.head]

/-- The pieces of an upright row are upright. -/
theorem pieces_upright {ls : List Lexeme} (h : Upright ls) : ∀ ms ∈ pieces ls, Upright ms := by
  induction ls using pieces.induct with
  | case1 ls head c rest hcut _ ih =>
    obtain ⟨hhead, -, hrest⟩ := upright_of_partsAt h (partsAt_of_cut hcut)
    rw [pieces_of_cut hcut]
    exact List.forall_mem_cons.mpr ⟨hhead, ih hrest⟩
  | case2 ls hcut =>
    rw [pieces_of_none hcut]
    exact List.forall_mem_singleton.mpr h

/-- A heading between plain characters is a heading. -/
theorem heading_between {cs ds : List Char} (hcs : ∀ c ∈ cs, isPlain c = true)
    (hds : ∀ c ∈ ds, isPlain c = true) {ls : List Lexeme} :
    Heading (charsOf cs ++ ls ++ charsOf ds) ↔ Heading ls := by
  constructor
  · rintro ⟨hclean, hhead⟩
    refine ⟨hclean.stretch ⟨_, _, rfl⟩, ?_⟩
    rwa [scan_between endsHead_special hcs hds] at hhead
  · rintro ⟨hclean, hhead⟩
    refine ⟨(hclean.plain_append hcs).append_plain hds, ?_⟩
    rwa [scan_between endsHead_special hcs hds]

/-- A selector is the trimmed text of a piece that is not blank. -/
theorem exists_piece {cs s : List Char} (hs : s ∈ splitSelectors cs) :
    s ≠ [] ∧ ∃ ms ∈ pieces (lexemes cs), trim (textOf ms) = s := by
  rw [splitSelectors, List.mem_filter] at hs
  obtain ⟨hmem, hne⟩ := hs
  obtain ⟨ms, hms, htext⟩ := List.mem_map.mp hmem
  exact ⟨by simpa using hne, ms, hms, htext⟩

/-- **Selectors of a list are separate.** -/
theorem separate_of_mem {cs : List Char} (h : Heading (lexemes cs)) :
    ∀ s ∈ splitSelectors cs, Separate s := by
  intro s hs
  obtain ⟨hne, ms, hms, rfl⟩ := exists_piece hs
  obtain ⟨hheading, hone⟩ := pieces_heading h ms hms
  obtain ⟨ds, ns, es, rfl, htext, hds, hes⟩ := exists_trimmed hheading.clean
  have hns : Heading ns := (heading_between hds hes).mp hheading
  have hlex : lexemes (trim (textOf (charsOf ds ++ ns ++ charsOf es))) = ns := by
    rw [← htext, lexemes_textOf hns.clean]
  refine ⟨?_, ?_, trimmed_trim hne⟩
  · rwa [hlex]
  · rw [hlex]
    exact (onePiece_between hds hes).mp hone

/-- **Selectors of a list stand alone**, if its brackets and braces are closed. -/
theorem standsAlone_of_mem {cs : List Char} (h : Upright (lexemes cs)) :
    ∀ s ∈ splitSelectors cs, StandsAlone s := by
  intro s hs
  obtain ⟨hheading, hone, htrimmed⟩ := separate_of_mem h.heading s hs
  obtain ⟨-, ms, hms, rfl⟩ := exists_piece hs
  have hup := pieces_upright h ms hms
  obtain ⟨ds, ns, es, rfl, htext, hds, hes⟩ := exists_trimmed hup.clean
  have hns : Upright ns := (upright_between hds hes).mp hup
  refine ⟨?_, hone, htrimmed⟩
  rwa [← htext, lexemes_textOf hns.clean]

/-! ## §2. Scoping. -/

/-- A scope: plain characters, none of them white space, and no at-keyword. -/
structure IsScope (scope : List Char) : Prop where
  ne_nil : scope ≠ []
  plain : ∀ c ∈ scope, isPlain c = true
  solid : ∀ c ∈ scope, isBlank c = false
  noAt : scope.head? ≠ some '@'

/-- What follows the scope in a scoped selector. -/
def remainder (scope selector : List Char) : List Char :=
  if selector = scope then []
  else match after? (scope ++ [' ']) selector with
    | some rest => ' ' :: rest
    | none =>
      match afterPage? selector with
      | none => ' ' :: selector
      | some rest =>
        match withoutNested rest with
        | [] => []
        | c :: tail =>
          if isCombinator c then ' ' :: trimStartBy isBlank (c :: tail) else c :: tail

/-- A scoped selector begins with the scope. -/
theorem scopeSelector_eq {scope selector : List Char} (h : Trimmed selector) :
    scopeSelector scope selector = scope ++ remainder scope selector := by
  rw [scopeSelector, h.trim_eq, remainder]
  by_cases hself : selector = scope
  · simp [hself]
  · rw [if_neg hself]
    -- what is taken off in front decides: the scope itself, a name of the page, or nothing
    cases hafter : after? (scope ++ [' ']) selector with
    | some rest =>
      have hstarts : startsWith (scope ++ [' ']) selector = true := by
        rw [startsWith, hafter]
        rfl
      rw [if_pos (Or.inr (Or.inr hstarts)), append_of_after? hafter]
      simp
    | none =>
      have hstarts : ¬ (selector = [] ∨ selector = scope
          ∨ startsWith (scope ++ [' ']) selector = true) := by
        rw [startsWith, hafter]
        simp [hself, h.ne_nil]
      rw [if_neg hstarts]
      cases afterPage? selector with
      | none => rfl
      | some rest =>
        dsimp only
        cases withoutNested rest with
        | nil => simp
        | cons c tail =>
          dsimp only
          split <;> rfl

/-- Only plain characters of a text stand before the rest of it. -/
def PlainlyBefore (cs rest : List Char) : Prop :=
  ∃ begun, cs = begun ++ rest ∧ ∀ c ∈ begun, isPlain c = true

theorem PlainlyBefore.refl (cs : List Char) : PlainlyBefore cs cs := ⟨[], rfl, by simp⟩

theorem PlainlyBefore.trans {cs ds es : List Char} (h : PlainlyBefore cs ds)
    (h' : PlainlyBefore ds es) : PlainlyBefore cs es := by
  obtain ⟨a, rfl, ha⟩ := h
  obtain ⟨b, rfl, hb⟩ := h'
  refine ⟨a ++ b, by simp, fun c hc => ?_⟩
  rcases List.mem_append.mp hc with hc | hc
  · exact ha c hc
  · exact hb c hc

theorem plainlyBefore_of_afterName? {name cs rest : List Char}
    (hname : ∀ c ∈ name, isPlain c = true) (h : afterName? name cs = some rest) :
    PlainlyBefore cs rest := by
  refine ⟨name, append_of_after? ?_, hname⟩
  -- a name that goes on is none, so only its end and a following other character are left
  unfold afterName? at h
  split at h
  next c tail found =>
    split at h
    next => cases h
    next => rw [found, h]
  next found => rw [found, h]
  next => cases h

theorem plainlyBefore_of_afterPart? {cs rest : List Char} (h : afterPart? cs = some rest) :
    PlainlyBefore cs rest := by
  rw [afterPart?] at h
  cases found : afterName? "html".toList cs with
  | some r =>
    rw [found] at h
    cases h
    exact plainlyBefore_of_afterName? (List.all_eq_true.mp (by decide)) found
  | none =>
    rw [found] at h
    exact plainlyBefore_of_afterName? (List.all_eq_true.mp (by decide)) h

theorem plainlyBefore_of_afterPage? {cs rest : List Char} (h : afterPage? cs = some rest) :
    PlainlyBefore cs rest := by
  rw [afterPage?] at h
  cases found : afterPart? cs with
  | some r =>
    rw [found] at h
    cases h
    exact plainlyBefore_of_afterPart? found
  | none =>
    rw [found] at h
    exact plainlyBefore_of_afterName? (List.all_eq_true.mp (by decide)) h

theorem plainlyBefore_trimStart (cs : List Char) : PlainlyBefore cs (trimStartBy isBlank cs) :=
  ⟨cs.takeWhile isBlank, List.takeWhile_append_dropWhile.symm, plain_of_mem_takeWhile cs⟩

theorem plainlyBefore_of_afterNested? {cs rest : List Char} (h : afterNested? cs = some rest) :
    PlainlyBefore cs rest := by
  unfold afterNested? at h
  split at h
  next c tail =>
    split at h
    next hblank =>
      have hfirst : PlainlyBefore (c :: tail) tail :=
        ⟨[c], rfl, by simpa using plain_of_blank hblank⟩
      exact (hfirst.trans (plainlyBefore_trimStart tail)).trans (plainlyBefore_of_afterPart? h)
    next => cases h
  next => cases h

theorem plainlyBefore_withoutNested (cs : List Char) : PlainlyBefore cs (withoutNested cs) := by
  -- names of nested page elements are taken off one after the other
  induction cs using withoutNested.induct with
  | case1 cs rest h _ ih =>
    rw [withoutNested]
    split
    next rest' h' =>
      rw [h] at h'
      cases h'
      exact (plainlyBefore_of_afterNested? h).trans ih
    next h' =>
      rw [h] at h'
      cases h'
  | case2 cs h =>
    rw [withoutNested]
    split
    next rest' h' =>
      rw [h] at h'
      cases h'
    next => exact PlainlyBefore.refl cs

/-- What follows the scope is an end of the selector, perhaps after a blank. -/
theorem exists_remainder {scope selector : List Char} (hscope : IsScope scope)
    (h : Trimmed selector) :
    ∃ gap rest, remainder scope selector = gap ++ rest
      ∧ (gap = [] ∨ gap = [' '] ∧ rest ≠ []) ∧ PlainlyBefore selector rest := by
  rw [remainder]
  split
  next hself => exact ⟨[], [], rfl, Or.inl rfl, scope, by simp [hself], hscope.plain⟩
  next =>
    split
    next rest hafter =>
      have heq := append_of_after? hafter
      refine ⟨[' '], rest, rfl, Or.inr ⟨rfl, ?_⟩, scope ++ [' '], heq, ?_⟩
      · -- a selector that ends in a blank is not trimmed
        rintro rfl
        rw [List.append_nil] at heq
        rw [heq] at h
        exact absurd (h.last_of_append (by simp) rfl) (by decide)
      · intro c hc
        rcases List.mem_append.mp hc with hc | hc
        · exact hscope.plain c hc
        · rw [List.mem_singleton.mp hc]
          decide
    next =>
      split
      next => exact ⟨[' '], selector, rfl, Or.inr ⟨rfl, h.ne_nil⟩, PlainlyBefore.refl selector⟩
      next rest hpage =>
        have hbefore := (plainlyBefore_of_afterPage? hpage).trans (plainlyBefore_withoutNested rest)
        split
        next hnil => exact ⟨[], [], rfl, Or.inl rfl, hnil ▸ hbefore⟩
        next c tail hcons =>
          rw [hcons] at hbefore
          split
          next =>
            refine ⟨[' '], _, rfl, Or.inr ⟨rfl, ?_⟩,
              hbefore.trans (plainlyBefore_trimStart (c :: tail))⟩
            -- the combinator is left at least, for a selector does not end in blanks
            intro hnil
            have hall := List.dropWhile_eq_nil_iff.mp hnil
            obtain ⟨begun, heq, _⟩ := hbefore
            have hlast : (c :: tail).getLast? = some ((c :: tail).getLast (by simp)) :=
              List.getLast?_eq_some_getLast (by simp)
            have hsolid := (heq ▸ h).last_of_append (by simp) hlast
            rw [hall _ (List.getLast_mem _)] at hsolid
            cases hsolid
          next => exact ⟨[], c :: tail, rfl, Or.inl rfl, hbefore⟩

/-- A scoped selector is trimmed. -/
theorem trimmed_scopeSelector {scope selector : List Char} (hscope : IsScope scope)
    (h : Trimmed selector) : Trimmed (scopeSelector scope selector) := by
  obtain ⟨gap, rest, hrest, hgap, begun, hselector, -⟩ := exists_remainder hscope h
  rw [scopeSelector_eq h, hrest]
  refine ⟨by simp [hscope.ne_nil], fun c hc => ?_, fun c hc => ?_⟩
  · rw [List.head?_append_of_ne_nil _ hscope.ne_nil] at hc
    exact hscope.solid c (List.mem_of_head? hc)
  · by_cases hnil : rest = []
    · -- nothing follows the scope
      have hgap : gap = [] := by
        rcases hgap with hgap | ⟨_, hne⟩
        · exact hgap
        · exact absurd hnil hne
      rw [hgap, hnil, List.append_nil, List.append_nil] at hc
      exact hscope.solid c (List.mem_of_getLast? hc)
    · rw [← List.append_assoc, List.getLast?_append_of_ne_nil _ hnil] at hc
      exact (hselector ▸ h).last_of_append hnil hc

/-- **Scoping changes a plain beginning of a selector**: the lexemes of the rest stand behind one
plain beginning before and behind another one after. -/
theorem exists_scoped_row {scope selector : List Char} (hscope : IsScope scope)
    (hclean : Clean (lexemes selector)) (h : Trimmed selector) :
    ∃ begun front ms, (∀ c ∈ begun, isPlain c = true) ∧ (∀ c ∈ front, isPlain c = true)
      ∧ lexemes selector = charsOf begun ++ ms ++ charsOf []
      ∧ lexemes (scopeSelector scope selector) = charsOf (scope ++ front) ++ ms ++ charsOf [] := by
  obtain ⟨gap, rest, hrest, hgap, begun, hselector, hbegun⟩ := exists_remainder hscope h
  have hgapPlain : ∀ c ∈ gap, isPlain c = true := by
    rcases hgap with rfl | ⟨rfl, _⟩ <;> exact List.all_eq_true.mp (by decide)
  have htext : textOf (lexemes selector) = begun ++ rest := by rw [textOf_lexemes, hselector]
  obtain ⟨ms, hms, hmsText⟩ := exists_plain_prefix hclean hbegun htext
  have hrow : scopeSelector scope selector = textOf (charsOf (scope ++ gap) ++ ms) := by
    rw [scopeSelector_eq h, hrest, textOf_append, textOf_charsOf, hmsText, List.append_assoc]
  have hcleanMs : Clean ms := hclean.stretch ⟨charsOf begun, [], by rw [hms, List.append_nil]⟩
  refine ⟨begun, gap, ms, hbegun, hgapPlain, hms.trans (List.append_nil _).symm, ?_⟩
  rw [hrow, lexemes_textOf (hcleanMs.plain_append ?_)]
  · exact (List.append_nil _).symm
  · exact List.forall_mem_append.mpr ⟨hscope.plain, hgapPlain⟩

/-- **A scoped selector is separate**, as the selector was. -/
theorem separate_scopeSelector {scope selector : List Char} (hscope : IsScope scope)
    (h : Separate selector) : Separate (scopeSelector scope selector) := by
  obtain ⟨begun, front, ms, hbegun, hfront, hbefore, hafter⟩ :=
    exists_scoped_row hscope h.heading.clean h.trimmed
  have hnone : ∀ c ∈ ([] : List Char), isPlain c = true := by simp
  have hplain := List.forall_mem_append.mpr ⟨hscope.plain, hfront⟩
  have hheading := (heading_between hbegun hnone).mp (hbefore ▸ h.heading)
  have hone := (onePiece_between hbegun hnone).mp (hbefore ▸ h.onePiece)
  refine ⟨?_, ?_, trimmed_scopeSelector hscope h.trimmed⟩
  · rw [hafter]
    exact (heading_between hplain hnone).mpr hheading
  · rw [hafter]
    exact (onePiece_between hplain hnone).mpr hone

/-- **A scoped selector stands alone**, as the selector did. -/
theorem standsAlone_scopeSelector {scope selector : List Char} (hscope : IsScope scope)
    (h : StandsAlone selector) : StandsAlone (scopeSelector scope selector) := by
  obtain ⟨-, hone, htrimmed⟩ := separate_scopeSelector hscope h.separate
  obtain ⟨begun, front, ms, hbegun, hfront, hbefore, hafter⟩ :=
    exists_scoped_row hscope h.upright.clean h.trimmed
  have hnone : ∀ c ∈ ([] : List Char), isPlain c = true := by simp
  have hplain := List.forall_mem_append.mpr ⟨hscope.plain, hfront⟩
  refine ⟨?_, hone, htrimmed⟩
  rw [hafter]
  exact (upright_between hplain hnone).mpr ((upright_between hbegun hnone).mp (hbefore ▸ h.upright))

/-! ## §3. Putting selectors together. -/

/-- The lexemes of a list of selectors. -/
def joinRows : List (List Char) → List Lexeme
  | [] => []
  | [t] => lexemes t
  | t :: u :: ts => lexemes t ++ (charsOf [',', ' '] ++ joinRows (u :: ts))

theorem textOf_joinRows (ts : List (List Char)) :
    textOf (joinRows ts) = joinWith selectorSeparator ts := by
  induction ts using joinRows.induct with
  | case1 => rfl
  | case2 t => simp [joinRows, textOf_lexemes, joinWith]
  | case3 t u ts ih =>
    rw [joinRows, textOf_append, textOf_append, textOf_lexemes, textOf_charsOf, ih,
      joinWith_cons_cons]
    rfl

/-- The lexemes of separate selectors are a heading. -/
theorem heading_joinRows {ts : List (List Char)} (h : ∀ t ∈ ts, Separate t) :
    Heading (joinRows ts) := by
  induction ts using joinRows.induct with
  | case1 => exact ⟨Clean.nil, rfl⟩
  | case2 t => exact (h t (by simp)).heading
  | case3 t u ts ih =>
    have ht := (h t (by simp)).heading
    have hrest := ih fun a ha => h a (List.mem_cons_of_mem t ha)
    rw [joinRows]
    have hsep : Clean (charsOf [',', ' ']) :=
      ⟨by decide, List.isChain_pair.mpr fun hopens => by cases hopens.1⟩
    -- a comma and a space begin no comment with what stands beside them
    refine ⟨ht.clean.append (hsep.append hrest.clean ?_) ?_, ?_⟩
    · intro hlast
      cases hlast
    · intro _ hhead
      cases hhead
    · rw [scan_append, ht.head, Option.bind_some, scan_append]
      exact hrest.head

/-- The lexemes of selectors that stand alone are upright. -/
theorem upright_joinRows {ts : List (List Char)} (h : ∀ t ∈ ts, StandsAlone t) :
    Upright (joinRows ts) := by
  have hheading := heading_joinRows fun t ht => (h t ht).separate
  refine ⟨hheading.clean, ?_, hheading.head⟩
  clear hheading
  induction ts using joinRows.induct with
  | case1 => rfl
  | case2 t => exact (h t (by simp)).upright.balanced
  | case3 t u ts ih =>
    rw [joinRows, Balanced, nest_append, (h t (by simp)).upright.balanced, Option.bind_some,
      nest_append]
    exact ih fun a ha => h a (List.mem_cons_of_mem t ha)

/-- A list of trimmed selectors is trimmed. -/
theorem trimmed_joinWith {ts : List (List Char)} (h : ∀ t ∈ ts, Trimmed t) (hne : ts ≠ []) :
    Trimmed (joinWith selectorSeparator ts) := by
  induction ts using joinRows.induct with
  | case1 => exact absurd rfl hne
  | case2 t =>
    simpa [joinWith] using h t (by simp)
  | case3 t u ts ih =>
    have ht := h t (by simp)
    have hrest := ih (fun a ha => h a (List.mem_cons_of_mem t ha)) (by simp)
    rw [joinWith_cons_cons]
    refine ⟨by simp [ht.ne_nil], fun c hc => ?_, fun c hc => ?_⟩
    · rw [List.head?_append_of_ne_nil _ ht.ne_nil] at hc
      exact ht.first c hc
    · rw [← List.append_assoc, List.getLast?_append_of_ne_nil _ hrest.ne_nil] at hc
      exact hrest.last c hc

end ControlSurface.Stylesheet
