/-
  ControlSurface.Proofs.Stylesheet.Reach
  ──────────────────────────────────────
  What the rules of a stylesheet reach.  A well-formed sheet is white space, comments, statements and
  blocks, one after the other, and the body of a block is a sheet again (`Sheet`).  Every clean and
  balanced row of lexemes is a sheet (`sheet_of_clean`), so what is true of `parts` and of other
  readers of rules goes by induction on sheets.

  `found` reads a sheet as a browser does: statements end at a semicolon, an at-keyword is a name and
  ends where the name ends, and style rules count at the top level and at any depth in at-rules that
  hold rules.  It notes of each selector whether the at-rules around it are groups for `parts` too.
  A backslash outside strings stands for itself, as it does in `lexemes`.
-/
import ControlSurface.Proofs.Stylesheet.Selecting
import ControlSurface.Text.LowerCase

namespace ControlSurface.Stylesheet

open ControlSurface.Text

/-! ## §1. Sheets. -/

/-- A row that begins with a part: with neither a comment nor white space. -/
def Begins (ls : List Lexeme) : Prop :=
  ∃ l tail, ls = l :: tail ∧ (∀ t, l ≠ .comment t) ∧ allBlank l.text = false

/-- The rows of well-formed stylesheets. -/
inductive Sheet : List Lexeme → Prop
  | nil : Sheet []
  | comment (t : List Char) {rest : List Lexeme} (hwhole : (Lexeme.comment t).isWhole = true)
      (hrest : Sheet rest) : Sheet (.comment t :: rest)
  | blank {c : Char} {rest : List Lexeme} (hblank : isBlank c = true) (hrest : Sheet rest) :
      Sheet (.char c :: rest)
  /-- Text at the end that belongs to no part. -/
  | text {ls : List Lexeme} (hbegins : Begins ls) (hclean : Clean ls) (hbalanced : Balanced ls)
      (hcut : cut endsHead ls = none) : Sheet ls
  | statement {head rest : List Lexeme} (hbegins : Begins (head ++ .char ';' :: rest))
      (hhead : Upright head) (hrest : Sheet rest) : Sheet (head ++ .char ';' :: rest)
  | block {head body rest : List Lexeme}
      (hbegins : Begins (head ++ .char '{' :: (body ++ .char '}' :: rest))) (hhead : Upright head)
      (hclean : Clean body) (hbalanced : Balanced body) (hbody : Sheet body) (hrest : Sheet rest) :
      Sheet (head ++ .char '{' :: (body ++ .char '}' :: rest))

/-- A whole lexeme of white space is one character. -/
theorem exists_blank {l : Lexeme} (hwhole : l.isWhole = true) (hblank : allBlank l.text = true) :
    ∃ c, l = .char c ∧ isBlank c = true := by
  rcases isWhole_cases hwhole with ⟨c, rfl, _⟩ | ⟨c, cs, rfl, hquote, _⟩ | ⟨cs, rfl, _⟩
  · exact ⟨c, rfl, by simpa [allBlank, Lexeme.text] using hblank⟩
  · have hc : isBlank c = true := List.all_eq_true.mp hblank c (List.mem_cons_self ..)
    rcases hquote with rfl | rfl <;> exact absurd hc (by decide)
  · exact absurd (List.all_eq_true.mp hblank '/' (List.mem_cons_self ..)) (by decide)

/-- A clean row is empty, or it begins with a comment, with white space or with a part. -/
theorem Clean.begins_cases {ls : List Lexeme} (h : Clean ls) :
    ls = [] ∨ (∃ t tail, ls = .comment t :: tail)
      ∨ (∃ c tail, ls = .char c :: tail ∧ isBlank c = true) ∨ Begins ls := by
  cases ls with
  | nil => exact .inl rfl
  | cons l tail =>
    refine .inr ?_
    by_cases hcomment : ∃ t, l = .comment t
    · obtain ⟨t, rfl⟩ := hcomment
      exact .inl ⟨t, tail, rfl⟩
    · by_cases hblank : allBlank l.text = true
      · obtain ⟨c, rfl, hc⟩ := exists_blank (h.whole l (List.mem_cons_self ..)) hblank
        exact .inr (.inl ⟨c, tail, rfl, hc⟩)
      · exact .inr (.inr ⟨l, tail, rfl, fun t ht => hcomment ⟨t, ht⟩, by simpa using hblank⟩)

/-- What stands before the place where a part of a balanced row ends is upright, and nothing is due
there. -/
theorem upright_of_cut {ls head rest : List Lexeme} {c : Char} (hclean : Clean ls)
    (hbalanced : Balanced ls) (hcut : cut endsHead ls = some (head, c, rest)) :
    ls = head ++ .char c :: rest ∧ Upright head ∧ nest [] (.char c :: rest) = some []
      ∧ (c = '{' ∨ c = ';') := by
  -- a cut sees brackets only, but where no brace comes before it nothing else is due
  obtain ⟨heq, hscan, hstops⟩ := partsAt_of_cut hcut
  rw [Balanced, heq, nest_append] at hbalanced
  obtain ⟨due, hdue, hafter⟩ := Option.bind_eq_some_iff.mp hbalanced
  have hbefore : Balanced head := balanced_of_scan rfl hscan hdue
  obtain rfl : due = [] := Option.some.inj (hdue.symm.trans hbefore)
  exact ⟨heq, ⟨hclean.stretch ⟨[], _, heq.symm⟩, hbefore, hscan⟩, hafter,
    by simpa [endsHead] using hstops.stops⟩

/-- **Every clean and balanced row is a sheet.** -/
theorem sheet_of_clean {ls : List Lexeme} (hclean : Clean ls) (hbalanced : Balanced ls) :
    Sheet ls := by
  -- the body of a block is shorter than the row, but no tail of it
  induction hn : ls.length using Nat.strong_induction_on generalizing ls with
  | _ n ih =>
    subst hn
    rcases hclean.begins_cases with rfl | ⟨t, tail, rfl⟩ | ⟨c, tail, rfl, hc⟩ | hbegins
    · exact .nil
    · have hwhole := hclean.whole _ (List.mem_cons_self ..)
      exact .comment t hwhole (ih tail.length (by simp) hclean.of_cons hbalanced rfl)
    · refine .blank hc (ih tail.length (by simp) hclean.of_cons ?_ rfl)
      rwa [Balanced, nest, nestChar_plain (plain_of_blank hc)] at hbalanced
    · cases hcut : cut endsHead ls with
      | none => exact .text hbegins hclean hbalanced hcut
      | some found =>
        obtain ⟨head, c, rest⟩ := found
        obtain ⟨rfl, hhead, hafter, rfl | rfl⟩ := upright_of_cut hclean hbalanced hcut
        · -- a block: body and rest are stretches of the row, each balanced
          obtain ⟨body, after, rfl, _, hbody, hrest⟩ := block_of_nest hafter
          have hcleanBody : Clean body :=
            hclean.stretch ⟨head ++ [.char '{'], .char '}' :: after, by simp⟩
          have hcleanRest : Clean after :=
            hclean.stretch ⟨head ++ .char '{' :: (body ++ [.char '}']), [], by simp⟩
          exact .block hbegins hhead hcleanBody hbody
            (ih body.length (by simp; omega) hcleanBody hbody rfl)
            (ih after.length (by simp; omega) hcleanRest hrest rfl)
        · exact .statement hbegins hhead
            (ih rest.length (by simp; omega)
              (hclean.stretch ⟨head ++ [.char ';'], [], by simp⟩) hafter rfl)

/-! ## §2. Parts of a sheet. -/

theorem parts_blank {c : Char} (h : isBlank c = true) (rest : List Lexeme) :
    parts (.char c :: rest) = (do .ok (.copied [c] :: (← parts rest))) := by
  rw [parts, if_pos (by simpa [allBlank, Lexeme.text] using h)]
  · rfl
  · intro t ht
    cases ht

/-- The parts of a row that begins with a part. -/
theorem parts_text {ls : List Lexeme} (hbegins : Begins ls) (hcut : cut endsHead ls = none) :
    parts ls = .ok [.copied (textOf ls)] := by
  obtain ⟨l, tail, rfl, hcomment, hblank⟩ := hbegins
  rw [parts, if_neg (by simp [hblank])]
  · split
    next => rfl
    next head c rest h =>
      rw [hcut] at h
      cases h
  · exact hcomment

theorem parts_statement {ls head rest : List Lexeme} (hbegins : Begins ls)
    (hcut : cut endsHead ls = some (head, ';', rest)) :
    parts ls = (do .ok (.copied (textOf head ++ [';']) :: (← parts rest))) := by
  obtain ⟨l, tail, rfl, hcomment, hblank⟩ := hbegins
  rw [parts, if_neg (by simp [hblank])]
  · split
    next h =>
      rw [hcut] at h
      cases h
    next h =>
      rw [hcut] at h
      cases h
      rfl
  · exact hcomment

/-- What a block becomes. -/
def blockPart (head body : List Lexeme) : Except Fault Part :=
  let prelude := trim (textOf head)
  if prelude.head? ≠ some '@' then .ok (.rule (splitSelectors prelude) (textOf body))
  else if holdsRules prelude then do .ok (.group (textOf head) (← parts body))
  else .ok (.copied (textOf head ++ '{' :: textOf body ++ ['}']))

theorem parts_block {ls head rest body after : List Lexeme} (hbegins : Begins ls)
    (hcut : cut endsHead ls = some (head, '{', rest)) (hblock : block rest = some (body, after)) :
    parts ls = (do
      let part ← blockPart head body
      .ok (part :: (← parts after))) := by
  obtain ⟨l, tail, rfl, hcomment, hblank⟩ := hbegins
  rw [parts, if_neg (by simp [hblank])]
  · split
    next h =>
      rw [hcut] at h
      cases h
    next h =>
      rw [hcut] at h
      cases h
      rw [if_neg (by decide)]
      split
      next h' =>
        rw [hblock] at h'
        cases h'
      next h' =>
        rw [hblock] at h'
        cases h'
        unfold blockPart
        dsimp only
        split
        next => rfl
        next =>
          split
          next => cases parts body <;> rfl
          next => rfl
  · exact hcomment

/-! ## §3. At-rules. -/

/-- Whether a character can stand in a name.  A backslash begins an escape. -/
def isNameChar (c : Char) : Bool :=
  c.isAlphanum || c = '_' || c = '-' || c = '\\' || c.toNat = 0 || 0x80 ≤ c.toNat

/-- The name of an at-rule, which goes on as far as there are characters of names. -/
def atName (prelude : List Char) : List Char :=
  (prelude.tail.takeWhile isNameChar).map asciiLower

/-- Whether an at-rule holds rules. -/
def opensGroup (prelude : List Char) : Bool :=
  groupKeywords.any fun k => k.toList == atName prelude

/-! ## §4. Selectors of a sheet. -/

/-- A selector of a style rule. -/
structure Found where
  /-- Whether all at-rules around the rule are read as groups by `parts`. -/
  reached : Bool
  text : List Char
  deriving Repr, DecidableEq, Inhabited

/-- The selectors of the style rules of a sheet; `reached` tells of the at-rules around it. -/
def found (reached : Bool) (ls : List Lexeme) : List Found :=
  match ls with
  | [] => []
  | .comment _ :: rest => found reached rest
  | l :: tail =>
    if allBlank l.text then found reached tail
    else match h : cut endsHead (l :: tail) with
      | none => []
      | some (head, c, rest) =>
        have : rest.length ≤ tail.length := length_of_rest h
        if c = ';' then found reached rest
        else match h' : block rest with
          | none => []
          | some (body, after) =>
            have := length_of_block h'
            let prelude := trim (textOf head)
            let inside :=
              if prelude.head? ≠ some '@' then (splitSelectors prelude).map (Found.mk reached)
              else if opensGroup prelude then found (reached && holdsRules prelude) body
              else []
            inside ++ found reached after
termination_by ls.length
decreasing_by all_goals simp only [List.length_cons]; omega

/-- The selectors of the style rules of a sheet, as texts. -/
def selectorsOf (ls : List Lexeme) : List (List Char) := (found true ls).map Found.text

/-- The selectors that a block brings. -/
def foundInBlock (reached : Bool) (head body : List Lexeme) : List Found :=
  let prelude := trim (textOf head)
  if prelude.head? ≠ some '@' then (splitSelectors prelude).map (Found.mk reached)
  else if opensGroup prelude then found (reached && holdsRules prelude) body
  else []

theorem found_nil (reached : Bool) : found reached [] = [] := by rw [found]

theorem found_comment (reached : Bool) (t : List Char) (rest : List Lexeme) :
    found reached (.comment t :: rest) = found reached rest := by rw [found]

theorem found_blank (reached : Bool) {c : Char} (h : isBlank c = true) (rest : List Lexeme) :
    found reached (.char c :: rest) = found reached rest := by
  rw [found, if_pos (by simpa [allBlank, Lexeme.text] using h)]
  intro t ht
  cases ht

theorem found_text (reached : Bool) {ls : List Lexeme} (hbegins : Begins ls)
    (hcut : cut endsHead ls = none) : found reached ls = [] := by
  obtain ⟨l, tail, rfl, hcomment, hblank⟩ := hbegins
  rw [found, if_neg (by simp [hblank])]
  · split
    next => rfl
    next h =>
      rw [hcut] at h
      cases h
  · exact hcomment

theorem found_statement (reached : Bool) {ls head rest : List Lexeme} (hbegins : Begins ls)
    (hcut : cut endsHead ls = some (head, ';', rest)) : found reached ls = found reached rest := by
  obtain ⟨l, tail, rfl, hcomment, hblank⟩ := hbegins
  rw [found, if_neg (by simp [hblank])]
  · split
    next h =>
      rw [hcut] at h
      cases h
    next h =>
      rw [hcut] at h
      cases h
      rfl
  · exact hcomment

theorem found_block (reached : Bool) {ls head rest body after : List Lexeme} (hbegins : Begins ls)
    (hcut : cut endsHead ls = some (head, '{', rest)) (hblock : block rest = some (body, after)) :
    found reached ls = foundInBlock reached head body ++ found reached after := by
  obtain ⟨l, tail, rfl, hcomment, hblank⟩ := hbegins
  rw [found, if_neg (by simp [hblank])]
  · split
    next h =>
      rw [hcut] at h
      cases h
    next h =>
      rw [hcut] at h
      cases h
      rw [if_neg (by decide)]
      split
      next h' =>
        rw [hblock] at h'
        cases h'
      next h' =>
        rw [hblock] at h'
        cases h'
        rfl
  · exact hcomment

/-! ## §5. What is noted of selectors. -/

/-- A selector inside one more at-rule. -/
def Found.within (reached : Bool) (f : Found) : Found := { f with reached := reached && f.reached }

theorem within_within (r s : Bool) (fs : List Found) :
    (fs.map (Found.within r)).map (Found.within s) = fs.map (Found.within (s && r)) := by
  rw [List.map_map]
  refine List.map_congr_left fun f _ => ?_
  simp [Found.within, Bool.and_assoc]

theorem foundInBlock_within {head body : List Lexeme}
    (hbody : ∀ reached, found reached body = (found true body).map (Found.within reached))
    (reached : Bool) :
    foundInBlock reached head body = (foundInBlock true head body).map (Found.within reached) := by
  unfold foundInBlock
  dsimp only
  -- a style rule, an at-rule that holds rules, another at-rule
  split
  next =>
    rw [List.map_map]
    refine List.map_congr_left fun t _ => ?_
    simp [Found.within]
  next =>
    split
    next =>
      rw [hbody (reached && _), hbody (true && _), within_within, Bool.true_and]
    next => rfl

/-- The selectors are the same whatever is around the sheet; only what is noted of them changes. -/
theorem found_within {ls : List Lexeme} (h : Sheet ls) (reached : Bool) :
    found reached ls = (found true ls).map (Found.within reached) := by
  induction h generalizing reached with
  | nil => rw [found_nil, found_nil, List.map_nil]
  | comment t _ _ ih =>
    rw [found_comment, found_comment, ih]
  | blank hblank _ ih =>
    rw [found_blank reached hblank, found_blank true hblank, ih]
  | text hbegins _ _ hcut =>
    rw [found_text reached hbegins hcut, found_text true hbegins hcut, List.map_nil]
  | statement hbegins hhead _ ih =>
    have hcut := cut_of_scan hhead.head stops_semicolon
    rw [found_statement reached hbegins (hcut _), found_statement true hbegins (hcut _), ih]
  | block hbegins hhead _ hbalanced _ _ ihbody ihrest =>
    have hcut := cut_of_scan hhead.head stops_brace
    have hblock := block_of_balanced hbalanced
    rw [found_block reached hbegins (hcut _) (hblock _), found_block true hbegins (hcut _) (hblock _),
      List.map_append, foundInBlock_within ihbody, ihrest]

/-- Selectors are trimmed. -/
theorem trimmed_of_mem_found {ls : List Lexeme} (h : Sheet ls) (reached : Bool) :
    ∀ f ∈ found reached ls, Trimmed f.text := by
  induction h generalizing reached with
  | nil => simp [found_nil]
  | comment t _ _ ih =>
    rw [found_comment]
    exact ih reached
  | blank hblank _ ih =>
    rw [found_blank reached hblank]
    exact ih reached
  | text hbegins _ _ hcut => simp [found_text reached hbegins hcut]
  | statement hbegins hhead _ ih =>
    rw [found_statement reached hbegins (cut_of_scan hhead.head stops_semicolon _)]
    exact ih reached
  | block hbegins hhead _ hbalanced _ _ ihbody ihrest =>
    rw [found_block reached hbegins (cut_of_scan hhead.head stops_brace _)
      (block_of_balanced hbalanced _)]
    intro f hf
    rcases List.mem_append.mp hf with hf | hf
    · unfold foundInBlock at hf
      dsimp only at hf
      split at hf
      next =>
        -- a list of selectors is split into trimmed pieces, and empty ones are dropped
        obtain ⟨t, ht, rfl⟩ := List.mem_map.mp hf
        rw [splitSelectors, List.mem_filter] at ht
        obtain ⟨⟨ms, _, rfl⟩, hne⟩ := And.imp_left List.mem_map.mp ht
        exact trimmed_trim (by simpa using hne)
      next =>
        split at hf
        next => exact ihbody _ f hf
        next => cases hf
    · exact ihrest reached f hf

end ControlSurface.Stylesheet
