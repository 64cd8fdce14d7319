/-
  ControlSurface.Proofs.Stylesheet.Continuing
  ───────────────────────────────────────────
  Stylesheets that go on behind their end.  A row that is finished ends where a part of it ends
  (`Finished`), so no part of it takes anything of what follows: its lexemes, its cuts, its blocks
  and with them its parts are the same in front of any other row (`lexemes_append`, `cut_append`,
  `block_append`, `parts_append`).  Confining a complete stylesheet and another one behind it is
  therefore confining each of them (`confined_append`).
-/
import ControlSurface.Proofs.Stylesheet.Closing
import ControlSurface.Proofs.Stylesheet.Reach

namespace ControlSurface.Stylesheet

open ControlSurface.Outcome ControlSurface.Text

/-! ## §1. Reading on. -/

/-- What was read before does not change what is read next. -/
theorem readFrom_prepend (before done : List Lexeme) (place : Place) (cs : List Char) :
    readFrom (done ++ before) place cs = before.reverse ++ readFrom done place cs := by
  fun_induction readFrom done place cs with
  | case1 done => rw [readFrom, List.reverse_append]
  | case2 done cs ih => rw [readFrom, ih]
  | case3 done c cs hmark hquote ih =>
    rw [readFrom, if_pos hquote, ih]
    exact hmark
  | case4 done c cs hmark hquote ih =>
    rw [readFrom, if_neg hquote, ← ih]
    · rfl
    · exact hmark
  | case5 => simp [readFrom]
  | case6 done quote read c cs ih => rw [readFrom, ih]
  | case7 done quote read cs ih => rw [readFrom, if_pos rfl, ih]
  | case8 done quote read cs hback ih =>
    rw [readFrom, if_neg hback, if_pos rfl, ← ih]
    rfl
  | case9 done quote read c cs hback hquote ih => rw [readFrom, if_neg hback, if_neg hquote, ih]
  | case10 => simp [readFrom]
  | case11 done star read c cs hend ih =>
    rw [readFrom, if_pos hend, ← ih]
    rfl
  | case12 done star read c cs hend ih => rw [readFrom, if_neg hend, ih]

/-- A reader passes a clean row and reads on behind it. -/
theorem readFrom_passes (done : List Lexeme) {ls : List Lexeme} (h : Clean ls) {rest : List Char}
    (hlast : ls.getLast? = some (.char '/') → rest.head? ≠ some '*') :
    readFrom done .outside (textOf ls ++ rest) = readFrom (ls.reverse ++ done) .outside rest := by
  induction ls generalizing done with
  | nil => rfl
  | cons l ls ih =>
    have htext : textOf (l :: ls) ++ rest = l.text ++ (textOf ls ++ rest) :=
      List.append_assoc ..
    have hwhole : l.isWhole = true := h.whole l (List.mem_cons_self ..)
    rw [htext, readFrom_lexeme done l _ hwhole, ih _ h.of_cons]
    · rw [List.reverse_cons, List.append_assoc, List.singleton_append]
    · intro hend
      refine hlast ?_
      cases ls with
      | nil => cases hend
      | cons m ls => rwa [List.getLast?_cons_cons]
    · -- behind a slash stands the next lexeme, or the rest
      rintro rfl
      cases ls with
      | nil => exact hlast rfl
      | cons m ls =>
        have happart := (List.isChain_cons_cons.mp h.apart).1
        rw [show textOf (m :: ls) ++ rest = m.text ++ (textOf ls ++ rest) from
          List.append_assoc ..]
        exact head?_text m (h.whole m (by simp)) (fun hstar => happart ⟨rfl, hstar⟩) _

/-- **The lexemes of a text with another one behind it** are those of the two, if the first is
closed and does not end with a slash. -/
theorem lexemes_append {cs : List Char} (hclosed : ∀ l ∈ lexemes cs, l.isWhole = true)
    (hlast : (lexemes cs).getLast? ≠ some (.char '/')) (ds : List Char) :
    lexemes (cs ++ ds) = lexemes cs ++ lexemes ds := by
  have hclean := clean_lexemes hclosed
  have hread : readFrom [] .outside (textOf (lexemes cs) ++ ds) = _ :=
    readFrom_passes [] hclean fun h => absurd h hlast
  rw [textOf_lexemes, List.append_nil, ← List.nil_append (lexemes cs).reverse, readFrom_prepend,
    List.reverse_reverse] at hread
  exact hread

/-! ## §2. Cuts and blocks. -/

/-- A block goes on behind a row that closes no more than is open. -/
theorem blockFrom_passes {ls : List Lexeme} {blocks n : Nat} (h : openBlocks blocks ls = some n)
    (read ms : List Lexeme) :
    blockFrom read blocks (ls ++ ms) = blockFrom (ls.reverse ++ read) n ms := by
  induction ls generalizing blocks read with
  | nil =>
    cases h
    rfl
  | cons l ls ih =>
    have hread : ls.reverse ++ l :: read = (l :: ls).reverse ++ read := by simp
    rw [← hread]
    cases l with
    | char c =>
      rw [openBlocks.eq_def] at h
      rw [List.cons_append, blockFrom_char]
      dsimp only at h
      split at h
      next hopen =>
        rw [if_pos hopen]
        exact ih h _
      next hopen =>
        rw [if_neg hopen]
        split at h
        next hclose =>
          rw [if_pos hclose]
          cases blocks with
          | zero => cases h
          | succ inner => exact ih h _
        next hclose =>
          rw [if_neg hclose]
          exact ih h _
    | quoted t => exact ih h _
    | comment t => exact ih h _

/-- A body in which every brace is closed, and closes one that was open in it, ends at the next
closing brace. -/
theorem block_of_openBlocks_eq {body : List Lexeme} (h : openBlocks 0 body = some 0)
    (rest : List Lexeme) : block (body ++ .char '}' :: rest) = some (body, rest) := by
  rw [block, blockFrom_passes h, blockFrom_char, if_neg (by decide), if_pos rfl]
  simp

theorem block_append {ls body rest : List Lexeme} (h : block ls = some (body, rest))
    (ms : List Lexeme) : block (ls ++ ms) = some (body, rest ++ ms) := by
  obtain ⟨own, hbody, rfl, hopen⟩ := openBlocks_of_block h
  obtain rfl : body = own := hbody
  rw [List.append_assoc, List.cons_append, block_of_openBlocks_eq hopen]

theorem cut_append {stop : Char → Bool} {ls head rest : List Lexeme} {c : Char}
    (h : cut stop ls = some (head, c, rest)) (ms : List Lexeme) :
    cut stop (ls ++ ms) = some (head, c, rest ++ ms) := by
  obtain ⟨heq, hscan, hstops⟩ := partsAt_of_cut h
  rw [heq, List.append_assoc, List.cons_append, cut_of_scan hscan hstops]

/-! ## §3. Rows that are finished. -/

/-- The rows that end where a part of them ends. -/
inductive Finished : List Lexeme → Prop
  | nil : Finished []
  | comment (t : List Char) {rest : List Lexeme} (hrest : Finished rest) :
      Finished (.comment t :: rest)
  | blank {c : Char} {rest : List Lexeme} (hblank : isBlank c = true) (hrest : Finished rest) :
      Finished (.char c :: rest)
  | statement {head rest : List Lexeme} (hbegins : Begins (head ++ .char ';' :: rest))
      (hhead : scan endsHead 0 head = some 0) (hrest : Finished rest) :
      Finished (head ++ .char ';' :: rest)
  | block {head body rest : List Lexeme}
      (hbegins : Begins (head ++ .char '{' :: (body ++ .char '}' :: rest)))
      (hhead : scan endsHead 0 head = some 0) (hbody : openBlocks 0 body = some 0)
      (hrest : Finished rest) : Finished (head ++ .char '{' :: (body ++ .char '}' :: rest))

/-- A row that begins with a part is passed from the head of the part on. -/
theorem Begins.after_eq {ls : List Lexeme} (h : Begins ls) :
    Position.after .between ls = Position.after (.head 0) ls := by
  obtain ⟨l, tail, rfl, hcomment, hblank⟩ := h
  exact after_begins hcomment (by simp [hblank]) tail

/-- The ways in which a row goes on that begins with a part: its head does not end, or it ends with a
semicolon, or it ends with a block that is left open or closed. -/
inductive Onward (ls : List Lexeme) : Prop
  | head {brackets : Nat} (hcut : cut endsHead ls = none)
      (hend : Position.after .between ls = .head brackets)
  | statement {head rest : List Lexeme} (heq : ls = head ++ .char ';' :: rest)
      (hscan : scan endsHead 0 head = some 0)
      (hafter : Position.after .between ls = Position.after .between rest)
  | unclosed {blocks : Nat} (hend : Position.after .between ls = .inside blocks)
  | block {head body rest : List Lexeme} (heq : ls = head ++ .char '{' :: (body ++ .char '}' :: rest))
      (hscan : scan endsHead 0 head = some 0) (hopen : openBlocks 0 body = some 0)
      (hblock : block (body ++ .char '}' :: rest) = some (body, rest))
      (hafter : Position.after .between ls = Position.after .between rest)

theorem Begins.onward {ls : List Lexeme} (h : Begins ls) : Onward ls := by
  cases hcut : cut endsHead ls with
  | none =>
    obtain ⟨brackets, hend⟩ := after_of_cut_none hcut
    exact .head hcut (h.after_eq.trans hend)
  | some found =>
    obtain ⟨head, c, rest⟩ := found
    obtain ⟨heq, hscan, hstops⟩ := partsAt_of_cut hcut
    have hafter := h.after_eq.trans (after_of_cut hcut)
    have hends : c = '{' ∨ c = ';' := by simpa [endsHead] using hstops.stops
    rcases hends with rfl | rfl
    · rw [if_neg (by decide)] at hafter
      cases hblock : block rest with
      | none =>
        obtain ⟨blocks, hend⟩ := after_of_block_none hblock
        exact .unclosed (hafter.trans hend)
      | some found =>
        obtain ⟨body, after⟩ := found
        obtain ⟨own, hbody, rfl, hopen⟩ := openBlocks_of_block hblock
        obtain rfl : body = own := hbody
        exact .block heq hscan hopen hblock (hafter.trans (after_of_block hblock))
    · rw [if_pos rfl] at hafter
      exact .statement heq hscan hafter

/-- **A clean row behind which a part may begin is finished.** -/
theorem finished_of_between {ls : List Lexeme} (hclean : Clean ls)
    (h : Position.after .between ls = .between) : Finished ls := by
  -- over the length: what follows a part is shorter than the row
  induction hn : ls.length using Nat.strong_induction_on generalizing ls with
  | _ n ih =>
    subst hn
    rcases hclean.begins_cases with rfl | ⟨t, tail, rfl⟩ | ⟨c, tail, rfl, hc⟩ | hbegins
    · exact .nil
    · exact .comment t (ih tail.length (by simp) hclean.of_cons h rfl)
    · have hpast : Position.past .between (.char c) = .between := if_pos hc
      rw [after_cons, hpast] at h
      exact .blank hc (ih tail.length (by simp) hclean.of_cons h rfl)
    · cases hbegins.onward with
      | head _ hend => cases hend.symm.trans h
      | unclosed hend => cases hend.symm.trans h
      | @statement head rest heq hscan hafter =>
        subst heq
        have hclean' : Clean rest := hclean.stretch ⟨head ++ [.char ';'], [], by simp⟩
        exact .statement hbegins hscan
          (ih rest.length (by simp; omega) hclean' (hafter.symm.trans h) rfl)
      | @block head body rest heq hscan hopen _ hafter =>
        subst heq
        have hclean' : Clean rest :=
          hclean.stretch ⟨head ++ .char '{' :: (body ++ [.char '}']), [], by simp⟩
        exact .block hbegins hscan hopen
          (ih rest.length (by simp; omega) hclean' (hafter.symm.trans h) rfl)

/-! ## §4. Parts of a row with another one behind it. -/

theorem parts_comment (t : List Char) (rest : List Lexeme) :
    parts (.comment t :: rest) = (do .ok (.copied t :: (← parts rest))) := by rw [parts]

/-- Whether a row begins with a part is seen from its first lexeme. -/
theorem Begins.append {ls : List Lexeme} (h : Begins ls) (ms : List Lexeme) :
    Begins (ls ++ ms) := by
  obtain ⟨l, tail, rfl, hl⟩ := h
  exact ⟨l, tail ++ ms, rfl, hl⟩

/-- Lists that are found one after the other. -/
def joined {α : Type} (x y : Except Fault (List α)) : Except Fault (List α) := do
  let as ← x
  let bs ← y
  .ok (as ++ bs)

/-- Something in front of lists that are found one after the other. -/
theorem cons_joined {α : Type} (first : Except Fault α) (x y : Except Fault (List α)) :
    (do let a ← first; .ok (a :: (← joined x y)))
      = joined (do let a ← first; .ok (a :: (← x))) y := by
  cases first with
  | error e => rfl
  | ok a =>
    cases x with
    | error e => rfl
    | ok as => cases y <;> rfl

/-- **The parts of a finished row with another one behind it** are those of the two. -/
theorem parts_append {ls : List Lexeme} (h : Finished ls) (ms : List Lexeme) :
    parts (ls ++ ms) = joined (parts ls) (parts ms) := by
  induction h with
  | nil =>
    rw [List.nil_append, parts]
    cases parts ms <;> rfl
  | comment t _ ih =>
    rw [List.cons_append, parts_comment, parts_comment, ih]
    exact cons_joined (.ok (Part.copied t)) _ _
  | @blank c rest hblank _ ih =>
    rw [List.cons_append, parts_blank hblank, parts_blank hblank, ih]
    exact cons_joined (.ok (Part.copied [c])) _ _
  | @statement head rest hbegins hhead _ ih =>
    have hcut := cut_of_scan hhead stops_semicolon rest
    rw [parts_statement (hbegins.append ms) (cut_append hcut ms), parts_statement hbegins hcut, ih]
    exact cons_joined (.ok (Part.copied (textOf head ++ [';']))) _ _
  | @block head body rest hbegins hhead hbody _ ih =>
    have hcut := cut_of_scan hhead stops_brace (body ++ .char '}' :: rest)
    have hblock := block_of_openBlocks_eq hbody rest
    rw [parts_block (hbegins.append ms) (cut_append hcut ms) (block_append hblock ms),
      parts_block hbegins hcut hblock, ih]
    exact cons_joined (blockPart head body) _ _

/-! ## §5. Complete stylesheets. -/

/-- A stylesheet that is read to its end: every string and every comment in it is closed, and a new
part may begin behind it, so no bracket, no block and no other text is left open. -/
structure Complete (css : String) : Prop where
  closed : ∀ l ∈ lexemes css.toList, l.isWhole = true
  ended : Position.after .between (lexemes css.toList) = .between

theorem Complete.finished {css : String} (h : Complete css) : Finished (lexemes css.toList) :=
  finished_of_between (clean_lexemes h.closed) h.ended

/-- No part ends with a slash. -/
theorem past_slash (place : Position) : place.past (.char '/') ≠ .between := by
  cases place with
  | between => decide
  | head brackets => simp [Position.past, Position.pastHead, opensBracket, closesBracket, endsHead]
  | inside blocks => simp [Position.past, Position.pastBlock]

theorem Complete.getLast? {css : String} (h : Complete css) :
    (lexemes css.toList).getLast? ≠ some (.char '/') := by
  intro hlast
  obtain ⟨init, hinit⟩ := List.getLast?_eq_some_iff.mp hlast
  have hended := h.ended
  rw [hinit, Position.after, List.foldl_append] at hended
  exact past_slash _ hended

theorem Complete.lexemes_append {a : String} (h : Complete a) (b : String) :
    lexemes (a ++ b).toList = lexemes a.toList ++ lexemes b.toList := by
  rw [String.toList_append, Stylesheet.lexemes_append h.closed h.getLast?]

/-- A complete stylesheet can be confined. -/
theorem Complete.exists_confined {a : String} (h : Complete a) (scope : String) :
    ∃ out, confined scope a = .ok out := by
  rw [confined_ok_iff, Closes, h.ended]
  exact fun _ => Position.noConfusion

theorem confineAll_append (scope : List Char) (ps qs : List Part) :
    confineAll scope (ps ++ qs) = confineAll scope ps ++ confineAll scope qs := by
  induction ps with
  | nil => rfl
  | cons p ps ih => rw [List.cons_append, confineAll, confineAll, ih, List.cons_append]

theorem printAll_append (ps qs : List Part) : printAll (ps ++ qs) = printAll ps ++ printAll qs := by
  induction ps with
  | nil => rfl
  | cons p ps ih => rw [List.cons_append, printAll, printAll, ih, List.append_assoc]

/-- **A stylesheet behind a complete one is confined as it is alone.** -/
theorem confined_append (scope : String) {a : String} (h : Complete a) (b : String) :
    confined scope (a ++ b) = (do
      let x ← confined scope a
      let y ← confined scope b
      .ok (x ++ y)) := by
  unfold confined
  rw [h.lexemes_append, parts_append h.finished]
  cases parts (lexemes a.toList) with
  | error e => rfl
  | ok ps =>
    cases parts (lexemes b.toList) with
    | error e => rfl
    | ok qs =>
      show Except.ok (String.ofList (printAll (confineAll scope.toList (ps ++ qs)))) = _
      rw [confineAll_append, printAll_append, String.ofList_append]
      rfl

end ControlSurface.Stylesheet
