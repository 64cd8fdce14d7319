/-
  ControlSurface.Proofs.Stylesheet.Closing
  ────────────────────────────────────────
  Which stylesheets can be confined.  A sheet is passed once, from part to part: between parts, in
  the head of a part, or inside a block (`Position`).  It has parts exactly when it does not end inside
  a block (`parts_ok_iff`); a block inside a block is never left open, since the braces in the body
  of a block are balanced (`parts_of_paired`).
-/
import ControlSurface.Proofs.Fault.Outcome
import ControlSurface.Proofs.Stylesheet.Nesting
import ControlSurface.Stylesheet.Scope

namespace ControlSurface.Stylesheet

open ControlSurface.Outcome ControlSurface.Text

/-! ## §1. Passing a sheet. -/

/-- Where a place in a stylesheet lies: between parts, in the head of a part behind some open
brackets, or inside a block and some open blocks of it. -/
inductive Position where
  | between
  | head (brackets : Nat)
  | inside (blocks : Nat)
  deriving DecidableEq

/-- Past a character in the head of a part. -/
def Position.pastHead (brackets : Nat) (c : Char) : Position :=
  if opensBracket c then .head (brackets + 1)
  else if closesBracket c then .head (brackets - 1)
  else if brackets = 0 ∧ endsHead c then if c = ';' then .between else .inside 0
  else .head brackets

/-- Past a character inside a block. -/
def Position.pastBlock (blocks : Nat) (c : Char) : Position :=
  if c = '{' then .inside (blocks + 1)
  else if c = '}' then
    match blocks with
    | 0 => .between
    | inner + 1 => .inside inner
  else .inside blocks

/-- The place past a lexeme. -/
def Position.past : Position → Lexeme → Position
  | .between, .comment _ => .between
  | .between, .quoted t => if allBlank t then .between else .head 0
  | .between, .char c => if isBlank c then .between else Position.pastHead 0 c
  | .head brackets, .char c => Position.pastHead brackets c
  | .inside blocks, .char c => Position.pastBlock blocks c
  | place, _ => place

/-- The place past a row of lexemes. -/
def Position.after (place : Position) (ls : List Lexeme) : Position := ls.foldl Position.past place

/-- A row that does not end inside a block. -/
def Closes (ls : List Lexeme) : Prop := ∀ blocks, Position.after .between ls ≠ .inside blocks

theorem after_cons (place : Position) (l : Lexeme) (ls : List Lexeme) :
    place.after (l :: ls) = (place.past l).after ls := rfl

/-- Text that is no white space begins the head of a part. -/
theorem after_begins {l : Lexeme} (hcomment : ∀ t, l = .comment t → False)
    (hblank : ¬ allBlank l.text = true) (ls : List Lexeme) :
    Position.after .between (l :: ls) = Position.after (.head 0) (l :: ls) := by
  rw [after_cons, after_cons]
  refine congrArg (fun place => Position.after place ls) ?_
  cases l with
  | char c => exact if_neg (by simpa [allBlank, Lexeme.text] using hblank)
  | quoted t => exact if_neg hblank
  | comment t => exact (hcomment t rfl).elim

/-- White space leaves the place between parts. -/
theorem past_blank {l : Lexeme} (h : allBlank l.text = true) :
    Position.past .between l = .between := by
  cases l with
  | char c => exact if_pos (by simpa [allBlank, Lexeme.text] using h)
  | quoted t => exact if_pos h
  | comment t => rfl

theorem after_head_char (brackets : Nat) (c : Char) (ls : List Lexeme) :
    Position.after (.head brackets) (.char c :: ls)
      = Position.after
          (if opensBracket c then .head (brackets + 1)
          else if closesBracket c then .head (brackets - 1)
          else if brackets = 0 ∧ endsHead c then if c = ';' then .between else .inside 0
          else .head brackets) ls := rfl

theorem cutFrom_char (stop : Char → Bool) (read : List Lexeme) (brackets : Nat) (c : Char)
    (ls : List Lexeme) :
    cutFrom stop read brackets (.char c :: ls)
      = if opensBracket c then cutFrom stop (.char c :: read) (brackets + 1) ls
        else if closesBracket c then cutFrom stop (.char c :: read) (brackets - 1) ls
        else if brackets = 0 ∧ stop c then some (read.reverse, c, ls)
        else cutFrom stop (.char c :: read) brackets ls := rfl

theorem after_inside_char (blocks : Nat) (c : Char) (ls : List Lexeme) :
    Position.after (.inside blocks) (.char c :: ls)
      = Position.after
          (if c = '{' then .inside (blocks + 1)
          else if c = '}' then
            match blocks with
            | 0 => .between
            | inner + 1 => .inside inner
          else .inside blocks) ls := rfl

/-- A head that does not end is passed to the end of the row. -/
theorem after_of_cut_none {read ls : List Lexeme} {brackets : Nat}
    (h : cutFrom endsHead read brackets ls = none) :
    ∃ open', Position.after (.head brackets) ls = .head open' := by
  induction ls generalizing read brackets with
  | nil => exact ⟨brackets, rfl⟩
  | cons l ls ih =>
    cases l with
    | char c =>
      rw [cutFrom_char] at h
      rw [after_head_char]
      split at h
      next hopen =>
        rw [if_pos hopen]
        exact ih h
      next hopen =>
        rw [if_neg hopen]
        split at h
        next hclose =>
          rw [if_pos hclose]
          exact ih h
        next hclose =>
          rw [if_neg hclose]
          split at h
          · cases h
          next hends =>
            rw [if_neg hends]
            exact ih h
    | quoted t => exact ih h
    | comment t => exact ih h

/-- A head that ends leads between parts, or into a block. -/
theorem after_of_cut {read ls head rest : List Lexeme} {brackets : Nat} {c : Char}
    (h : cutFrom endsHead read brackets ls = some (head, c, rest)) :
    Position.after (.head brackets) ls
      = Position.after (if c = ';' then .between else .inside 0) rest := by
  induction ls generalizing read brackets with
  | nil => cases h
  | cons l ls ih =>
    cases l with
    | char d =>
      rw [cutFrom_char] at h
      rw [after_head_char]
      split at h
      next hopen =>
        rw [if_pos hopen]
        exact ih h
      next hopen =>
        rw [if_neg hopen]
        split at h
        next hclose =>
          rw [if_pos hclose]
          exact ih h
        next hclose =>
          rw [if_neg hclose]
          split at h
          next hends =>
            rw [if_pos hends]
            cases h
            rfl
          next hends =>
            rw [if_neg hends]
            exact ih h
    | quoted t => exact ih h
    | comment t => exact ih h

/-- A block without an end is passed to the end of the row. -/
theorem after_of_block_none {read ls : List Lexeme} {blocks : Nat}
    (h : blockFrom read blocks ls = none) :
    ∃ open', Position.after (.inside blocks) ls = .inside open' := by
  induction ls generalizing read blocks with
  | nil => exact ⟨blocks, rfl⟩
  | cons l ls ih =>
    cases l with
    | char c =>
      rw [blockFrom_char] at h
      rw [after_inside_char]
      split at h
      next hopen =>
        rw [if_pos hopen]
        exact ih h
      next hopen =>
        rw [if_neg hopen]
        split at h
        next hclose =>
          rw [if_pos hclose]
          cases blocks with
          | zero => cases h
          | succ inner => exact ih h
        next hclose =>
          rw [if_neg hclose]
          exact ih h
    | quoted t => exact ih h
    | comment t => exact ih h

/-- A block that ends leads between parts. -/
theorem after_of_block {read ls body rest : List Lexeme} {blocks : Nat}
    (h : blockFrom read blocks ls = some (body, rest)) :
    Position.after (.inside blocks) ls = Position.after .between rest := by
  induction ls generalizing read blocks with
  | nil => cases h
  | cons l ls ih =>
    cases l with
    | char c =>
      rw [blockFrom_char] at h
      rw [after_inside_char]
      split at h
      next hopen =>
        rw [if_pos hopen]
        exact ih h
      next hopen =>
        rw [if_neg hopen]
        split at h
        next hclose =>
          rw [if_pos hclose]
          cases blocks with
          | zero =>
            cases h
            rfl
          | succ inner => exact ih h
        next hclose =>
          rw [if_neg hclose]
          exact ih h
    | quoted t => exact ih h
    | comment t => exact ih h

/-! ## §2. The body of a block. -/

/-- Every brace that is opened in a row is closed in it. -/
def Paired (ls : List Lexeme) : Prop :=
  ∀ before rest, ls = before ++ .char '{' :: rest → ∃ found, block rest = some found

theorem Paired.suffix {ls ms : List Lexeme} (h : Paired (ls ++ ms)) : Paired ms := by
  intro before rest heq
  exact h (ls ++ before) rest (by rw [heq, List.append_assoc])

/-- How many blocks are open after a row, unless it closes more than were open before it. -/
def openBlocks : Nat → List Lexeme → Option Nat
  | blocks, [] => some blocks
  | blocks, .char c :: ls =>
    if c = '{' then openBlocks (blocks + 1) ls
    else if c = '}' then
      match blocks with
      | 0 => none
      | inner + 1 => openBlocks inner ls
    else openBlocks blocks ls
  | blocks, _ :: ls => openBlocks blocks ls

theorem openBlocks_append (blocks : Nat) (ls ms : List Lexeme) :
    openBlocks blocks (ls ++ ms) = (openBlocks blocks ls).bind fun n => openBlocks n ms := by
  induction ls generalizing blocks with
  | nil => rfl
  | cons l ls ih =>
    cases l with
    | char c =>
      simp only [List.cons_append, openBlocks]
      split
      · exact ih _
      · split
        · cases blocks with
          | zero => rfl
          | succ inner => exact ih inner
        · exact ih _
    | quoted t => exact ih blocks
    | comment t => exact ih blocks

/-- A block is its body, which leaves as many blocks open as it found, and a brace. -/
theorem openBlocks_of_block {read ls body rest : List Lexeme} {blocks : Nat}
    (h : blockFrom read blocks ls = some (body, rest)) :
    ∃ own, body = read.reverse ++ own ∧ ls = own ++ .char '}' :: rest
      ∧ openBlocks blocks own = some 0 := by
  induction ls generalizing read blocks with
  | nil => cases h
  | cons l ls ih =>
    have hskip : ∀ {n : Nat}, blockFrom (l :: read) n ls = some (body, rest) →
        (∀ own, openBlocks blocks (l :: own) = openBlocks n own) →
        ∃ own, body = read.reverse ++ own ∧ l :: ls = own ++ .char '}' :: rest
          ∧ openBlocks blocks own = some 0 := by
      intro n hrest hstep
      obtain ⟨own, hbody, hls, hown⟩ := ih hrest
      refine ⟨l :: own, ?_, by rw [hls, List.cons_append], by rw [hstep, hown]⟩
      rw [hbody, List.reverse_cons, List.append_assoc]
      rfl
    cases l with
    | char c =>
      rw [blockFrom_char] at h
      split at h
      next hopen => exact hskip h fun own => if_pos hopen
      next hopen =>
        split at h
        next hclose =>
          cases blocks with
          | zero =>
            cases h
            exact ⟨[], (List.append_nil _).symm, by rw [hclose]; rfl, rfl⟩
          | succ inner => exact hskip h fun own => (if_neg hopen).trans (if_pos hclose)
        next hclose => exact hskip h fun own => (if_neg hopen).trans (if_neg hclose)
    | quoted t => exact hskip h fun own => rfl
    | comment t => exact hskip h fun own => rfl

/-- A row after which fewer blocks are open than before it closes one of them. -/
theorem block_of_openBlocks {ls : List Lexeme} {outer inner n : Nat}
    (h : openBlocks (outer + 1 + inner) ls = some n) (hn : n ≤ outer) (read : List Lexeme) :
    ∃ found, blockFrom read inner ls = some found := by
  induction ls generalizing inner read with
  | nil =>
    have hsame : outer + 1 + inner = n := Option.some.inj h
    omega
  | cons l ls ih =>
    cases l with
    | char c =>
      simp only [openBlocks] at h
      rw [blockFrom_char]
      split at h
      next hopen =>
        rw [if_pos hopen]
        exact ih h _
      next hopen =>
        rw [if_neg hopen]
        split at h
        next hclose =>
          rw [if_pos hclose]
          cases inner with
          | zero => exact ⟨_, rfl⟩
          | succ inner => exact ih h _
        next hclose =>
          rw [if_neg hclose]
          exact ih h _
    | quoted t => exact ih h _
    | comment t => exact ih h _

/-- A block is its body, in which every brace is closed, and a brace. -/
theorem paired_of_block {ls body rest : List Lexeme} (h : block ls = some (body, rest)) :
    ls = body ++ .char '}' :: rest ∧ Paired body := by
  obtain ⟨own, hbody, hls, hopen⟩ := openBlocks_of_block h
  rw [List.reverse_nil, List.nil_append] at hbody
  subst hbody
  refine ⟨hls, ?_⟩
  rintro before after rfl
  rw [openBlocks_append] at hopen
  obtain ⟨outer, _, hafter⟩ := Option.bind_eq_some_iff.mp hopen
  exact @block_of_openBlocks _ outer 0 0 hafter (Nat.zero_le outer) []

/-! ## §3. Sheets that have parts. -/

/-- What ends a head and is no semicolon opens a block. -/
theorem brace_of_cut {ls head rest : List Lexeme} {c : Char}
    (h : cut endsHead ls = some (head, c, rest)) (hc : ¬ c = ';') :
    ls = head ++ .char '{' :: rest := by
  obtain ⟨heq, _, hstops⟩ := partsAt_of_cut h
  have hends : c = '{' ∨ c = ';' := by simpa [endsHead] using hstops.stops
  rw [heq, hends.resolve_right hc]

theorem Paired.after_block {ls head rest body after : List Lexeme} (h : Paired ls)
    (hls : ls = head ++ .char '{' :: rest) (hblock : block rest = some (body, after)) :
    Paired after := by
  obtain ⟨hrest, _⟩ := paired_of_block hblock
  rw [hls, hrest] at h
  have hsplit : head ++ .char '{' :: (body ++ .char '}' :: after)
      = (head ++ .char '{' :: (body ++ [.char '}'])) ++ after := by simp
  rw [hsplit] at h
  exact h.suffix

/-- **A row in which all braces are closed has parts.** -/
theorem parts_of_paired {ls : List Lexeme} (h : Paired ls) : ∃ ps, parts ls = .ok ps := by
  fun_induction parts ls
  case case1 => exact ⟨[], rfl⟩
  case case2 t rest ih => exact exists_map_iff.mpr (ih (@Paired.suffix [_] _ h))
  case case3 l tail _ _ ih => exact exists_map_iff.mpr (ih (@Paired.suffix [_] _ h))
  case case4 => exact ⟨_, rfl⟩
  case case5 l tail _ _ head rest hcut _ ih =>
    obtain ⟨hls, _, _⟩ := partsAt_of_cut hcut
    rw [hls, List.append_cons] at h
    exact exists_map_iff.mpr (ih h.suffix)
  case case6 l tail _ _ head c rest hcut hc hblock =>
    obtain ⟨found, hfound⟩ := h head rest (brace_of_cut hcut hc)
    rw [hblock] at hfound
    cases hfound
  case case7 l tail _ _ head c rest hcut hc body after hblock _ _ _ prelude jp _ ih =>
    exact exists_map_iff.mpr (ih (h.after_block (brace_of_cut hcut hc) hblock))
  case case8 l tail _ _ head c rest hcut hc body after hblock _ _ _ prelude jp _ _ ihafter ihbody =>
    obtain ⟨inner, hinner⟩ := ihbody (paired_of_block hblock).2
    rw [hinner]
    exact exists_map_iff.mpr (ihafter (h.after_block (brace_of_cut hcut hc) hblock))
  case case9 l tail _ _ head c rest hcut hc body after hblock _ _ _ prelude jp _ _ ih =>
    exact exists_map_iff.mpr (ih (h.after_block (brace_of_cut hcut hc) hblock))

/-- Behind a block that ends, a sheet closes if what follows the block does. -/
theorem closes_block_iff {l : Lexeme} {tail head rest body after : List Lexeme} {c : Char}
    (hcomment : ∀ t, l = .comment t → False) (hblank : ¬ allBlank l.text = true)
    (hcut : cut endsHead (l :: tail) = some (head, c, rest)) (hc : ¬ c = ';')
    (hblock : block rest = some (body, after)) : Closes (l :: tail) ↔ Closes after := by
  unfold Closes
  rw [after_begins hcomment hblank, after_of_cut hcut, if_neg hc, after_of_block hblock]

/-- **A sheet has parts exactly when it does not end inside a block.** -/
theorem parts_ok_iff (ls : List Lexeme) : (∃ ps, parts ls = .ok ps) ↔ Closes ls := by
  fun_induction parts ls
  case case1 => exact iff_of_true ⟨[], rfl⟩ (by simp [Closes, Position.after])
  case case2 t rest ih => exact exists_map_iff.trans ih
  case case3 l tail _ hblank ih =>
    rw [exists_map_iff, ih, Closes, Closes, after_cons, past_blank hblank]
  case case4 l tail hcomment hblank hcut =>
    obtain ⟨brackets, hend⟩ := after_of_cut_none hcut
    refine iff_of_true ⟨_, rfl⟩ fun blocks => ?_
    rw [after_begins hcomment hblank, hend]
    exact Position.noConfusion
  case case5 l tail hcomment hblank head rest hcut _ ih =>
    rw [exists_map_iff, ih, Closes, Closes, after_begins hcomment hblank, after_of_cut hcut,
      if_pos rfl]
  case case6 l tail hcomment hblank head c rest hcut hc hblock =>
    obtain ⟨blocks, hend⟩ := after_of_block_none hblock
    refine iff_of_false (fun ⟨ps, hps⟩ => by cases hps) fun hcloses => hcloses blocks ?_
    rw [after_begins hcomment hblank, after_of_cut hcut, if_neg hc, hend]
  case case7 l tail hcomment hblank head c rest hcut hc body after hblock _ _ _ prelude jp _ ih =>
    rw [closes_block_iff hcomment hblank hcut hc hblock, ← ih]
    exact exists_map_iff
  case case8 l tail hcomment hblank head c rest hcut hc body after hblock _ _ _ prelude jp _ _ ih _ =>
    obtain ⟨inner, hinner⟩ := parts_of_paired (paired_of_block hblock).2
    rw [closes_block_iff hcomment hblank hcut hc hblock, ← ih, hinner]
    exact exists_map_iff
  case case9 l tail hcomment hblank head c rest hcut hc body after hblock _ _ _ prelude jp _ _ ih =>
    rw [closes_block_iff hcomment hblank hcut hc hblock, ← ih]
    exact exists_map_iff

/-- **A stylesheet can be confined exactly when it does not end inside a block.** -/
theorem confined_ok_iff (scope css : String) :
    (∃ out, confined scope css = .ok out) ↔ Closes (lexemes css.toList) := by
  rw [← parts_ok_iff]
  exact exists_map_iff

end ControlSurface.Stylesheet
