/-
  ControlSurface.Proofs.Stylesheet.Nesting
  ────────────────────────────────────────
  Brackets and braces in rows of lexemes.  A cut looks at brackets only and a block at braces only;
  where both are balanced together (`Balanced`) they agree: what lies before a cut is balanced
  (`balanced_of_scan`), and a brace that was opened has its block (`block_of_nest`).
-/
import ControlSurface.Stylesheet.Lexeme

namespace ControlSurface.Stylesheet

/-! ## §1. Cuts. -/

/-- The depth of brackets after a row in which a cut finds nothing to stop at. -/
def scan (stop : Char → Bool) : Nat → List Lexeme → Option Nat
  | depth, [] => some depth
  | depth, .char c :: ls =>
    if opensBracket c then scan stop (depth + 1) ls
    else if closesBracket c then scan stop (depth - 1) ls
    else if depth = 0 ∧ stop c then none
    else scan stop depth ls
  | depth, .quoted _ :: ls => scan stop depth ls
  | depth, .comment _ :: ls => scan stop depth ls

theorem scan_append (stop : Char → Bool) (depth : Nat) (ls ms : List Lexeme) :
    scan stop depth (ls ++ ms) = (scan stop depth ls).bind fun d => scan stop d ms := by
  induction ls generalizing depth with
  | nil => rfl
  | cons l ls ih =>
    cases l with
    | char c =>
      simp only [List.cons_append, scan]
      split
      · exact ih _
      · split
        · exact ih _
        · split
          · rfl
          · exact ih _
    | quoted t => exact ih depth
    | comment t => exact ih depth

/-- A cut goes on after a row in which it finds nothing. -/
theorem cutFrom_append {stop : Char → Bool} {depth d : Nat} {read ls : List Lexeme}
    (h : scan stop depth ls = some d) (ms : List Lexeme) :
    cutFrom stop read depth (ls ++ ms) = cutFrom stop (ls.reverse ++ read) d ms := by
  induction ls generalizing depth read with
  | nil =>
    cases h
    rfl
  | cons l ls ih =>
    cases l with
    | char c =>
      simp only [scan] at h
      simp only [List.cons_append, cutFrom]
      split
      next hopen =>
        rw [if_pos hopen] at h
        rw [ih h]
        simp
      next hopen =>
        rw [if_neg hopen] at h
        split
        next hclose =>
          rw [if_pos hclose] at h
          rw [ih h]
          simp
        next hclose =>
          rw [if_neg hclose] at h
          split
          next hstop =>
            rw [if_pos hstop] at h
            cases h
          next hstop =>
            rw [if_neg hstop] at h
            rw [ih h]
            simp
    | quoted t =>
      simp only [List.cons_append, cutFrom]
      rw [ih h]
      simp
    | comment t =>
      simp only [List.cons_append, cutFrom]
      rw [ih h]
      simp

/-- A character at which a cut may be made. -/
structure Stops (stop : Char → Bool) (c : Char) : Prop where
  stops : stop c = true
  opens : opensBracket c = false
  closes : closesBracket c = false

theorem cut_of_scan {stop : Char → Bool} {head : List Lexeme} {c : Char}
    (h : scan stop 0 head = some 0) (hc : Stops stop c) (rest : List Lexeme) :
    cut stop (head ++ .char c :: rest) = some (head, c, rest) := by
  -- the cut passes the head at depth zero and then sees the character
  rw [cut, cutFrom_append h]
  simp [cutFrom, hc.stops, hc.opens, hc.closes]

theorem cut_eq_none {stop : Char → Bool} {ls : List Lexeme} {d : Nat}
    (h : scan stop 0 ls = some d) : cut stop ls = none := by
  have hcut : cutFrom stop [] 0 (ls ++ []) = _ := cutFrom_append h []
  rw [List.append_nil] at hcut
  rw [cut, hcut, cutFrom]

/-- A row parted at a character, with nothing to stop at before it. -/
structure PartsAt (stop : Char → Bool) (depth : Nat) (ls head rest : List Lexeme) (c : Char) :
    Prop where
  eq : ls = head ++ .char c :: rest
  scan : scan stop depth head = some 0
  stops : Stops stop c

theorem PartsAt.cons {stop : Char → Bool} {depth d : Nat} {l : Lexeme} {ls head rest : List Lexeme}
    {c : Char} (h : PartsAt stop d ls head rest c)
    (hstep : ∀ ms, Stylesheet.scan stop depth (l :: ms) = Stylesheet.scan stop d ms) :
    PartsAt stop depth (l :: ls) (l :: head) rest c := by
  refine ⟨?_, ?_, h.stops⟩
  · rw [h.eq, List.cons_append]
  · rw [hstep, h.scan]

theorem cutFrom_eq_some {stop : Char → Bool} {read ls head rest : List Lexeme} {depth : Nat}
    {c : Char} (h : cutFrom stop read depth ls = some (head, c, rest)) :
    ∃ ms, head = read.reverse ++ ms ∧ PartsAt stop depth ls ms rest c := by
  induction ls generalizing read depth with
  | nil => simp [cutFrom] at h
  | cons l ls ih =>
    -- every step but the last one moves a lexeme to the head
    have hskip : ∀ {d : Nat}, cutFrom stop (l :: read) d ls = some (head, c, rest) →
        (∀ ms, scan stop depth (l :: ms) = scan stop d ms) →
        ∃ ms, head = read.reverse ++ ms ∧ PartsAt stop depth (l :: ls) ms rest c := by
      intro d hrest hstep
      obtain ⟨ms, hhead, hms⟩ := ih hrest
      exact ⟨l :: ms, by simpa using hhead, hms.cons hstep⟩
    cases l with
    | char d =>
      rw [cutFrom] at h
      split at h
      next hopen => exact hskip h fun ms => by rw [scan, if_pos hopen]
      next hopen =>
        split at h
        next hclose => exact hskip h fun ms => by rw [scan, if_neg hopen, if_pos hclose]
        next hclose =>
          split at h
          next hstop =>
            cases h
            refine ⟨[], by simp, rfl, ?_, hstop.2, by simpa using hopen, by simpa using hclose⟩
            rw [scan, hstop.1]
          next hstop =>
            exact hskip h fun ms => by rw [scan, if_neg hopen, if_neg hclose, if_neg hstop]
    | quoted t => exact hskip h fun ms => rfl
    | comment t => exact hskip h fun ms => rfl

/-- **What a cut finds**: a row in which there is nothing to stop at, and a character to stop at. -/
theorem partsAt_of_cut {stop : Char → Bool} {ls head rest : List Lexeme} {c : Char}
    (h : cut stop ls = some (head, c, rest)) : PartsAt stop 0 ls head rest c := by
  obtain ⟨ms, hhead, hms⟩ := cutFrom_eq_some h
  rw [hhead]
  exact hms

theorem scan_of_cut_none {stop : Char → Bool} {read ls : List Lexeme} {depth : Nat}
    (h : cutFrom stop read depth ls = none) : ∃ d, scan stop depth ls = some d := by
  induction ls generalizing read depth with
  | nil => exact ⟨depth, rfl⟩
  | cons l ls ih =>
    cases l with
    | char c =>
      rw [cutFrom] at h
      rw [scan]
      split at h
      next hopen =>
        rw [if_pos hopen]
        exact ih h
      next hopen =>
        rw [if_neg hopen]
        split at h
        next hclose =>
          rw [if_pos hclose]
          exact ih h
        next hclose =>
          rw [if_neg hclose]
          split at h
          next => cases h
          next hstop =>
            rw [if_neg hstop]
            exact ih h
    | quoted t => exact ih h
    | comment t => exact ih h

/-- The depth of brackets does not depend on where a cut may stop. -/
theorem scan_depth {stop stop' : Char → Bool} {depth d d' : Nat} {ls : List Lexeme}
    (h : scan stop depth ls = some d) (h' : scan stop' depth ls = some d') : d = d' := by
  -- both scans take the same brackets, and neither stops
  induction ls generalizing depth with
  | nil =>
    cases h
    cases h'
    rfl
  | cons l ls ih =>
    cases l with
    | char c =>
      rw [scan] at h h'
      split at h
      next hopen =>
        rw [if_pos hopen] at h'
        exact ih h h'
      next hopen =>
        rw [if_neg hopen] at h'
        split at h
        next hclose =>
          rw [if_pos hclose] at h'
          exact ih h h'
        next hclose =>
          rw [if_neg hclose] at h'
          split at h
          next => cases h
          next =>
            split at h'
            next => cases h'
            next => exact ih h h'
    | quoted t => exact ih h h'
    | comment t => exact ih h h'

/-! ## §2. Balance. -/

/-- What closes what a character opens. -/
def closer? (c : Char) : Option Char :=
  match c with
  | '(' => some ')'
  | '[' => some ']'
  | '{' => some '}'
  | _ => none

/-- Whether a character closes brackets or a block. -/
def closes (c : Char) : Bool := closesBracket c || c = '}'

/-- What is still to be closed after a character, the innermost first; none if it closes what was
not opened. -/
def nestChar (due : List Char) (c : Char) : Option (List Char) :=
  match closer? c with
  | some d => some (d :: due)
  | none =>
    if closes c then
      match due with
      | d :: rest => if d = c then some rest else none
      | [] => none
    else some due

/-- What is still to be closed after a row. -/
def nest : List Char → List Lexeme → Option (List Char)
  | due, [] => some due
  | due, .char c :: ls => (nestChar due c).bind fun d => nest d ls
  | due, .quoted _ :: ls => nest due ls
  | due, .comment _ :: ls => nest due ls

/-- Brackets and braces are closed in the order in which they were opened. -/
def Balanced (ls : List Lexeme) : Prop := nest [] ls = some []

theorem nest_append (due : List Char) (ls ms : List Lexeme) :
    nest due (ls ++ ms) = (nest due ls).bind fun d => nest d ms := by
  induction ls generalizing due with
  | nil => rfl
  | cons l ls ih =>
    cases l with
    | char c =>
      rw [List.cons_append, nest, nest]
      cases nestChar due c with
      | none => rfl
      | some d => exact ih d
    | quoted t => exact ih due
    | comment t => exact ih due

theorem nestChar_open {c d : Char} (h : closer? c = some d) (due : List Char) :
    nestChar due c = some (d :: due) := by
  unfold nestChar
  rw [h]

theorem nestChar_close {c : Char} (h : closer? c = none) (hc : closes c = true)
    (due : List Char) : nestChar (c :: due) c = some due := by
  unfold nestChar
  rw [h]
  simp [hc]

theorem nestChar_other {c : Char} (h : closer? c = none) (hc : closes c = false)
    (due : List Char) : nestChar due c = some due := by
  unfold nestChar
  rw [h]
  simp [hc]

/-- What a character does to what is due: it opens, closes the innermost, or does nothing. -/
theorem nestChar_cases {due due' : List Char} {c : Char} (h : nestChar due c = some due') :
    (∃ d, closer? c = some d ∧ due' = d :: due)
      ∨ (closer? c = none ∧ closes c = true ∧ due = c :: due')
      ∨ (closer? c = none ∧ closes c = false ∧ due' = due) := by
  unfold nestChar at h
  split at h
  next d hd => exact Or.inl ⟨d, hd, (Option.some.inj h).symm⟩
  next hd =>
    split at h
    next hcloses =>
      split at h
      next e rest =>
        split at h
        next heq =>
          cases h
          exact Or.inr (Or.inl ⟨hd, hcloses, by rw [heq]⟩)
        next => cases h
      next => cases h
    next hcloses => exact Or.inr (Or.inr ⟨hd, by simpa using hcloses, (Option.some.inj h).symm⟩)

theorem closer?_cases {c d : Char} (h : closer? c = some d) :
    (c = '(' ∧ d = ')') ∨ (c = '[' ∧ d = ']') ∨ (c = '{' ∧ d = '}') := by
  unfold closer? at h
  split at h <;> cases h <;> simp

theorem closes_cases {c : Char} (h : closes c = true) : c = ')' ∨ c = ']' ∨ c = '}' := by
  simpa [closes, closesBracket, or_assoc] using h

theorem Balanced.append {ls ms : List Lexeme} (hl : Balanced ls) (hm : Balanced ms) :
    Balanced (ls ++ ms) := by
  rw [Balanced, nest_append, hl]
  exact hm

/-! ## §3. What lies before a cut. -/

/-- How the brackets that a cut counts are among all that is due: they are as many, and what is due
last of all is no brace, for a cut would have stopped at it. -/
structure Counts (depth : Nat) (due : List Char) : Prop where
  brackets : due.countP closesBracket = depth
  last : due.getLast? ≠ some '}'

theorem Counts.nil : Counts 0 [] := ⟨rfl, by simp⟩

/-- At depth zero nothing is due. -/
theorem Counts.eq_nil {due : List Char} (h : Counts 0 due) (hdue : ∀ d ∈ due, closes d = true) :
    due = [] := by
  cases hlast : due.getLast? with
  | none => exact List.getLast?_eq_none_iff.mp hlast
  | some d =>
    have hmem : d ∈ due := List.mem_of_getLast? hlast
    have hbracket : ¬ closesBracket d = true := List.countP_eq_zero.mp h.brackets d hmem
    rcases closes_cases (hdue d hmem) with rfl | rfl | rfl
    · exact absurd rfl hbracket
    · exact absurd rfl hbracket
    · exact absurd hlast h.last

theorem getLast?_cons_ne {c : Char} {due : List Char} (hc : c ≠ '}')
    (h : due.getLast? ≠ some '}') : (c :: due).getLast? ≠ some '}' := by
  cases due with
  | nil => simpa using hc
  | cons d due => simpa [List.getLast?_cons_cons] using h

theorem getLast?_of_cons_ne {c : Char} {due : List Char} (h : (c :: due).getLast? ≠ some '}') :
    due.getLast? ≠ some '}' := by
  cases due with
  | nil => simp
  | cons d due => simpa [List.getLast?_cons_cons] using h

/-- A character other than a bracket leaves the depth as it is, and is nothing to stop at. -/
theorem scan_char {stop : Char → Bool} {depth d : Nat} {c : Char} (hopen : opensBracket c = false)
    (hclose : closesBracket c = false) (h : scan stop depth [.char c] = some d) :
    d = depth ∧ ¬ (depth = 0 ∧ stop c = true) := by
  simp only [scan, hopen, hclose, Bool.false_eq_true, if_false] at h
  split at h
  next => cases h
  next hstop => exact ⟨(Option.some.inj h).symm, hstop⟩

/-- Every character keeps the count of brackets. -/
theorem Counts.step {stop : Char → Bool} (hbrace : stop '{' = true) {depth d : Nat}
    {due due' : List Char} {c : Char} (h : Counts depth due)
    (hscan : scan stop depth [.char c] = some d) (hnest : nestChar due c = some due') :
    Counts d due' := by
  obtain ⟨hbrackets, hlast⟩ := h
  rcases nestChar_cases hnest with ⟨e, he, rfl⟩ | ⟨_, hcloses, rfl⟩ | ⟨hopens, hcloses, rfl⟩
  · -- something opens: a bracket counts, a brace does not
    rcases closer?_cases he with ⟨rfl, rfl⟩ | ⟨rfl, rfl⟩ | ⟨rfl, rfl⟩
    · cases hscan
      exact ⟨by rw [List.countP_cons, hbrackets]; rfl, getLast?_cons_ne (by decide) hlast⟩
    · cases hscan
      exact ⟨by rw [List.countP_cons, hbrackets]; rfl, getLast?_cons_ne (by decide) hlast⟩
    · -- a block can only begin inside brackets
      obtain ⟨hd, hstop⟩ := scan_char rfl rfl hscan
      have hdepth : depth ≠ 0 := fun h => hstop ⟨h, hbrace⟩
      subst hd
      cases due with
      | nil => exact absurd hbrackets.symm hdepth
      | cons a due =>
        refine ⟨by rw [List.countP_cons, hbrackets]; rfl, ?_⟩
        rwa [List.getLast?_cons_cons]
  · -- the innermost thing due closes
    rcases closes_cases hcloses with rfl | rfl | rfl
    · cases hscan
      rw [List.countP_cons] at hbrackets
      exact ⟨by simp [closesBracket] at hbrackets; omega, getLast?_of_cons_ne hlast⟩
    · cases hscan
      rw [List.countP_cons] at hbrackets
      exact ⟨by simp [closesBracket] at hbrackets; omega, getLast?_of_cons_ne hlast⟩
    · obtain ⟨hd, _⟩ := scan_char rfl rfl hscan
      subst hd
      rw [List.countP_cons] at hbrackets
      exact ⟨by simpa [closesBracket] using hbrackets, getLast?_of_cons_ne hlast⟩
  · -- any other character counts for nothing
    have hopen : opensBracket c = false := by
      rw [Bool.eq_false_iff]
      intro hopen
      rcases (by simpa [opensBracket] using hopen : c = '(' ∨ c = '[') with rfl | rfl <;>
        cases hopens
    have hclose : closesBracket c = false := by
      rw [closes, Bool.or_eq_false_iff] at hcloses
      exact hcloses.1
    obtain ⟨rfl, _⟩ := scan_char hopen hclose hscan
    exact ⟨hbrackets, hlast⟩

/-- Every row in which a cut finds nothing keeps the count of brackets. -/
theorem Counts.run {stop : Char → Bool} (hbrace : stop '{' = true) {ls : List Lexeme}
    {depth d : Nat} {due due' : List Char} (h : Counts depth due)
    (hscan : scan stop depth ls = some d) (hnest : nest due ls = some due') : Counts d due' := by
  induction ls generalizing depth due with
  | nil =>
    cases hscan
    cases hnest
    exact h
  | cons l ls ih =>
    cases l with
    | char c =>
      -- the step is the first character as a row of its own
      have hsplit := scan_append stop depth [.char c] ls
      rw [List.singleton_append, hscan] at hsplit
      obtain ⟨e, he, hrest⟩ := Option.bind_eq_some_iff.mp hsplit.symm
      obtain ⟨due₁, hdue₁, hrest'⟩ := Option.bind_eq_some_iff.mp hnest
      exact ih (h.step hbrace he hdue₁) hrest hrest'
    | quoted t => exact ih h hscan hnest
    | comment t => exact ih h hscan hnest

/-- Only what closes something is ever due. -/
theorem nest_closes {ls : List Lexeme} {due due' : List Char}
    (hdue : ∀ d ∈ due, closes d = true) (h : nest due ls = some due') :
    ∀ d ∈ due', closes d = true := by
  induction ls generalizing due with
  | nil =>
    cases h
    exact hdue
  | cons l ls ih =>
    cases l with
    | char c =>
      obtain ⟨due₁, hdue₁, hrest⟩ := Option.bind_eq_some_iff.mp h
      refine ih ?_ hrest
      rcases nestChar_cases hdue₁ with ⟨e, he, rfl⟩ | ⟨_, _, rfl⟩ | ⟨_, _, rfl⟩
      · intro d hd
        rcases List.mem_cons.mp hd with rfl | hd
        · rcases closer?_cases he with ⟨_, rfl⟩ | ⟨_, rfl⟩ | ⟨_, rfl⟩ <;> rfl
        · exact hdue d hd
      · exact fun d hd => hdue d (List.mem_cons_of_mem c hd)
      · exact hdue
    | quoted t => exact ih hdue h
    | comment t => exact ih hdue h

/-- **What lies before a cut is balanced**, if it can be part of a balanced row. -/
theorem balanced_of_scan {stop : Char → Bool} (hbrace : stop '{' = true) {ls : List Lexeme}
    {due : List Char} (hscan : scan stop 0 ls = some 0) (hnest : nest [] ls = some due) :
    Balanced ls := by
  have hdue : due = [] :=
    (Counts.nil.run hbrace hscan hnest).eq_nil (nest_closes (by simp) hnest)
  rw [Balanced, hnest, hdue]

/-! ## §4. Blocks. -/

theorem blockFrom_char (read : List Lexeme) (depth : Nat) (c : Char) (ls : List Lexeme) :
    blockFrom read depth (.char c :: ls)
      = if c = '{' then blockFrom (.char c :: read) (depth + 1) ls
        else if c = '}' then
          match depth with
          | 0 => some (read.reverse, ls)
          | inner + 1 => blockFrom (.char c :: read) inner ls
        else blockFrom (.char c :: read) depth ls := rfl

/-- A reader of blocks goes on after a row, knowing how many blocks are due. -/
theorem blockFrom_append {ls : List Lexeme} {due due' : List Char} (h : nest due ls = some due')
    (read ms : List Lexeme) :
    blockFrom read (due.count '}') (ls ++ ms)
      = blockFrom (ls.reverse ++ read) (due'.count '}') ms := by
  -- the depth of blocks is how many braces are due, whatever brackets lie between them
  induction ls generalizing due read with
  | nil =>
    cases h
    rfl
  | cons l ls ih =>
    have hstep : ∀ due₁ : List Char, nest due₁ ls = some due' →
        blockFrom (l :: read) (due₁.count '}') (ls ++ ms)
          = blockFrom ((l :: ls).reverse ++ read) (due'.count '}') ms := by
      intro due₁ hrest
      rw [ih hrest, List.reverse_cons, List.append_assoc]
      rfl
    cases l with
    | char c =>
      obtain ⟨due₁, hdue₁, hrest⟩ := Option.bind_eq_some_iff.mp h
      rw [← hstep due₁ hrest, List.cons_append, blockFrom_char]
      rcases nestChar_cases hdue₁ with ⟨e, he, rfl⟩ | ⟨_, hcloses, rfl⟩ | ⟨hopens, hcloses, rfl⟩
      · rcases closer?_cases he with ⟨rfl, rfl⟩ | ⟨rfl, rfl⟩ | ⟨rfl, rfl⟩
        · rw [if_neg (by decide), if_neg (by decide), List.count_cons_of_ne (by decide)]
        · rw [if_neg (by decide), if_neg (by decide), List.count_cons_of_ne (by decide)]
        · rw [if_pos rfl, List.count_cons_self]
      · rcases closes_cases hcloses with rfl | rfl | rfl
        · rw [if_neg (by decide), if_neg (by decide), List.count_cons_of_ne (by decide)]
        · rw [if_neg (by decide), if_neg (by decide), List.count_cons_of_ne (by decide)]
        · rw [if_neg (by decide), if_pos rfl, List.count_cons_self]
      · have hopen : c ≠ '{' := by
          rintro rfl
          cases hopens
        have hclose : c ≠ '}' := by
          rintro rfl
          cases hcloses
        rw [if_neg hopen, if_neg hclose]
    | quoted t => exact hstep due h
    | comment t => exact hstep due h

/-- A balanced row is the body of a block. -/
theorem block_of_balanced {ls : List Lexeme} (h : Balanced ls) (rest : List Lexeme) :
    block (ls ++ .char '}' :: rest) = some (ls, rest) := by
  have hblock := blockFrom_append h [] (.char '}' :: rest)
  rw [List.count_nil] at hblock
  rw [block, hblock, blockFrom_char, if_neg (by decide), if_pos rfl]
  simp

/-- A row after which nothing is due any more closes what was due last of all. -/
theorem exists_close {ls : List Lexeme} {due : List Char} {d : Char}
    (h : nest (due ++ [d]) ls = some []) :
    ∃ body rest, ls = body ++ .char d :: rest ∧ nest due body = some [] ∧ Balanced rest := by
  -- over the row up to the character at which nothing but the last thing is due
  induction ls generalizing due with
  | nil =>
    simp [nest] at h
  | cons l ls ih =>
    have hskip : ∀ due₁ : List Char, nest (due₁ ++ [d]) ls = some [] →
        (∀ body, nest due (l :: body) = nest due₁ body) →
        ∃ body rest, l :: ls = body ++ .char d :: rest ∧ nest due body = some []
          ∧ Balanced rest := by
      intro due₁ hrest hstep
      obtain ⟨body, rest, hls, hbody, hbalanced⟩ := ih hrest
      exact ⟨l :: body, rest, by rw [hls]; rfl, by rw [hstep, hbody], hbalanced⟩
    cases l with
    | char c =>
      obtain ⟨due₁, hdue₁, hrest⟩ := Option.bind_eq_some_iff.mp h
      rcases nestChar_cases hdue₁ with ⟨e, he, rfl⟩ | ⟨hopens, hcloses, heq⟩ | ⟨hopens, hcloses, rfl⟩
      · refine hskip (e :: due) hrest fun body => ?_
        rw [nest, nestChar_open he]
        rfl
      · cases due with
        | nil =>
          -- the last thing due is closed here
          obtain ⟨rfl, rfl⟩ := List.cons.inj heq
          exact ⟨[], ls, rfl, rfl, hrest⟩
        | cons a due =>
          obtain ⟨rfl, rfl⟩ := List.cons.inj heq
          refine hskip due hrest fun body => ?_
          rw [nest, nestChar_close hopens hcloses]
          rfl
      · refine hskip due hrest fun body => ?_
        rw [nest, nestChar_other hopens hcloses]
        rfl
    | quoted t => exact hskip due h fun body => rfl
    | comment t => exact hskip due h fun body => rfl

/-- **A brace that is opened in a balanced row has its block.** -/
theorem block_of_nest {ls : List Lexeme} (h : nest ['}'] ls = some []) :
    ∃ body rest, ls = body ++ .char '}' :: rest ∧ block ls = some (body, rest) ∧ Balanced body
      ∧ Balanced rest := by
  obtain ⟨body, rest, hls, hbody, hrest⟩ := exists_close (show nest ([] ++ ['}']) ls = some [] from h)
  exact ⟨body, rest, hls, by rw [hls, block_of_balanced hbody], hbody, hrest⟩

end ControlSurface.Stylesheet
