/-
  ControlSurface.Proofs.Stylesheet.Lexing
  ───────────────────────────────────────
  Rows of lexemes that read back.  A row is clean if its strings and comments are closed and no
  slash stands before a star; then its text has exactly these lexemes (`lexemes_textOf`).  What a
  reader finds is clean as far as it is closed (`clean_lexemes`), and so is every stretch of it, so
  pieces of a stylesheet can be put together anew and read again.
-/
import ControlSurface.Stylesheet.Lexeme
import Mathlib.Data.List.Chain

namespace ControlSurface.Stylesheet

/-! ## §1. Closed strings and comments. -/

/-- Whether a string, its opening quote having been read, ends with the text. -/
def stringEnds (quote : Char) : Bool → List Char → Bool
  | _, [] => false
  | true, _ :: cs => stringEnds quote false cs
  | false, c :: cs =>
    if c = '\\' then stringEnds quote true cs
    else if c = quote then cs.isEmpty
    else stringEnds quote false cs

/-- Whether a comment, its opening mark having been read, ends with the text. -/
def commentEnds : Bool → List Char → Bool
  | _, [] => false
  | star, c :: cs => if star ∧ c = '/' then cs.isEmpty else commentEnds (c = '*') cs

/-- Whether a lexeme is what a reader makes of its text. -/
def Lexeme.isWhole : Lexeme → Bool
  | .char c => c != '"' && c != '\''
  | .quoted (c :: cs) => (c == '"' || c == '\'') && stringEnds c false cs
  | .comment ('/' :: '*' :: cs) => commentEnds false cs
  | _ => false

/-- The three kinds of whole lexemes. -/
theorem isWhole_cases {l : Lexeme} (h : l.isWhole = true) :
    (∃ c, l = .char c ∧ ¬ (c = '"' ∨ c = '\''))
      ∨ (∃ c cs, l = .quoted (c :: cs) ∧ (c = '"' ∨ c = '\'') ∧ stringEnds c false cs = true)
      ∨ ∃ cs, l = .comment ('/' :: '*' :: cs) ∧ commentEnds false cs = true := by
  unfold Lexeme.isWhole at h
  split at h
  next c =>
    exact Or.inl ⟨c, rfl, by simpa using h⟩
  next c cs =>
    rw [Bool.and_eq_true, Bool.or_eq_true, beq_iff_eq, beq_iff_eq] at h
    exact Or.inr (Or.inl ⟨c, cs, rfl, h.1, h.2⟩)
  next cs => exact Or.inr (Or.inr ⟨cs, rfl, h⟩)
  next => cases h

/-- Two characters that would open a comment. -/
def OpensComment (a b : Lexeme) : Prop := a = .char '/' ∧ b = .char '*'

/-- A row of lexemes that is read as it is written. -/
structure Clean (ls : List Lexeme) : Prop where
  whole : ∀ l ∈ ls, l.isWhole = true
  apart : ls.IsChain fun a b => ¬ OpensComment a b

/-! ## §2. Reading one lexeme. -/

attribute [local simp] readFrom

theorem readFrom_inString (done : List Lexeme) (quote : Char) (escaped : Bool)
    (read cs rest : List Char) (h : stringEnds quote escaped cs = true) :
    readFrom done (.inString quote escaped read) (cs ++ rest)
      = readFrom (.quoted (read.reverse ++ cs) :: done) .outside rest := by
  -- over what is left of the string: an escape only changes what the next character may be
  induction cs generalizing escaped read with
  | nil => simp [stringEnds] at h
  | cons c cs ih =>
    cases escaped with
    | true =>
      rw [stringEnds] at h
      rw [List.cons_append, readFrom, ih _ _ h]
      simp
    | false =>
      rw [stringEnds] at h
      rw [List.cons_append, readFrom]
      split
      next hback =>
        rw [if_pos hback] at h
        rw [ih _ _ h]
        simp
      next hback =>
        rw [if_neg hback] at h
        split
        next hquote =>
          -- the closing quote is the last character
          rw [if_pos hquote] at h
          rw [List.isEmpty_iff.mp h]
          simp
        next hquote =>
          rw [if_neg hquote] at h
          rw [ih _ _ h]
          simp

theorem readFrom_inComment (done : List Lexeme) (star : Bool) (read cs rest : List Char)
    (h : commentEnds star cs = true) :
    readFrom done (.inComment star read) (cs ++ rest)
      = readFrom (.comment (read.reverse ++ cs) :: done) .outside rest := by
  induction cs generalizing star read with
  | nil => simp [commentEnds] at h
  | cons c cs ih =>
    rw [commentEnds] at h
    rw [List.cons_append, readFrom]
    split
    next hend =>
      rw [if_pos hend] at h
      rw [List.isEmpty_iff.mp h]
      simp
    next hend =>
      rw [if_neg hend] at h
      rw [ih _ _ h]
      simp

/-- A whole lexeme is read as one, unless it is a slash before a star. -/
theorem readFrom_lexeme (done : List Lexeme) (l : Lexeme) (rest : List Char)
    (hwhole : l.isWhole = true) (hmark : l = .char '/' → rest.head? ≠ some '*') :
    readFrom done .outside (l.text ++ rest) = readFrom (l :: done) .outside rest := by
  rcases isWhole_cases hwhole with ⟨c, rfl, hquote⟩ | ⟨c, cs, rfl, hquote, hends⟩ | ⟨cs, rfl, hends⟩
  · rw [Lexeme.text, List.singleton_append, readFrom, if_neg hquote]
    -- a character opens a comment only with the star after it
    rintro cs rfl rfl
    exact hmark rfl rfl
  · rw [Lexeme.text, List.cons_append, readFrom, if_pos hquote, readFrom_inString _ _ _ _ _ _ hends]
    · rfl
    · rintro cs rfl
      rcases hquote with h | h <;> exact absurd h (by decide)
  · rw [Lexeme.text, List.cons_append, List.cons_append, readFrom,
      readFrom_inComment _ _ _ _ _ hends]
    rfl

/-! ## §3. Reading a clean row. -/

theorem Clean.nil : Clean [] := ⟨by simp, .nil⟩

theorem Clean.singleton {l : Lexeme} (h : l.isWhole = true) : Clean [l] := by
  refine ⟨fun a ha => ?_, .singleton l⟩
  rwa [List.mem_singleton.mp ha]

theorem Clean.of_cons {l : Lexeme} {ls : List Lexeme} (h : Clean (l :: ls)) : Clean ls :=
  ⟨fun a ha => h.whole a (List.mem_cons_of_mem l ha), h.apart.tail⟩

/-- A whole lexeme other than a star does not begin with one. -/
theorem head?_text (l : Lexeme) (hwhole : l.isWhole = true) (hstar : l ≠ .char '*')
    (rest : List Char) : (l.text ++ rest).head? ≠ some '*' := by
  rcases isWhole_cases hwhole with ⟨c, rfl, _⟩ | ⟨c, cs, rfl, hquote, _⟩ | ⟨cs, rfl, _⟩
  · intro h
    exact hstar (congrArg Lexeme.char (Option.some.inj h))
  · intro h
    cases h
    rcases hquote with h | h <;> exact absurd h (by decide)
  · intro h
    exact absurd (Option.some.inj h) (by decide)

theorem readFrom_clean (done ls : List Lexeme) (h : Clean ls) :
    readFrom done .outside (textOf ls) = done.reverse ++ ls := by
  induction ls generalizing done with
  | nil => simp [textOf]
  | cons l ls ih =>
    have htext : textOf (l :: ls) = l.text ++ textOf ls := rfl
    rw [htext, readFrom_lexeme done l _ (h.whole l (List.mem_cons_self ..)), ih _ h.of_cons]
    · simp
    · -- the text after a slash begins with a star only if the next lexeme is one
      rintro rfl
      cases ls with
      | nil => simp [textOf]
      | cons m ls =>
        refine head?_text m (h.whole m (by simp)) ?_ (textOf ls)
        rintro rfl
        exact (List.isChain_cons_cons.mp h.apart).1 ⟨rfl, rfl⟩

/-- **The text of a clean row has its lexemes.** -/
theorem lexemes_textOf {ls : List Lexeme} (h : Clean ls) : lexemes (textOf ls) = ls := by
  rw [lexemes, readFrom_clean [] ls h, List.reverse_nil, List.nil_append]

/-! ## §4. What a reader finds. -/

/-- One more lexeme keeps a row apart, if it does not make a slash and a star. -/
theorem apart_cons {done : List Lexeme} {l : Lexeme}
    (hdone : done.reverse.IsChain fun a b => ¬ OpensComment a b)
    (h : l = .char '*' → done.head? ≠ some (.char '/')) :
    (l :: done).reverse.IsChain fun a b => ¬ OpensComment a b := by
  rw [List.reverse_cons, List.isChain_append]
  refine ⟨hdone, .singleton l, ?_⟩
  rintro a ha b hb ⟨rfl, rfl⟩
  rw [List.getLast?_reverse] at ha
  exact h (Option.some.inj hb) ha

/-- What a reader has read of a string or comment that is still open. -/
def Place.text : Place → List Char
  | .outside => []
  | .inString _ _ read => read.reverse
  | .inComment _ read => read.reverse

/-- A reader never takes a slash before a star for two characters. -/
theorem readFrom_apart (done : List Lexeme) (place : Place) (cs : List Char)
    (hdone : done.reverse.IsChain fun a b => ¬ OpensComment a b)
    (hnext : place = .outside → done.head? = some (.char '/') → cs.head? ≠ some '*') :
    (readFrom done place cs).IsChain fun a b => ¬ OpensComment a b := by
  -- only outside can a star come after a slash as a character, and there the two open a comment
  induction done, place, cs using readFrom.induct with
  | case1 done => rwa [readFrom]
  | case2 done cs ih =>
    rw [readFrom]
    exact ih hdone (fun h => by cases h)
  | case3 done c cs hmark hquote ih =>
    rw [readFrom, if_pos hquote]
    · exact ih hdone (fun h => by cases h)
    · exact hmark
  | case4 done c cs hmark hquote ih =>
    rw [readFrom, if_neg hquote]
    · refine ih (apart_cons hdone ?_) ?_
      · intro hstar hslash
        cases hstar
        exact hnext rfl hslash rfl
      · -- had a star followed this slash, a comment would have begun
        intro _ hslash hstar
        obtain rfl : c = '/' := by simpa using hslash
        obtain ⟨rest, rfl⟩ : ∃ rest, cs = '*' :: rest := by
          cases cs with
          | nil => cases hstar
          | cons d rest => exact ⟨rest, by rw [Option.some.inj hstar]⟩
        exact hmark rest rfl rfl
    · exact hmark
  | case5 done quote escaped read =>
    rw [readFrom]
    exact apart_cons hdone (fun h => by cases h)
  | case6 done quote read c cs ih =>
    rw [readFrom]
    exact ih hdone (fun h => by cases h)
  | case7 done quote read cs ih =>
    rw [readFrom, if_pos rfl]
    exact ih hdone (fun h => by cases h)
  | case8 done quote read cs hback ih =>
    rw [readFrom, if_neg hback, if_pos rfl]
    exact ih (apart_cons hdone (fun h => by cases h)) (fun _ h => by cases h)
  | case9 done quote read c cs hback hquote ih =>
    rw [readFrom, if_neg hback, if_neg hquote]
    exact ih hdone (fun h => by cases h)
  | case10 done star read =>
    rw [readFrom]
    exact apart_cons hdone (fun h => by cases h)
  | case11 done star read c cs hend ih =>
    rw [readFrom, if_pos hend]
    exact ih (apart_cons hdone (fun h => by cases h)) (fun _ h => by cases h)
  | case12 done star read c cs hend ih =>
    rw [readFrom, if_neg hend]
    exact ih hdone (fun h => by cases h)

/-- **What a reader finds is clean**, if all strings and comments are closed. -/
theorem clean_lexemes {cs : List Char} (h : ∀ l ∈ lexemes cs, l.isWhole = true) :
    Clean (lexemes cs) :=
  ⟨h, readFrom_apart [] .outside cs .nil (fun _ h => by cases h)⟩

/-- A reader keeps all text. -/
theorem textOf_readFrom (done : List Lexeme) (place : Place) (cs : List Char) :
    textOf (readFrom done place cs) = textOf done.reverse ++ place.text ++ cs := by
  have hpush : ∀ (l : Lexeme) (done : List Lexeme),
      textOf (l :: done).reverse = textOf done.reverse ++ l.text := by
    intro l done
    simp [textOf]
  -- what is not yet among the lexemes is what the place holds
  induction done, place, cs using readFrom.induct with
  | case1 done => simp [Place.text]
  | case2 done cs ih =>
    rw [readFrom, ih]
    simp [Place.text]
  | case3 done c cs hmark hquote ih =>
    rw [readFrom, if_pos hquote, ih]
    · simp [Place.text]
    · exact hmark
  | case4 done c cs hmark hquote ih =>
    rw [readFrom, if_neg hquote, ih, hpush]
    · simp [Place.text, Lexeme.text]
    · exact hmark
  | case5 done quote escaped read =>
    rw [readFrom, hpush]
    simp [Place.text, Lexeme.text]
  | case6 done quote read c cs ih =>
    rw [readFrom, ih]
    simp [Place.text]
  | case7 done quote read cs ih =>
    rw [readFrom, if_pos rfl, ih]
    simp [Place.text]
  | case8 done quote read cs hback ih =>
    rw [readFrom, if_neg hback, if_pos rfl, ih, hpush]
    simp [Place.text, Lexeme.text]
  | case9 done quote read c cs hback hquote ih =>
    rw [readFrom, if_neg hback, if_neg hquote, ih]
    simp [Place.text]
  | case10 done star read =>
    rw [readFrom, hpush]
    simp [Place.text, Lexeme.text]
  | case11 done star read c cs hend ih =>
    rw [readFrom, if_pos hend, ih, hpush]
    simp [Place.text, Lexeme.text]
  | case12 done star read c cs hend ih =>
    rw [readFrom, if_neg hend, ih]
    simp [Place.text]

/-- **The texts of the lexemes of a stylesheet are the stylesheet.** -/
theorem textOf_lexemes (cs : List Char) : textOf (lexemes cs) = cs := by
  rw [lexemes, textOf_readFrom]
  rfl

/-! ## §5. Stretches of a row. -/

theorem Clean.stretch {ls ms : List Lexeme} (h : Clean ms) (hin : ls <:+: ms) : Clean ls :=
  ⟨fun l hl => h.whole l (hin.subset hl), List.IsChain.infix h.apart hin⟩

/-- Two clean rows make one, if the second does not begin with a star. -/
theorem Clean.append {ls ms : List Lexeme} (hl : Clean ls) (hm : Clean ms)
    (h : ls.getLast? = some (.char '/') → ms.head? ≠ some (.char '*')) : Clean (ls ++ ms) := by
  refine ⟨?_, List.isChain_append.mpr ⟨hl.apart, hm.apart, ?_⟩⟩
  · intro l hmem
    rcases List.mem_append.mp hmem with hmem | hmem
    · exact hl.whole l hmem
    · exact hm.whole l hmem
  · -- where the rows meet, no comment may open
    rintro a ha b hb ⟨rfl, rfl⟩
    exact h ha hb

end ControlSurface.Stylesheet
