/-
  ControlSurface.Stylesheet.Lexeme
  ────────────────────────────────
  A stylesheet as a row of lexemes: comments and quoted strings are one lexeme each, so a brace,
  comma or semicolon inside them is never mistaken for one of the sheet; every other character is
  a lexeme of its own.  The texts of the lexemes, put together, are the stylesheet.
-/
import ControlSurface.Text.Search

namespace ControlSurface.Stylesheet

/-! ## §1. Lexemes. -/

/-- A piece of a stylesheet. -/
inductive Lexeme where
  | char (c : Char)
  /-- A string with its quotes; the last one of a sheet may lack its end. -/
  | quoted (text : List Char)
  /-- A comment with its marks; the last one of a sheet may lack its end. -/
  | comment (text : List Char)
  deriving Repr, DecidableEq, Inhabited

/-- The text of a lexeme. -/
def Lexeme.text : Lexeme → List Char
  | char c => [c]
  | quoted cs => cs
  | comment cs => cs

/-- The text of a row of lexemes. -/
def textOf (ls : List Lexeme) : List Char := ls.flatMap Lexeme.text

/-! ## §2. Reading. -/

/-- Where a reader stands.  What it has read of an open string or comment is in reverse. -/
inductive Place where
  | outside
  /-- Inside a string; `escaped` says that the next character cannot end it. -/
  | inString (quote : Char) (escaped : Bool) (read : List Char)
  /-- Inside a comment; `star` says that a slash ends it. -/
  | inComment (star : Bool) (read : List Char)
  deriving Repr, DecidableEq, Inhabited

/-- Reads lexemes; `done` holds the finished ones in reverse. -/
def readFrom (done : List Lexeme) : Place → List Char → List Lexeme
  | .outside, [] => done.reverse
  -- the star that opens a comment does not begin its end
  | .outside, '/' :: '*' :: cs => readFrom done (.inComment false ['*', '/']) cs
  | .outside, c :: cs =>
    if c = '"' ∨ c = '\'' then readFrom done (.inString c false [c]) cs
    else readFrom (.char c :: done) .outside cs
  -- a string that is open at the end of the sheet is a lexeme all the same
  | .inString _ _ read, [] => (.quoted read.reverse :: done).reverse
  | .inString quote true read, c :: cs => readFrom done (.inString quote false (c :: read)) cs
  | .inString quote false read, c :: cs =>
    if c = '\\' then readFrom done (.inString quote true (c :: read)) cs
    else if c = quote then readFrom (.quoted (c :: read).reverse :: done) .outside cs
    else readFrom done (.inString quote false (c :: read)) cs
  | .inComment _ read, [] => (.comment read.reverse :: done).reverse
  | .inComment star read, c :: cs =>
    if star ∧ c = '/' then readFrom (.comment (c :: read).reverse :: done) .outside cs
    else readFrom done (.inComment (c = '*') (c :: read)) cs

/-- The lexemes of a stylesheet. -/
def lexemes (cs : List Char) : List Lexeme := readFrom [] .outside cs

/-! ## §3. Cutting. -/

/-- Whether a character opens brackets. -/
def opensBracket (c : Char) : Bool := c = '(' || c = '['

/-- Whether a character closes brackets. -/
def closesBracket (c : Char) : Bool := c = ')' || c = ']'

/-- Cuts at the first character of a class that stands outside brackets; `read` holds what came
before, in reverse, and `depth` counts the open brackets. -/
def cutFrom (stop : Char → Bool) (read : List Lexeme) :
    Nat → List Lexeme → Option (List Lexeme × Char × List Lexeme)
  | _, [] => none
  | depth, .char c :: ls =>
    if opensBracket c then cutFrom stop (.char c :: read) (depth + 1) ls
    -- a bracket that closes none is passed over
    else if closesBracket c then cutFrom stop (.char c :: read) (depth - 1) ls
    else if depth = 0 ∧ stop c then some (read.reverse, c, ls)
    else cutFrom stop (.char c :: read) depth ls
  | depth, l :: ls => cutFrom stop (l :: read) depth ls

/-- The lexemes before the first character of a class outside brackets, that character, and the
lexemes after it. -/
def cut (stop : Char → Bool) (ls : List Lexeme) : Option (List Lexeme × Char × List Lexeme) :=
  cutFrom stop [] 0 ls

/-- Reads to the brace that closes a block whose opening brace has been read; `depth` counts the
open blocks inside it. -/
def blockFrom (read : List Lexeme) : Nat → List Lexeme → Option (List Lexeme × List Lexeme)
  | _, [] => none
  | depth, .char c :: ls =>
    if c = '{' then blockFrom (.char c :: read) (depth + 1) ls
    else if c = '}' then
      match depth with
      | 0 => some (read.reverse, ls)
      | inner + 1 => blockFrom (.char c :: read) inner ls
    else blockFrom (.char c :: read) depth ls
  | depth, l :: ls => blockFrom (l :: read) depth ls

/-- The body of a block whose opening brace has been read, and what follows the block. -/
def block (ls : List Lexeme) : Option (List Lexeme × List Lexeme) := blockFrom [] 0 ls

/-- A cut loses the character that it is made at. -/
theorem length_of_cutFrom {stop : Char → Bool} {read ls head rest : List Lexeme} {depth : Nat}
    {c : Char} (h : cutFrom stop read depth ls = some (head, c, rest)) :
    head.length + rest.length + 1 = read.length + ls.length := by
  induction ls generalizing read depth with
  | nil => simp [cutFrom] at h
  | cons l ls ih =>
    cases l with
    | char d =>
      simp only [cutFrom] at h
      split at h
      · have := ih h; simp only [List.length_cons] at *; omega
      · split at h
        · have := ih h; simp only [List.length_cons] at *; omega
        · split at h
          · simp only [Option.some.injEq, Prod.mk.injEq] at h
            obtain ⟨rfl, -, rfl⟩ := h
            simp only [List.length_reverse, List.length_cons]; omega
          · have := ih h; simp only [List.length_cons] at *; omega
    | quoted t =>
      have := ih (by simpa [cutFrom] using h)
      simp only [List.length_cons] at *; omega
    | comment t =>
      have := ih (by simpa [cutFrom] using h)
      simp only [List.length_cons] at *; omega

/-- A block loses the brace that closes it. -/
theorem length_of_blockFrom {read ls body rest : List Lexeme} {depth : Nat}
    (h : blockFrom read depth ls = some (body, rest)) :
    body.length + rest.length + 1 = read.length + ls.length := by
  induction ls generalizing read depth with
  | nil => simp [blockFrom] at h
  | cons l ls ih =>
    cases l with
    | char d =>
      simp only [blockFrom] at h
      split at h
      · have := ih h; simp only [List.length_cons] at *; omega
      · split at h
        · split at h
          · simp only [Option.some.injEq, Prod.mk.injEq] at h
            obtain ⟨rfl, rfl⟩ := h
            simp only [List.length_reverse, List.length_cons]; omega
          · have := ih h; simp only [List.length_cons] at *; omega
        · have := ih h; simp only [List.length_cons] at *; omega
    | quoted t =>
      have := ih (by simpa [blockFrom] using h)
      simp only [List.length_cons] at *; omega
    | comment t =>
      have := ih (by simpa [blockFrom] using h)
      simp only [List.length_cons] at *; omega

/-- What lies on both sides of a cut is shorter than the whole. -/
theorem length_of_cut {stop : Char → Bool} {ls head rest : List Lexeme} {c : Char}
    (h : cut stop ls = some (head, c, rest)) : head.length + rest.length + 1 = ls.length := by
  simpa using length_of_cutFrom h

/-- What follows a cut is no longer than what follows the first lexeme. -/
theorem length_of_rest {stop : Char → Bool} {l : Lexeme} {tail head rest : List Lexeme} {c : Char}
    (h : cut stop (l :: tail) = some (head, c, rest)) : rest.length ≤ tail.length := by
  have := length_of_cut h
  simp only [List.length_cons] at this
  omega

/-- A body and what follows its block are shorter than the whole. -/
theorem length_of_block {ls body rest : List Lexeme} (h : block ls = some (body, rest)) :
    body.length + rest.length + 1 = ls.length := by
  simpa using length_of_blockFrom h

end ControlSurface.Stylesheet
