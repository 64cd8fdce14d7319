/-
  ControlSurface.Text.Search
  ──────────────────────────
  Finding, cutting and replacing inside text, on lists of characters.  `cutAt?` finds the first
  occurrence of a pattern; `replaceAll` and `splitAt` go on after it, so occurrences never overlap.
-/

namespace ControlSurface.Text

/-! ## §1. Finding. -/

/-- What follows a given beginning, if the text begins so. -/
def after? : List Char → List Char → Option (List Char)
  | [], cs => some cs
  | _ :: _, [] => none
  | p :: ps, c :: cs => if p = c then after? ps cs else none

/-- Whether text begins with a pattern. -/
def startsWith (pattern cs : List Char) : Bool := (after? pattern cs).isSome

/-- Whether text ends with a pattern. -/
def endsWith (pattern cs : List Char) : Bool := startsWith pattern.reverse cs.reverse

/-- The text before the first occurrence of a pattern and the text after it; `passed` holds, in
reverse, what was read before. -/
def cutFrom (pattern passed : List Char) : List Char → Option (List Char × List Char)
  | [] => (after? pattern []).map fun rest => (passed.reverse, rest)
  | c :: cs =>
    match after? pattern (c :: cs) with
    | some rest => some (passed.reverse, rest)
    | none => cutFrom pattern (c :: passed) cs

/-- The text before the first occurrence of a pattern and the text after it. -/
def cutAt? (pattern cs : List Char) : Option (List Char × List Char) := cutFrom pattern [] cs

/-- Whether a pattern occurs in text. -/
def occursIn (pattern cs : List Char) : Bool := (cutAt? pattern cs).isSome

/-- The text before the last occurrence of a pattern and the text after it. -/
def cutAtLast? (pattern cs : List Char) : Option (List Char × List Char) :=
  (cutAt? pattern.reverse cs.reverse).map fun (tail, head) => (head.reverse, tail.reverse)

/-! ## §2. Splitting and replacing. -/

/-- Splits at every occurrence of a non-empty pattern.  `skip` characters of an occurrence are
still to be passed over; `piece` is the current piece, reversed, and `pieces` the finished ones. -/
def splitFrom (pattern : List Char) (skip : Nat) (piece : List Char) (pieces : List (List Char)) :
    List Char → List (List Char)
  | [] => (piece.reverse :: pieces).reverse
  | c :: cs =>
    match skip with
    | n + 1 => splitFrom pattern n piece pieces cs
    | 0 =>
      if startsWith pattern (c :: cs) then
        splitFrom pattern (pattern.length - 1) [] (piece.reverse :: pieces) cs
      else splitFrom pattern 0 (c :: piece) pieces cs

/-- The pieces between the occurrences of a non-empty pattern. -/
def splitAt (pattern cs : List Char) : List (List Char) := splitFrom pattern 0 [] [] cs

/-- Pieces put together with a separator between them. -/
def joinWith (separator : List Char) (pieces : List (List Char)) : List Char :=
  (pieces.intersperse separator).flatten

/-- Text with every occurrence of a non-empty pattern replaced. -/
def replaceAll (pattern replacement cs : List Char) : List Char :=
  joinWith replacement (splitAt pattern cs)

/-- Text with the first occurrence of a pattern replaced. -/
def replaceFirst (pattern replacement cs : List Char) : List Char :=
  match cutAt? pattern cs with
  | some (before, after) => before ++ replacement ++ after
  | none => cs

/-! ## §3. The same on strings. -/

/-- Strings put together with a separator between them. -/
def join (separator : String) (pieces : List String) : String := separator.intercalate pieces

/-- A string with every occurrence of a non-empty pattern replaced. -/
def replace (s pattern replacement : String) : String :=
  String.ofList (replaceAll pattern.toList replacement.toList s.toList)

/-- The pieces of a string between the occurrences of a non-empty pattern. -/
def split (s pattern : String) : List String :=
  (splitAt pattern.toList s.toList).map String.ofList

/-- Whether a string occurs in another. -/
def contains (s pattern : String) : Bool := occursIn pattern.toList s.toList

end ControlSurface.Text
