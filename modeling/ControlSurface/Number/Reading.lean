/-
  ControlSurface.Number.Reading
  ─────────────────────────────
  Reading numbers from text: a decimal with optional sign, point and exponent, or one of the words
  for infinity and not-a-number; an integer with optional sign.  White space around the number is
  passed over, the digits of every script count, and single underscores may stand between digits.
  A double is rounded to a few decimals by reading its fixed-point text.
-/
import ControlSurface.Number.Binary64
import ControlSurface.Text.Character
import ControlSurface.Text.LowerCase

namespace ControlSurface.Number

open ControlSurface.Text

/-! ## §1. Digits. -/

/-- White space that may stand around a number; the separator controls may not. -/
def isMargin (c : Char) : Bool := isBlank c && !decide (28 ≤ c.toNat ∧ c.toNat ≤ 31)

/-- A run of digits as its value and its length, and what follows it. -/
def digitRun : List Char → Nat → Nat → Nat × Nat × List Char
  | [], value, count => (value, count, [])
  | c :: cs, value, count =>
    match digitValue? c with
    | some d => digitRun cs (value * 10 + d) (count + 1)
    | none => (value, count, c :: cs)

/-- Removes underscores that stand between two digits; none where one stands elsewhere. -/
def joinDigits (afterDigit : Bool) : List Char → Option (List Char)
  | [] => some []
  | '_' :: cs =>
    match cs with
    | d :: _ => if afterDigit && isDecimalDigit d then joinDigits false cs else none
    | [] => none
  | c :: cs => (joinDigits (isDecimalDigit c) cs).map (c :: ·)

/-- An optional sign, and what follows it. -/
def sign : List Char → Bool × List Char
  | '-' :: cs => (true, cs)
  | '+' :: cs => (false, cs)
  | cs => (false, cs)

/-! ## §2. Decimals. -/

/-- The double nearest to `± n · 10^exponent`; infinite when too large. -/
def ofDecimal (negative : Bool) (n : Nat) (exponent : Int) : Float :=
  let huge := if negative then negInfinity else infinity
  let magnitude : Int := (Nat.log2 n : Int) + exponent * 3
  if n = 0 then ofBits negative 0
  -- powers that are far out of range are not computed
  else if 2000 < magnitude ∧ 0 < exponent then huge
  else if exponent < 0 ∧ (Nat.log2 n : Int) + exponent * 3 + 2000 < 0 then ofBits negative 0
  else
    let (num, den) :=
      if exponent < 0 then (n, tenTo exponent.natAbs) else (n * tenTo exponent.natAbs, 1)
    (ofRatio? negative num den).getD huge

/-- The exponent after the digits: `e` or `E`, an optional sign and at least one digit.  Without
digits nothing is read. -/
def exponentPart : List Char → Int × List Char
  | c :: cs =>
    if c = 'e' ∨ c = 'E' then
      let (negative, rest) := sign cs
      let (value, count, rest') := digitRun rest 0 0
      if count = 0 then (0, c :: cs) else (if negative then -(value : Int) else value, rest')
    else (0, c :: cs)
  | [] => (0, [])

/-- An unsigned decimal: digits with an optional point among them, then an optional exponent; its
digits as a natural number and its decimal exponent. -/
def unsignedDecimal? (cs : List Char) : Option (Nat × Int × List Char) :=
  let (whole, wholeCount, rest) := digitRun cs 0 0
  let (value, fractionCount, rest) := match rest with
    | '.' :: more => digitRun more whole 0
    | _ => (whole, 0, rest)
  if wholeCount + fractionCount = 0 then none
  else
    let (exponent, rest) := exponentPart rest
    some (value, exponent - fractionCount, rest)

/-- Reads a decimal or the name of a special value; the whole text must be used. -/
def readFloat? (text : List Char) : Option Float := do
  let cs ← joinDigits false (trimBy isMargin text)
  let (negative, body) := sign cs
  let word := String.ofList (body.map asciiLower)
  if word = "inf" ∨ word = "infinity" then
    some (if negative then negInfinity else infinity)
  else if word = "nan" then some nan
  else
    let (n, exponent, rest) ← unsignedDecimal? body
    if rest.isEmpty then some (ofDecimal negative n exponent) else none

/-! ## §3. Integers. -/

/-- The longest run of digits that is read as an integer. -/
def maxIntegerDigits : Nat := 4300

/-- Reads an integer; the whole text must be used. -/
def readInt? (text : List Char) : Option Int := do
  let cs ← joinDigits false (trimBy isMargin text)
  let (negative, body) := sign cs
  let (n, count, rest) := digitRun body 0 0
  if count = 0 ∨ maxIntegerDigits < count ∨ !rest.isEmpty then none
  else some (if negative then -(n : Int) else n)

/-! ## §4. Rounding. -/

/-- The double nearest to a double rounded to some decimals; what is not finite stays as it is. -/
def roundTo (places : Nat) (x : Float) : Float :=
  match parts x with
  | .finite _ => (readFloat? (fixed places x)).getD x
  | _ => x

end ControlSurface.Number
