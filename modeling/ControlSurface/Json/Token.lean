/-
  ControlSurface.Json.Token
  ─────────────────────────
  JSON text as tokens: brackets, commas, colons and scalar values.  `next?` reads one token;
  `tokens` reads them all, passing over the four blank characters between them.
-/
import ControlSurface.Value.Basic
import ControlSurface.Number.Reading
import ControlSurface.Text.Character
import ControlSurface.Text.Search

namespace ControlSurface.Json

open ControlSurface.Text

/-- A token of JSON text. -/
inductive Token where
  | openList
  | closeList
  | openObject
  | closeObject
  | comma
  | colon
  | scalar (v : Value)
  deriving Inhabited

/-! ## §1. Strings. -/

/-- The value of four hexadecimal digits. -/
def unit? (a b c d : Char) : Option Nat := do
  let a ← hexValue? a
  let b ← hexValue? b
  let c ← hexValue? c
  let d ← hexValue? d
  some (((a * 16 + b) * 16 + c) * 16 + d)

/-- The character of a one-letter escape. -/
def shortEscape? (c : Char) : Option Char :=
  match c with
  | '"' => some '"'
  | '\\' => some '\\'
  | '/' => some '/'
  | 'n' => some '\n'
  | 'r' => some '\r'
  | 't' => some '\t'
  | 'b' => some '\x08'
  | 'f' => some '\x0c'
  | _ => none

/-- Whether a UTF-16 unit is the first of a pair. -/
def isHighUnit (n : Nat) : Bool := decide (0xD800 ≤ n ∧ n < 0xDC00)

/-- Whether a UTF-16 unit is the second of a pair. -/
def isLowUnit (n : Nat) : Bool := decide (0xDC00 ≤ n ∧ n < 0xE000)

/-- Adds a UTF-16 unit to the characters read so far, joining it with the first half of its pair.
Half of a pair without the other one is no character, and the replacement character is read for
it. -/
def addUnit (high : Option Nat) (n : Nat) (passed : List Char) : Option Nat × List Char :=
  match high with
  | some h =>
    if isLowUnit n then
      (none, Char.ofNat (0x10000 + (h - 0xD800) * 0x400 + (n - 0xDC00)) :: passed)
    else if isHighUnit n then (some n, '\uFFFD' :: passed)
    else (none, Char.ofNat n :: '\uFFFD' :: passed)
  | none => if isHighUnit n then (some n, passed)
            else if isLowUnit n then (none, '\uFFFD' :: passed)
            else (none, Char.ofNat n :: passed)

/-- The characters read so far once no second half of a pair can follow; a first half that still
waits for it is replaced. -/
def settle (high : Option Nat) (passed : List Char) : List Char :=
  match high with
  | some _ => '\uFFFD' :: passed
  | none => passed

/-- The rest of a string after its opening quote: its characters and what follows it.  Control
characters must be escaped. -/
def stringBody (high : Option Nat) (passed : List Char) : List Char → Option (String × List Char)
  | [] => none
  | '"' :: cs => some (String.ofList (settle high passed).reverse, cs)
  | '\\' :: 'u' :: a :: b :: c :: d :: cs =>
    match unit? a b c d with
    | some n => let (high, passed) := addUnit high n passed
                stringBody high passed cs
    | none => none
  | '\\' :: e :: cs =>
    match shortEscape? e with
    | some c => stringBody none (c :: settle high passed) cs
    | none => none
  | c :: cs => if c.toNat < 32 then none else stringBody none (c :: settle high passed) cs

/-- Whether a text escapes half of a pair without the other one; `waits` tells whether the first half
of a pair was read last.  Such a text is read with the replacement character, so its strings are not
those that were written. -/
def escapesHalf (waits : Bool) : List Char → Bool
  | '\\' :: 'u' :: a :: b :: c :: d :: cs =>
    match unit? a b c d with
    | some n =>
      if isLowUnit n then !waits || escapesHalf false cs
      else waits || escapesHalf (isHighUnit n) cs
    | none => waits || escapesHalf false cs
  | '\\' :: _ :: cs => waits || escapesHalf false cs
  | _ :: cs => waits || escapesHalf false cs
  | [] => waits

/-! ## §2. Numbers. -/

/-- A run of ASCII digits and what follows it. -/
def asciiDigits (cs : List Char) : List Char × List Char :=
  (cs.takeWhile isAsciiDigit, cs.dropWhile isAsciiDigit)

/-- The value of ASCII digits. -/
def digitsValue (ds : List Char) : Nat := ds.foldl (fun n c => n * 10 + (c.toNat - 48)) 0

/-- The whole part of a number: a zero alone, or digits that begin with another one. -/
def wholePart? : List Char → Option (List Char × List Char)
  | '0' :: cs => some (['0'], cs)
  | cs => match asciiDigits cs with
    | ([], _) => none
    | found => some found

/-- The digits after a point, if a point with digits follows. -/
def fractionPart (cs : List Char) : List Char × List Char :=
  match cs with
  | '.' :: more => match asciiDigits more with
    | ([], _) => ([], cs)
    | found => found
  | _ => ([], cs)

/-- The exponent after the digits, if `e` or `E` with digits follows, and what follows it. -/
def exponentPart (cs : List Char) : Int × List Char :=
  match cs with
  | c :: more =>
    let (negative, rest) := Number.sign more
    match asciiDigits rest with
    | ([], _) => (0, cs)
    | (ds, rest') =>
      if c = 'e' ∨ c = 'E' then
        (if negative then -(digitsValue ds : Int) else digitsValue ds, rest')
      else (0, cs)
  | [] => (0, cs)

/-- An unsigned or negative number and what follows it: an integer if it has neither fraction nor
exponent. -/
def number? (negative : Bool) (cs : List Char) : Option (Except Fault Value × List Char) := do
  let (whole, rest) ← wholePart? cs
  let (fraction, rest) := fractionPart rest
  let (exponent, rest') := exponentPart rest
  -- an exponent makes a double even of a whole number
  if fraction.isEmpty && rest'.length = rest.length then
    let n : Int := digitsValue whole
    let v : Except Fault Value :=
      if Number.maxIntegerDigits < whole.length then .error .badValue
      else .ok (.int (if negative then -n else n))
    some (v, rest)
  else
    let n := digitsValue (whole ++ fraction)
    some (.ok (.float (Number.ofDecimal negative n (exponent - fraction.length))), rest')

/-! ## §3. Tokens. -/

/-- The words that stand for values. -/
def words : List (String × Value) :=
  [("null", .null), ("true", .bool true), ("false", .bool false),
   ("NaN", .float Number.nan), ("Infinity", .float Number.infinity),
   ("-Infinity", .float Number.negInfinity)]

/-- The value of the word at the start of the text, and what follows it. -/
def word? (cs : List Char) : Option (Value × List Char) :=
  words.findSome? fun (w, v) => (after? w.toList cs).map fun rest => (v, rest)

/-- The first token of a text that begins with one. -/
def next? (cs : List Char) : Except Fault (Token × List Char) :=
  match cs with
  | '[' :: rest => .ok (.openList, rest)
  | ']' :: rest => .ok (.closeList, rest)
  | '\x7b' :: rest => .ok (.openObject, rest)
  | '\x7d' :: rest => .ok (.closeObject, rest)
  | ',' :: rest => .ok (.comma, rest)
  | ':' :: rest => .ok (.colon, rest)
  | '"' :: rest => match stringBody none [] rest with
    | some (s, rest) => .ok (.scalar (.text s), rest)
    | none => .error .badJson
  | _ => match word? cs with
    | some (v, rest) => .ok (.scalar v, rest)
    | none =>
      let found := match cs with
        | '-' :: rest => number? true rest
        | _ => number? false cs
      match found with
      | some (.ok v, rest) => .ok (.scalar v, rest)
      | some (.error e, _) => .error e
      | none => .error .badJson

/-- A blank character of JSON text. -/
def isJsonBlank (c : Char) : Bool := c == ' ' || c == '\t' || c == '\n' || c == '\r'

/-- All tokens of a text, the ones already read in reverse.  Every token takes at least one
character, which bounds the recursion. -/
def tokensFrom (passed : List Token) (cs : List Char) : Except Fault (List Token) :=
  match cs with
  | [] => .ok passed.reverse
  | c :: rest =>
    if isJsonBlank c then tokensFrom passed rest
    else match next? (c :: rest) with
      | .error e => .error e
      | .ok (t, rest') =>
        if rest'.length ≤ rest.length then tokensFrom (t :: passed) rest'
        else .error .badJson
termination_by cs.length

/-- All tokens of a text. -/
def tokens (cs : List Char) : Except Fault (List Token) := tokensFrom [] cs

end ControlSurface.Json
