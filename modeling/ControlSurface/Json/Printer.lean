/-
  ControlSurface.Json.Printer
  ───────────────────────────
  Values as JSON text.  A `Style` says whether the text is indented, whether keys are sorted by
  code point and whether other than ASCII characters are escaped.
-/
import ControlSurface.Value.Basic
import ControlSurface.Text.Search

namespace ControlSurface.Json

/-! ## §1. Strings. -/

/-- A hexadecimal number of four digits. -/
def hex4 (n : Nat) : List Char :=
  let ds := Nat.toDigits 16 n
  List.replicate (4 - ds.length) '0' ++ ds

/-- A UTF-16 unit as an escape. -/
def unitEscape (n : Nat) : List Char := '\\' :: 'u' :: hex4 n

/-- One character of a string.  Quotes, backslashes and control characters are escaped, and beyond
ASCII every character is if `ascii` asks for it, as one UTF-16 unit or two. -/
def charText (ascii : Bool) (c : Char) : List Char :=
  if c = '"' then ['\\', '"']
  else if c = '\\' then ['\\', '\\']
  else if c = '\n' then ['\\', 'n']
  else if c = '\r' then ['\\', 'r']
  else if c = '\t' then ['\\', 't']
  else if c = '\x08' then ['\\', 'b']
  else if c = '\x0c' then ['\\', 'f']
  else if c.toNat < 32 then unitEscape c.toNat
  else if ascii && 127 ≤ c.toNat then
    if c.toNat < 0x10000 then unitEscape c.toNat
    else
      let n := c.toNat - 0x10000
      unitEscape (0xD800 + n / 0x400) ++ unitEscape (0xDC00 + n % 0x400)
  else [c]

/-- A string in quotes. -/
def stringText (ascii : Bool) (s : String) : List Char :=
  '"' :: (s.toList.flatMap (charText ascii) ++ ['"'])

/-! ## §2. Values. -/

/-- How a value is written. -/
structure Style where
  /-- The spaces of one step of indentation; without it everything stands on one line. -/
  indent : Option Nat
  /-- Keys are sorted by code point. -/
  sorted : Bool
  /-- Only ASCII characters are written. -/
  ascii : Bool
  deriving Repr, DecidableEq

/-- The text of a number. -/
def floatText (x : Float) : List Char :=
  match Number.parts x with
  | .notANumber => "NaN".toList
  | .infinite true => "-Infinity".toList
  | .infinite false => "Infinity".toList
  | .finite _ => (Number.shortest x).toList

/-- A line break and the indentation of a depth, or nothing on one line. -/
def Style.break (style : Style) (depth : Nat) : List Char :=
  match style.indent with
  | some n => '\n' :: List.replicate (n * depth) ' '
  | none => []

/-- What stands between two items at a depth. -/
def Style.separator (style : Style) (depth : Nat) : List Char :=
  match style.indent with
  | some _ => ',' :: style.break depth
  | none => [',', ' ']

/-- Fields in the order in which they are written. -/
def Style.arrange {α : Type} (style : Style) (fields : List (String × α)) : List (String × α) :=
  if style.sorted then fields.mergeSort (fun a b => decide (a.1 ≤ b.1)) else fields

/-- Items between brackets, each on its own line if the style is indented. -/
def Style.bracketed (style : Style) (depth : Nat) (opening closing : Char)
    (items : List (List Char)) : List Char :=
  if items.isEmpty then [opening, closing]
  else
    opening :: (style.break (depth + 1)
      ++ Text.joinWith (style.separator (depth + 1)) items ++ style.break depth ++ [closing])

mutual
/-- The text of a value at a depth of nesting. -/
def write (style : Style) (depth : Nat) : Value → List Char
  | .null => "null".toList
  | .bool b => if b then "true".toList else "false".toList
  | .int i => (toString i).toList
  | .float x => floatText x
  | .text s => stringText style.ascii s
  | .list items => style.bracketed depth '[' ']' (writeItems style (depth + 1) items)
  | .object fields =>
    let written := style.arrange (writeFields style (depth + 1) fields)
    style.bracketed depth '\x7b' '\x7d'
      (written.map fun f => stringText style.ascii f.1 ++ [':', ' '] ++ f.2)

/-- The texts of the items of a list. -/
def writeItems (style : Style) (depth : Nat) : List Value → List (List Char)
  | [] => []
  | v :: rest => write style depth v :: writeItems style depth rest

/-- The keys of an object with the texts of their values. -/
def writeFields (style : Style) (depth : Nat) : List (String × Value) → List (String × List Char)
  | [] => []
  | (k, v) :: rest => (k, write style depth v) :: writeFields style depth rest
end

/-- A value as JSON text. -/
def print (style : Style) (v : Value) : String := String.ofList (write style 0 v)

end ControlSurface.Json
