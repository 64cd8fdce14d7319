/-
  ControlSurface.Text.Character
  ─────────────────────────────
  Blank characters, digits, and text where some characters mean something.  Twenty-nine characters
  are blank: the Unicode white space and the four separator controls U+001C to U+001F.  Hexadecimal
  digits are written in capitals and read in either case.  Decimal ones of all scripts: the ten
  digits of a script stand in a row, so the code point of its zero fixes all of them.  In markup five
  characters become references; in URLs bytes that may not stand there are written as a percent sign
  and two hexadecimal digits.
-/

namespace ControlSurface.Text

/-! ## §1. Blank characters. -/

/-- Whether a character is white space. -/
def isBlank (c : Char) : Bool :=
  let n := c.toNat
  (9 ≤ n && n ≤ 13) || (28 ≤ n && n ≤ 32) || n == 0x85 || n == 0xA0 || n == 0x1680
    || (0x2000 ≤ n && n ≤ 0x200A) || n == 0x2028 || n == 0x2029 || n == 0x202F || n == 0x205F
    || n == 0x3000

/-- Whether text holds white space only. -/
def allBlank (cs : List Char) : Bool := cs.all isBlank

/-! ## §2. Trimming. -/

/-- Text without the characters of a class at its start. -/
def trimStartBy (p : Char → Bool) (cs : List Char) : List Char := cs.dropWhile p

/-- Text without the characters of a class at its end. -/
def trimEndBy (p : Char → Bool) (cs : List Char) : List Char := (cs.reverse.dropWhile p).reverse

/-- Text without the characters of a class at either end. -/
def trimBy (p : Char → Bool) (cs : List Char) : List Char := trimEndBy p (trimStartBy p cs)

/-- Text without white space at either end. -/
def trim (cs : List Char) : List Char := trimBy isBlank cs

/-- A string without white space at either end. -/
def trimmed (s : String) : String := String.ofList (trim s.toList)

/-- Whether a string holds white space only. -/
def isBlankString (s : String) : Bool := allBlank s.toList

/-! ## §3. Hexadecimal digits. -/

/-- A hexadecimal digit. -/
def hexDigit (n : Nat) : Char :=
  if n < 10 then Char.ofNat ('0'.toNat + n) else Char.ofNat ('A'.toNat + (n - 10))

/-- The value of a hexadecimal digit. -/
def hexValue? (c : Char) : Option Nat :=
  if '0' ≤ c ∧ c ≤ '9' then some (c.toNat - 48)
  else if 'a' ≤ c ∧ c ≤ 'f' then some (c.toNat - 87)
  else if 'A' ≤ c ∧ c ≤ 'F' then some (c.toNat - 55)
  else none

/-! ## §4. Decimal digits. -/

/-- The zero digit of every script that has decimal digits. -/
def digitZeros : List Nat :=
  [
   48, 1632, 1776, 1984, 2406, 2534, 2662, 2790, 2918, 3046, 3174, 3302,
   3430, 3558, 3664, 3792, 3872, 4160, 4240, 6112, 6160, 6470, 6608, 6784,
   6800, 6992, 7088, 7232, 7248, 42528, 43216, 43264, 43472, 43504, 43600, 44016,
   65296, 66720, 68912, 69734, 69872, 69942, 70096, 70384, 70736, 70864, 71248, 71360,
   71472, 71904, 72016, 72784, 73040, 73120, 92768, 92864, 93008, 120782, 120792, 120802,
   120812, 120822, 123200, 123632, 125264, 130032
  ]

/-- The value of a decimal digit of any script. -/
def digitValue? (c : Char) : Option Nat :=
  if c.toNat < 128 then
    if '0' ≤ c ∧ c ≤ '9' then some (c.toNat - 48) else none
  else
    (digitZeros.find? fun z => z ≤ c.toNat ∧ c.toNat < z + 10).map (c.toNat - ·)

/-- Whether a character is a decimal digit of some script. -/
def isDecimalDigit (c : Char) : Bool := (digitValue? c).isSome

/-- Whether a character is one of the ten ASCII digits. -/
def isAsciiDigit (c : Char) : Bool := decide ('0' ≤ c ∧ c ≤ '9')

/-! ## §5. Markup. -/

/-- A character as it stands in markup. -/
def escapeChar (c : Char) : List Char :=
  if c = '&' then "&amp;".toList
  else if c = '<' then "&lt;".toList
  else if c = '>' then "&gt;".toList
  else if c = '\'' then "&#39;".toList
  else if c = '"' then "&#34;".toList
  else [c]

/-- Text as it stands in markup. -/
def escape (s : String) : String := String.ofList (s.toList.flatMap escapeChar)

/-! ## §6. URLs. -/

/-- A byte of a URL. -/
def percentByte (keeps : Char → Bool) (b : UInt8) : List Char :=
  let n := b.toNat
  if n < 128 && keeps (Char.ofNat n) then [Char.ofNat n]
  else ['%', hexDigit (n / 16), hexDigit (n % 16)]

/-- Text inside a URL, given the characters that may stand there. -/
def percentEncoded (keeps : Char → Bool) (s : String) : List Char :=
  s.toUTF8.toList.flatMap (percentByte keeps)

/-- Whether a character stands in a URL as it is. -/
def isUnreserved (c : Char) : Bool :=
  ('a' ≤ c && c ≤ 'z') || ('A' ≤ c && c ≤ 'Z') || ('0' ≤ c && c ≤ '9')
    || c = '-' || c = '.' || c = '_' || c = '~'

/-- Whether a character stands in the path of a URL as it is. -/
def isPathByte (c : Char) : Bool := isUnreserved c || c = '/'

end ControlSurface.Text
