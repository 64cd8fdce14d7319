/-
  ControlSurface.Xml.Character
  ────────────────────────────
  The characters of XML 1.0: which may stand in a document, which begin a name, which continue it,
  and which are blank; and references: to a character by its number, to one of the five characters
  that have a name, or to an entity of the document; whether text is a URI reference, by which a
  namespace must be named; and the sets of characters that are one byte each.
-/
import ControlSurface.Text.Character
import ControlSurface.Text.Search

namespace ControlSurface.Xml

open ControlSurface.Text

/-! ## §1. Characters. -/

/-- Whether a code point is a character of a document. -/
def isCharCode (n : Nat) : Bool :=
  n == 9 || n == 10 || n == 13 || (32 ≤ n && n ≤ 0xD7FF) || (0xE000 ≤ n && n ≤ 0xFFFD)
    || (0x10000 ≤ n && n ≤ 0x10FFFF)

/-- Whether a character may stand in a document. -/
def isChar (c : Char) : Bool := isCharCode c.toNat

/-- Whether a character is blank. -/
def isSpace (c : Char) : Bool := c == ' ' || c == '\t' || c == '\n' || c == '\r'

/-- A letter of the English alphabet. -/
def isLetter (c : Char) : Bool := ('a' ≤ c && c ≤ 'z') || ('A' ≤ c && c ≤ 'Z')

/-- Whether a character may begin a name without colon. -/
def isNameStart (c : Char) : Bool :=
  let n := c.toNat
  ('A' ≤ c && c ≤ 'Z') || c == '_' || ('a' ≤ c && c ≤ 'z') || (0xC0 ≤ n && n ≤ 0xD6)
    || (0xD8 ≤ n && n ≤ 0xF6) || (0xF8 ≤ n && n ≤ 0x2FF) || (0x370 ≤ n && n ≤ 0x37D)
    || (0x37F ≤ n && n ≤ 0x1FFF) || (0x200C ≤ n && n ≤ 0x200D) || (0x2070 ≤ n && n ≤ 0x218F)
    || (0x2C00 ≤ n && n ≤ 0x2FEF) || (0x3001 ≤ n && n ≤ 0xD7FF) || (0xF900 ≤ n && n ≤ 0xFDCF)
    || (0xFDF0 ≤ n && n ≤ 0xFFFD) || (0x10000 ≤ n && n ≤ 0xEFFFF)

/-- Whether a character may continue a name without colon. -/
def isNameChar (c : Char) : Bool :=
  let n := c.toNat
  isNameStart c || c == '-' || c == '.' || ('0' ≤ c && c ≤ '9') || n == 0xB7
    || (0x300 ≤ n && n ≤ 0x36F) || (0x203F ≤ n && n ≤ 0x2040)

/-- Whether text is a name without colon. -/
def isName (cs : List Char) : Bool :=
  match cs with
  | [] => false
  | c :: rest => isNameStart c && rest.all isNameChar

/-- The name without colon at the start of a text, and what follows it. -/
def name? (cs : List Char) : Option (List Char × List Char) :=
  let found := cs.takeWhile isNameChar
  if isName found then some (found, cs.dropWhile isNameChar) else none

/-- Text without the blank characters at its start. -/
def skipSpace (cs : List Char) : List Char := cs.dropWhile isSpace

/-! ## §2. References. -/

/-- What a reference stands for. -/
inductive Reference where
  | char (c : Char)
  | entity (name : String)
  deriving Repr, DecidableEq, Inhabited

/-- The characters that have a name. -/
def namedChars : List (String × Char) :=
  [("lt", '<'), ("gt", '>'), ("amp", '&'), ("quot", '"'), ("apos", '\'')]

/-- The number that digits of a base denote. -/
def number? (base : Nat) (ds : List Char) : Option Nat :=
  if ds.isEmpty then none
  else ds.foldl (fun total c => do
    let n ← total
    let d ← Text.hexValue? c
    if d < base then some (n * base + d) else none) (some 0)

/-- The character of a number, if a document may hold it. -/
def charOf? (n : Nat) : Option Char := if isCharCode n then some (Char.ofNat n) else none

/-- The text up to a semicolon, and what follows it. -/
def upToSemicolon? (cs : List Char) : Option (List Char × List Char) :=
  match cs.dropWhile (· ≠ ';') with
  | ';' :: rest => some (cs.takeWhile (· ≠ ';'), rest)
  | _ => none

/-- The reference after an ampersand, and what follows it. -/
def reference? (cs : List Char) : Option (Reference × List Char) := do
  let (body, rest) ← upToSemicolon? cs
  match body with
  | '#' :: 'x' :: ds => some (.char (← charOf? (← number? 16 ds)), rest)
  | '#' :: ds => some (.char (← charOf? (← number? 10 ds)), rest)
  | _ =>
    let name := String.ofList body
    -- the five names cannot be declared to mean something else
    match namedChars.find? fun n => n.1 == name with
    | some (_, c) => some (.char c, rest)
    | none => if isName body then some (.entity name, rest) else none

/-! ## §3. Characters. -/

/-- A character that stands for itself in a path. -/
def isPathChar (c : Char) : Bool :=
  isLetter c || isAsciiDigit c || "-._~!$&'()*+,;=:@".toList.contains c

/-- Whether all characters are of a class, an escape of two hexadecimal digits counting as one. -/
def escapedAll (p : Char → Bool) : List Char → Bool
  | '%' :: a :: b :: cs =>
    (hexValue? a).isSome && (hexValue? b).isSome && escapedAll p cs
  | c :: cs => p c && escapedAll p cs
  | [] => true

/-! ## §4. Parts. -/

/-- The text before the first of some characters, and the rest from there on. -/
def upTo (stops : List Char) (cs : List Char) : List Char × List Char :=
  (cs.takeWhile fun c => !stops.contains c, cs.dropWhile fun c => stops.contains c == false)

/-- The text after a scheme, if there is one. -/
def afterScheme (cs : List Char) : Option (List Char) :=
  match upTo [':', '/', '?', '#'] cs with
  | (c :: scheme, ':' :: rest) =>
    if isLetter c && scheme.all (fun d => isLetter d || isAsciiDigit d || "+-.".toList.contains d)
    then some rest else none
  | _ => none

/-- Whether text is nothing, or a colon and digits. -/
def isNumberPart : List Char → Bool
  | [] => true
  | ':' :: d :: ds => isAsciiDigit d && ds.all isAsciiDigit
  | _ => false

/-- Whether text is a host with optional user and a number after a colon.  A host in brackets may
hold any characters. -/
def isAuthority (cs : List Char) : Bool :=
  let host := match cutAtLast? ['@'] cs with
    | some (_, host) => host
    | none => cs
  let user := match cutAtLast? ['@'] cs with
    | some (user, _) => escapedAll (fun c => isPathChar c && c ≠ '@') user
    | none => true
  user && match host with
    | '[' :: inside =>
      (match cutAt? [']'] inside with
       | some (_, rest) => isNumberPart rest
       | none => false)
    | _ =>
      let (name, rest) := upTo [':'] host
      escapedAll (fun c => isPathChar c && c ≠ ':' && c ≠ '@') name && isNumberPart rest

/-- Whether text is an optional host and a path. -/
def isHierarchy (relative : Bool) (cs : List Char) : Bool :=
  match cs with
  | '/' :: '/' :: rest =>
    let (host, path) := upTo ['/'] rest
    isAuthority host && escapedAll (fun c => isPathChar c || c = '/') path
  | _ =>
    escapedAll (fun c => isPathChar c || c = '/') cs
      -- a colon in the first name would end a scheme
      && !(relative && ((upTo ['/'] cs).1.contains ':'))

/-- Whether text is a URI reference. -/
def isAddress (s : String) : Bool :=
  let (main, fragment) := upTo ['#'] s.toList
  let (hierarchy, query) := upTo ['?'] main
  let inside (c : Char) : Bool := isPathChar c || c = '/' || c = '?'
  let path := match afterScheme hierarchy with
    | some rest => isHierarchy false rest
    | none => isHierarchy true hierarchy
  path && escapedAll inside (query.drop 1)
    && escapedAll (fun c => inside c || c = '[' || c = ']') (fragment.drop 1)

/-! ## §5. Bytes as characters. -/

/-- A set of characters that are one byte each.  Bytes from `first` on are the letters, and a byte
before or after these is the character of its own number. -/
structure Charset where
  names : List String
  first : Nat
  letters : String
  deriving Repr, Inhabited

/-- Stands among letters for a byte that is no character. -/
def noLetter : Char := '?'

/-- The character of a byte, if it is one. -/
def Charset.char? (s : Charset) (b : UInt8) : Option Char :=
  if b.toNat < s.first then some (Char.ofNat b.toNat)
  else match s.letters.toList[b.toNat - s.first]? with
    | some c => if c = noLetter then none else some c
    | none => some (Char.ofNat b.toNat)

/-- The sets of one-byte characters in which a document can be declared to be. -/
def charsets : List Charset :=
  [⟨["iso-8859-1", "iso_8859-1", "iso-latin-1", "latin1", "latin-1"], 0x80, ""⟩,
   ⟨["iso-8859-2"], 0xA0,
    "\u00a0Ą˘Ł¤ĽŚ§¨ŠŞŤŹ\u00adŽŻ°ą˛ł´ľśˇ¸šşťź˝žż"
      ++ "ŔÁÂĂÄĹĆÇČÉĘËĚÍÎĎĐŃŇÓÔŐÖ×ŘŮÚŰÜÝŢß"
      ++ "ŕáâăäĺćçčéęëěíîďđńňóôőö÷řůúűüýţ˙"⟩,
   ⟨["iso-8859-15"], 0xA0,
    "\u00a0¡¢£€¥Š§š©ª«¬\u00ad®¯°±²³Žµ¶·ž¹º»ŒœŸ"⟩,
   ⟨["windows-1250"], 0x80,
    "€?‚?„…†‡?‰Š‹ŚŤŽŹ?‘’“”•–—?™š›śťžź"
      ++ "\u00a0ˇ˘Ł¤Ą¦§¨©Ş«¬\u00ad®Ż°±˛ł´µ¶·¸ąş»Ľ˝ľż"
      ++ "ŔÁÂĂÄĹĆÇČÉĘËĚÍÎĎĐŃŇÓÔŐÖ×ŘŮÚŰÜÝŢß"
      ++ "ŕáâăäĺćçčéęëěíîďđńňóôőö÷řůúűüýţ˙"⟩,
   ⟨["windows-1251"], 0x80,
    "ЂЃ‚ѓ„…†‡€‰Љ‹ЊЌЋЏђ‘’“”•–—?™љ›њќћџ"
      ++ "\u00a0ЎўЈ¤Ґ¦§Ё©Є«¬\u00ad®Ї°±Ііґµ¶·ё№є»јЅѕї"
      ++ "АБВГДЕЖЗИЙКЛМНОПРСТУФХЦЧШЩЪЫЬЭЮЯ"
      ++ "абвгдежзийклмнопрстуфхцчшщъыьэюя"⟩,
   ⟨["windows-1252", "cp1252"], 0x80,
    "€?‚ƒ„…†‡ˆ‰Š‹Œ?Ž??‘’“”•–—˜™š›œ?žŸ"⟩,
   ⟨["koi8-r"], 0x80,
    "─│┌┐└┘├┤┬┴┼▀▄█▌▐░▒▓⌠■∙√≈≤≥\u00a0⌡°²·÷"
      ++ "═║╒ё╓╔╕╖╗╘╙╚╛╜╝╞╟╠╡Ё╢╣╤╥╦╧╨╩╪╫╬©"
      ++ "юабцдефгхийклмнопярстужвьызшэщчъ"
      ++ "ЮАБЦДЕФГХИЙКЛМНОПЯРСТУЖВЬЫЗШЭЩЧЪ"⟩]

end ControlSurface.Xml
