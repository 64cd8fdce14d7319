/-
  ControlSurface.Proofs.Json.Grammar
  ──────────────────────────────────
  The grammar of JSON texts.  A document is a tree in which a number is kept as it is written
  (`Doc`).  Its lexemes stand in one order (`Doc.lexemes`), each has its spellings
  (`Lexeme.Spelled`), and blanks may stand around them (`Spaced`).  A row of spaced lexemes is all
  that a change to the text has to respect, so facts about changed text go by induction on it.
-/
import ControlSurface.Json.Reader
import ControlSurface.Proofs.Number.Plain

namespace ControlSurface.Json

open ControlSurface.Text
open ControlSurface.Number (Digits)

/-! ## §1. Documents. -/

/-- What a JSON text says; numbers are kept as they are written. -/
inductive Doc where
  | null
  | bool (b : Bool)
  | number (digits : List Char)
  | text (s : String)
  | list (items : List Doc)
  | object (fields : List (String × Doc))

/-- Induction on documents: what holds of all items of a list, or of all fields of an object, has to
hold of it. -/
@[elab_as_elim]
theorem Doc.induct {P : Doc → Prop} (null : P .null) (bool : ∀ b, P (.bool b))
    (number : ∀ digits, P (.number digits)) (text : ∀ s, P (.text s))
    (list : ∀ items, (∀ d ∈ items, P d) → P (.list items))
    (object : ∀ fields, (∀ f ∈ fields, P f.2) → P (.object fields)) : ∀ d, P d := by
  intro d
  apply @Doc.rec P (fun items => ∀ d ∈ items, P d) (fun fields => ∀ f ∈ fields, P f.2)
    (fun f => P f.2)
  case null => exact null
  case bool => exact bool
  case number => exact number
  case text => exact text
  case list => exact list
  case object => exact object
  case nil => exact List.forall_mem_nil _
  case cons => exact fun d items hd hitems => List.forall_mem_cons.mpr ⟨hd, hitems⟩
  case nil => exact List.forall_mem_nil _
  case cons => exact fun f fields hf hfields => List.forall_mem_cons.mpr ⟨hf, hfields⟩
  case mk => exact fun _ _ hd => hd

/-- The smallest parts of a JSON text. -/
inductive Lexeme where
  | openList
  | closeList
  | openObject
  | closeObject
  | comma
  | colon
  | null
  | bool (b : Bool)
  | number (digits : List Char)
  | text (s : String)

/-- Rows of lexemes with a comma between every two. -/
def separated : List (List Lexeme) → List Lexeme
  | [] => []
  | [row] => row
  | row :: next :: rows => row ++ .comma :: separated (next :: rows)

mutual
/-- The lexemes of a document in order. -/
def Doc.lexemes : Doc → List Lexeme
  | .null => [.null]
  | .bool b => [.bool b]
  | .number digits => [.number digits]
  | .text s => [.text s]
  | .list items => .openList :: (separated (itemLexemes items) ++ [.closeList])
  | .object fields => .openObject :: (separated (fieldLexemes fields) ++ [.closeObject])

/-- The lexemes of each item of a list. -/
def itemLexemes : List Doc → List (List Lexeme)
  | [] => []
  | d :: rest => d.lexemes :: itemLexemes rest

/-- The lexemes of each field of an object. -/
def fieldLexemes : List (String × Doc) → List (List Lexeme)
  | [] => []
  | (k, d) :: rest => (.text k :: .colon :: d.lexemes) :: fieldLexemes rest
end

/-! ## §2. Numerals. -/

/-- The digits before the point: a zero alone, or digits that do not begin with one. -/
inductive Whole : List Char → Prop where
  | zero : Whole ['0']
  | digits {c : Char} {cs : List Char} (hfirst : c ≠ '0') (hdigits : Digits (c :: cs)) :
      Whole (c :: cs)

/-- A point with digits, or nothing. -/
inductive Fraction : List Char → Prop where
  | none : Fraction []
  | point {cs : List Char} (hdigits : Digits cs) : Fraction ('.' :: cs)

/-- An exponent with its digits, or nothing. -/
inductive Exponent : List Char → Prop where
  | none : Exponent []
  | plain {e : Char} {cs : List Char} (hmark : e = 'e' ∨ e = 'E') (hdigits : Digits cs) :
      Exponent (e :: cs)
  | signed {e s : Char} {cs : List Char} (hmark : e = 'e' ∨ e = 'E') (hsign : s = '-' ∨ s = '+')
      (hdigits : Digits cs) : Exponent (e :: s :: cs)

/-- A numeral. -/
inductive IsNumeral : List Char → Prop where
  | intro {sign whole fraction exponent : List Char} (hsign : sign = [] ∨ sign = ['-'])
      (hwhole : Whole whole) (hfraction : Fraction fraction) (hexponent : Exponent exponent) :
      IsNumeral (sign ++ (whole ++ (fraction ++ exponent)))

/-- The words for the doubles that have no numeral. -/
def specialWords : List (List Char) := ["NaN".toList, "Infinity".toList, "-Infinity".toList]

/-- What may stand for a number: a numeral, and beyond the standard a special word. -/
inductive IsNumber : List Char → Prop where
  | numeral {cs : List Char} (h : IsNumeral cs) : IsNumber cs
  | special {cs : List Char} (h : cs ∈ specialWords) : IsNumber cs

/-- Whether a character after a numeral would belong to it. -/
def inNumeral (c : Char) : Bool := isAsciiDigit c || c == '.' || c == 'e' || c == 'E'

/-- No numeral goes on here. -/
def Stops (cs : List Char) : Prop := ∀ c, cs.head? = some c → inNumeral c = false

theorem stops_nil : Stops [] := fun c hc => by cases hc

theorem stops_cons {c : Char} (h : inNumeral c = false) (cs : List Char) : Stops (c :: cs) :=
  fun d hd => by
    cases hd
    exact h

/-! ## §3. Strings. -/

/-- The ways to write a character inside quotes: as it is, with a short escape, as a UTF-16 unit or
as a pair of them. -/
inductive SpellsChar : Char → List Char → Prop where
  | plain {c : Char} (hprinted : 32 ≤ c.toNat) (hquote : c ≠ '"') (hbackslash : c ≠ '\\') :
      SpellsChar c [c]
  | short {c e : Char} (hescape : shortEscape? e = some c) : SpellsChar c ['\\', e]
  | unit {c x₁ x₂ x₃ x₄ : Char} (hunit : unit? x₁ x₂ x₃ x₄ = some c.toNat) :
      SpellsChar c ['\\', 'u', x₁, x₂, x₃, x₄]
  | pair {c x₁ x₂ x₃ x₄ y₁ y₂ y₃ y₄ : Char} {high low : Nat}
      (hhigh : unit? x₁ x₂ x₃ x₄ = some high) (hlow : unit? y₁ y₂ y₃ y₄ = some low)
      (hisHigh : isHighUnit high = true) (hisLow : isLowUnit low = true)
      (hpair : c.toNat = 0x10000 + (high - 0xD800) * 0x400 + (low - 0xDC00)) :
      SpellsChar c ['\\', 'u', x₁, x₂, x₃, x₄, '\\', 'u', y₁, y₂, y₃, y₄]

/-- The ways to write characters inside quotes. -/
inductive SpellsChars : List Char → List Char → Prop where
  | nil : SpellsChars [] []
  | cons {c : Char} {cs spelling body : List Char} (hchar : SpellsChar c spelling)
      (hchars : SpellsChars cs body) : SpellsChars (c :: cs) (spelling ++ body)

/-! ## §4. Texts. -/

/-- The spellings of a lexeme. -/
inductive Lexeme.Spelled : Lexeme → List Char → Prop where
  | openList : Spelled .openList ['[']
  | closeList : Spelled .closeList [']']
  | openObject : Spelled .openObject ['\x7b']
  | closeObject : Spelled .closeObject ['\x7d']
  | comma : Spelled .comma [',']
  | colon : Spelled .colon [':']
  | null : Spelled .null "null".toList
  | bool (b : Bool) : Spelled (.bool b) (if b then "true".toList else "false".toList)
  | number {digits : List Char} (hnumber : IsNumber digits) : Spelled (.number digits) digits
  | text {s : String} {body : List Char} (hchars : SpellsChars s.toList body) :
      Spelled (.text s) ('"' :: (body ++ ['"']))

/-- Whether a lexeme can end before a text: a number ends only where it does not go on. -/
def Lexeme.EndsBefore : Lexeme → List Char → Prop
  | .number _, cs => Stops cs
  | _, _ => True

/-- A row of lexemes in a text, with blanks around them. -/
inductive Spaced : List Lexeme → List Char → Prop where
  | nil : Spaced [] []
  | blank {c : Char} {row : List Lexeme} {cs : List Char} (hblank : isJsonBlank c = true)
      (hrest : Spaced row cs) : Spaced row (c :: cs)
  | lexeme {l : Lexeme} {spelling : List Char} {row : List Lexeme} {cs : List Char}
      (hspelled : l.Spelled spelling) (hends : l.EndsBefore cs) (hrest : Spaced row cs) :
      Spaced (l :: row) (spelling ++ cs)

/-- A text says what a document is. -/
def Spells (d : Doc) (s : String) : Prop := Spaced d.lexemes s.toList

/-- A document whose numbers are all numerals, so that its texts are standard JSON. -/
def Doc.Standard (d : Doc) : Prop := ∀ digits, .number digits ∈ d.lexemes → IsNumeral digits

/-- Blanks may stand before a row. -/
theorem Spaced.blanks {blanks : List Char} (hblanks : ∀ c ∈ blanks, isJsonBlank c = true)
    {row : List Lexeme} {cs : List Char} (h : Spaced row cs) : Spaced row (blanks ++ cs) := by
  induction blanks with
  | nil => exact h
  | cons c blanks ih =>
    exact .blank (hblanks c (List.mem_cons_self ..))
      (ih fun d hd => hblanks d (List.mem_cons_of_mem c hd))

/-! ## §5. What a document stands for. -/

mutual
/-- The value of a document: its numbers as they are read, and of a repeated key the last value. -/
def Doc.value : Doc → Except Fault Value
  | .null => .ok .null
  | .bool b => .ok (.bool b)
  | .number digits => read (String.ofList digits)
  | .text s => .ok (.text s)
  | .list items => do .ok (.list (← itemValues items))
  | .object fields => do .ok (.object (Keyed.ofList (← fieldValues fields)))

/-- The values of the items of a list. -/
def itemValues : List Doc → Except Fault (List Value)
  | [] => .ok []
  | d :: rest => do
    let v ← d.value
    .ok (v :: (← itemValues rest))

/-- The values of the fields of an object. -/
def fieldValues : List (String × Doc) → Except Fault (List (String × Value))
  | [] => .ok []
  | (k, d) :: rest => do
    let v ← d.value
    .ok ((k, v) :: (← fieldValues rest))
end

end ControlSurface.Json
