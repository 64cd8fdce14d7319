/-
  ControlSurface.Value.Basic
  ──────────────────────────
  The values that a project file holds.  Fields of elements keep whatever the file gave them, so
  integers and floating numbers stay apart and objects keep the order of their keys.
-/
import ControlSurface.Fault
import ControlSurface.Keyed
import ControlSurface.Number.Shortest

namespace ControlSurface

/-- A value of a project file. -/
inductive Value where
  | null
  | bool (b : Bool)
  | int (i : Int)
  | float (x : Float)
  | text (s : String)
  | list (items : List Value)
  | object (fields : List (String × Value))
  deriving Inhabited

namespace Value

/-! ## §1. Objects. -/

/-- The value of a key in a list of fields. -/
def find? (fields : List (String × Value)) (key : String) : Option Value := Keyed.find? key fields

/-- Fields with a key set: in its place if it is there, else at the end. -/
def put (key : String) (v : Value) (fields : List (String × Value)) : List (String × Value) :=
  Keyed.put key v fields

/-- The fields of an object; anything else has none to ask for. -/
def fields? : Value → Option (List (String × Value))
  | object fields => some fields
  | _ => none

/-- The fields of an object, or a failure. -/
def fieldsOf : Value → Except Fault (List (String × Value))
  | object fields => .ok fields
  | _ => .error .noSuchPart

/-! ## §2. Truth. -/

/-- What counts as true: everything but null, false, zero and what is empty. -/
def truthy : Value → Bool
  | null => false
  | bool b => b
  | int i => i != 0
  | float x => !(x == 0)
  | text s => s != ""
  | list items => !items.isEmpty
  | object fields => !fields.isEmpty

/-- The first value if it counts as true, else the second. -/
def orElse (v w : Value) : Value := if v.truthy then v else w

/-! ## §3. Text. -/

/-- One character inside quotes. -/
def quotedChar (quote c : Char) : List Char :=
  if c = quote ∨ c = '\\' then ['\\', c]
  else if c = '\n' then ['\\', 'n']
  else if c = '\r' then ['\\', 'r']
  else if c = '\t' then ['\\', 't']
  else if c.toNat < 32 ∨ c.toNat = 127 then
    '\\' :: 'x' :: List.replicate (2 - (Nat.toDigits 16 c.toNat).length) '0'
      ++ Nat.toDigits 16 c.toNat
  else [c]

/-- Text in single quotes, or in double quotes when it holds a single quote and no double one. -/
def quoted (s : String) : String :=
  let cs := s.toList
  let quote := if cs.contains '\'' && !cs.contains '"' then '"' else '\''
  String.ofList (quote :: cs.flatMap (quotedChar quote) ++ [quote])

mutual
/-- A value inside a list or an object: like its text, but with strings in quotes. -/
def display : Value → String
  | null => "None"
  | bool b => if b then "True" else "False"
  | int i => toString i
  | float x => Number.shortest x
  | text s => quoted s
  | list items => "[" ++ ", ".intercalate (displayItems items) ++ "]"
  | object fields => "\x7b" ++ ", ".intercalate (displayFields fields) ++ "\x7d"

/-- The displayed items of a list. -/
def displayItems : List Value → List String
  | [] => []
  | v :: rest => display v :: displayItems rest

/-- The displayed fields of an object. -/
def displayFields : List (String × Value) → List String
  | [] => []
  | (k, v) :: rest => (quoted k ++ ": " ++ display v) :: displayFields rest
end

/-- The text of a value: strings as they are, numbers in their shortest form. -/
def toText : Value → String
  | text s => s
  | v => display v

end Value

end ControlSurface
