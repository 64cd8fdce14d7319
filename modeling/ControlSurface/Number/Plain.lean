/-
  ControlSurface.Number.Plain
  ───────────────────────────
  The plain text of a number, as it stands in every stylesheet, attribute and drawing: integers
  exactly, doubles rounded to a few decimals with zeros and point stripped from the end, never an
  exponent and never a negative zero.
-/
import ControlSurface.Value.Number

namespace ControlSurface

namespace Number

/-- Fixed-point text without the zeros at its end, and without a point left at its end; a zero
with or without sign is `0`. -/
def stripped (digits : List Char) : List Char :=
  let noZeros := Text.trimEndBy (· = '0') digits
  let noPoint := Text.trimEndBy (· = '.') noZeros
  if noPoint = [] ∨ noPoint = ['-', '0'] then ['0'] else noPoint

/-- The plain text of a double with at most `places` decimals. -/
def plainFloat (places : Nat) (x : Float) : String := String.ofList (stripped (fixed places x))

end Number

/-- The plain text of a number with at most `places` decimals. -/
def Num.plain (places : Nat) : Num → String
  | .int i => toString i
  | .float x => Number.plainFloat places x

namespace Value

/-! ## §1. Fixed decimals of a value. -/

/-- The largest count of decimals that can be asked for. -/
def maxPlaces : Nat := 2147483647

/-- The number of decimals that a value asks for: a run of digits. -/
def places (v : Value) : Except Fault Nat :=
  let cs := v.toText.toList
  let (n, count, rest) := Number.digitRun cs 0 0
  if count = 0 ∨ !rest.isEmpty ∨ maxPlaces < n then .error .badValue else .ok n

/-- A number with the given count of decimals. -/
def fixed (v : Value) (decimals : Value) : Except Fault String :=
  match v with
  | text _ => .error .badValue
  | null | list _ | object _ => .error .wrongType
  | _ => do
    let n ← decimals.places
    let x ← v.toFloat
    .ok (String.ofList (Number.fixed n x))

/-! ## §2. Plain text of a value. -/

/-- The plain text of a value with at most `decimals` decimals. -/
def plainTo (v decimals : Value) : Except Fault String :=
  match v with
  | bool b => .ok (if b then "1" else "0")
  | int i => .ok (toString i)
  | _ => do
    let s ← v.fixed decimals
    .ok (String.ofList (Number.stripped s.toList))

/-- How many decimals a coordinate has at most. -/
def defaultPlaces : Nat := 4

/-- The plain text of a value with at most four decimals. -/
def plain (v : Value) : Except Fault String := v.plainTo (int defaultPlaces)

end Value

end ControlSurface
