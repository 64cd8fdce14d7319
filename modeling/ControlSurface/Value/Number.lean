/-
  ControlSurface.Value.Number
  ───────────────────────────
  Arithmetic, comparison and order of values.  Truth values count as 0 and 1, integers are exact,
  and as soon as one operand is a double the other becomes one; an integer too large for that is a
  failure.  Comparisons are exact between integers and doubles.  Numbers have an order and texts
  have one; a list whose keys are mixed, or of which some have no order, cannot be sorted.
-/
import ControlSurface.Number.Binary64
import ControlSurface.Number.Reading
import ControlSurface.Value.Basic

namespace ControlSurface

/-! ## §1. Numbers. -/

/-- A number: an integer of any size, or a double. -/
inductive Num where
  | int (i : Int)
  | float (x : Float)
  deriving Inhabited

namespace Num

/-- A number as a value. -/
def value : Num → Value
  | int i => .int i
  | float x => .float x

/-- A number as a double. -/
def toFloat : Num → Except Fault Float
  | int i => match Number.ofInt? i with
    | some x => .ok x
    | none => .error .tooLarge
  | float x => .ok x

/-- Applies an operation on integers to two integers, else one on doubles to their values. -/
def combine (onInts : Int → Int → Num) (onFloats : Float → Float → Float) (a b : Num) :
    Except Fault Num :=
  match a, b with
  | int i, int j => .ok (onInts i j)
  | _, _ => do
    let x ← a.toFloat
    let y ← b.toFloat
    .ok (float (onFloats x y))

/-- Sum. -/
def add : Num → Num → Except Fault Num := combine (fun i j => int (i + j)) (· + ·)

/-- Difference. -/
def sub : Num → Num → Except Fault Num := combine (fun i j => int (i - j)) (· - ·)

/-- Product. -/
def mul : Num → Num → Except Fault Num := combine (fun i j => int (i * j)) (· * ·)

/-- Whether a number is zero. -/
def isZero : Num → Bool
  | int i => i == 0
  | float x => x == 0

/-- Quotient, always a double: the one nearest to the exact quotient of two integers. -/
def div (a b : Num) : Except Fault Num :=
  if b.isZero then .error .divisionByZero
  else match a, b with
    | int i, int j =>
      match Number.ofRatio? (decide (i < 0) != decide (j < 0)) i.natAbs j.natAbs with
      | some x => .ok (float (if i = 0 then 0.0 else x))
      | none => .error .tooLarge
    | _, _ => do
      let x ← a.toFloat
      let y ← b.toFloat
      .ok (float (x / y))

/-- Absolute value. -/
def abs : Num → Num
  | int i => int i.natAbs
  | float x => float x.abs

/-! ## §2. Comparison. -/

/-- A finite double as an exact fraction `num / den`, or none. -/
def fraction? : Num → Option (Int × Nat)
  | int i => some (i, 1)
  | float x => match Number.parts x with
    | .finite d =>
      let (num, den) := d.ratio
      some (if d.negative then -(num : Int) else num, den)
    | _ => none

/-- Whether one number is less than another; nothing is less or more than not-a-number. -/
def lt (a b : Num) : Bool :=
  match a, b with
  | int i, int j => decide (i < j)
  | float x, float y => decide (x < y)
  | int _, float y =>
    match a.fraction?, b.fraction? with
    | some (p, q), some (r, s) => decide (p * s < r * q)
    -- against infinity only the sign counts, and not-a-number is never greater
    | _, _ => decide ((0 : Float) < y)
  | float x, int _ =>
    match a.fraction?, b.fraction? with
    | some (p, q), some (r, s) => decide (p * s < r * q)
    | _, _ => decide (x < (0 : Float))

/-- Whether two numbers are equal. -/
def eq (a b : Num) : Bool :=
  match a, b with
  | int i, int j => i == j
  | float x, float y => x == y
  | _, _ =>
    match a.fraction?, b.fraction? with
    | some (p, q), some (r, s) => p * s == r * q
    | _, _ => false

/-- Whether one number is at most another. -/
def le (a b : Num) : Bool := lt a b || eq a b

/-- The smaller of two numbers; the first if neither is smaller. -/
def min (a b : Num) : Num := if lt b a then b else a

/-- The larger of two numbers; the first if neither is larger. -/
def max (a b : Num) : Num := if lt a b then b else a

/-! ## §3. Whole numbers. -/

/-- The quotient rounded down. -/
def floorDiv (a b : Num) : Except Fault Num :=
  if b.isZero then .error .divisionByZero
  else match a, b with
    | int i, int j => .ok (int (Int.fdiv i j))
    | _, _ => do
      let x ← a.toFloat
      let y ← b.toFloat
      -- doubles are divided exactly, then rounded down, so no error of the quotient is seen
      match fraction? (float x), fraction? (float y) with
      | some (p, q), some (r, s) =>
        match Number.ofInt? (Int.fdiv (p * s) (r * q)) with
        | some z => .ok (float z)
        | none => .ok (float (x / y))
      | some (p, _), none =>
        if y.isNaN then .ok (float y)
        else .ok (float (if p = 0 then x / y
          else if decide (p < 0) == decide (y < 0) then 0.0 else -1.0))
      | none, _ => .ok (float Number.nan)

/-- The part before the point. -/
def truncate : Num → Except Fault Int
  | int i => .ok i
  | float x => match Number.parts x with
    | .finite d =>
      let (num, den) := d.ratio
      let q : Int := (num / den : Nat)
      .ok (if d.negative then -q else q)
    | .infinite _ => .error .tooLarge
    | .notANumber => .error .badValue

/-- The nearest integer, a half going to the even one. -/
def nearest : Num → Except Fault Int
  | int i => .ok i
  | float x => match Number.parts x with
    | .finite d =>
      let q : Int := d.scaled 0
      .ok (if d.negative then -q else q)
    | .infinite _ => .error .tooLarge
    | .notANumber => .error .badValue

end Num

/-! ## §4. Numbers among values. -/

namespace Value

/-- The number that a value is, if it is one; truth values are 0 and 1. -/
def num? : Value → Option Num
  | bool b => some (.int (if b then 1 else 0))
  | int i => some (.int i)
  | float x => some (.float x)
  | _ => none

/-- The number that a value is, or a failure. -/
def num (v : Value) : Except Fault Num :=
  match v.num? with
  | some n => .ok n
  | none => .error .wrongType

mutual
/-- Equality of values: numbers by what they denote, objects without regard to order. -/
def same : Value → Value → Bool
  | null, null => true
  | text a, text b => a == b
  | list xs, list ys => sameList xs ys
  | object xs, object ys => xs.length == ys.length && sameFields xs ys
  | bool a, w => sameNum (.int (if a then 1 else 0)) w
  | int i, w => sameNum (.int i) w
  | float x, w => sameNum (.float x) w
  | _, _ => false

/-- Equality of a number and a value. -/
def sameNum (n : Num) (w : Value) : Bool :=
  match w.num? with
  | some m => n.eq m
  | none => false

/-- Equality of lists, item by item. -/
def sameList : List Value → List Value → Bool
  | [], [] => true
  | v :: vs, w :: ws => same v w && sameList vs ws
  | _, _ => false

/-- Whether every field is found, with an equal value, among other fields. -/
def sameFields : List (String × Value) → List (String × Value) → Bool
  | [], _ => true
  | (k, v) :: rest, ys =>
    (match find? ys k with
     | some w => same v w
     | none => false) && sameFields rest ys
end

instance : BEq Value := ⟨same⟩

/-- Whether one value comes before another: numbers by size, texts by code point. -/
def less (v w : Value) : Except Fault Bool :=
  match v, w with
  | text a, text b => .ok (decide (a < b))
  | _, _ => do
    let a ← v.num
    let b ← w.num
    .ok (a.lt b)

/-- The smaller of two values; the first if neither is smaller. -/
def smaller (v w : Value) : Except Fault Value := do
  .ok (if ← w.less v then w else v)

/-- The larger of two values; the first if neither is larger. -/
def larger (v w : Value) : Except Fault Value := do
  .ok (if ← v.less w then w else v)

/-- The integer that a value denotes: a number without its fraction, or text that is an integer. -/
def toInt : Value → Except Fault Int
  | text s => match Number.readInt? s.toList with
    | some i => .ok i
    | none => .error .badValue
  | v => do
    let n ← v.num
    n.truncate

/-- The double that a value denotes: a number, or text that is one. -/
def toFloat : Value → Except Fault Float
  | text s => match Number.readFloat? s.toList with
    | some x => .ok x
    | none => .error .badValue
  | v => do
    let n ← v.num
    n.toFloat

/-- The integer that a value is, where no fraction is allowed. -/
def index : Value → Except Fault Int
  | bool b => .ok (if b then 1 else 0)
  | int i => .ok i
  | _ => .error .wrongType

/-- The whole numbers from zero up to a count; a count below zero has none. -/
def upTo (count : Int) : List Int := (List.range count.toNat).map Int.ofNat

/-- The text that a value is, where nothing counts as empty text. -/
def string (v : Value) : Except Fault String :=
  match v with
  | text s => .ok s
  | _ => if v.truthy then .error .noSuchPart else .ok ""

/-- Whether a value can be looked up: lists and objects cannot. -/
def isKey : Value → Bool
  | list _ | object _ => false
  | _ => true

/-- The items of a list; the characters of a text and the keys of an object count as items. -/
def items : Value → Except Fault (List Value)
  | list xs => .ok xs
  | text s => .ok (s.toList.map fun c => text (String.singleton c))
  | object fields => .ok (fields.map fun f => text f.1)
  | _ => .error .wrongType

/-! ## §5. Order. -/

/-- Whether one value comes before another; values that cannot be compared do not. -/
def precedes (v w : Value) : Bool :=
  match v.less w with
  | .ok b => b
  | .error _ => false

/-- Whether every two keys of a list can be compared. -/
def allComparable : List Value → Bool
  | [] => true
  | v :: rest => rest.all (fun w => (v.less w).isOk) && allComparable rest

/-- A list sorted by a key, equal keys as listed. -/
def sortBy {α : Type} (key : α → Value) (items : List α) : Except Fault (List α) :=
  if allComparable (items.map key) then
    .ok (items.mergeSort fun a b => !precedes (key b) (key a))
  else .error .wrongType

end Value

end ControlSurface
