/-
  ControlSurface.Number.Shortest
  ──────────────────────────────
  The shortest decimal text that reads back as the same double.

  The reals that round to `m · 2^e` form an interval (its ends belong to it when `m` is even).
  For one, two, … seventeen digits the two neighbours of the number on that decimal grid are
  tested against the interval in exact arithmetic; the first grid with a hit gives the digits, and
  of two hits the nearer one.  `layout` then decides where the point goes.
-/
import ControlSurface.Number.Binary64

namespace ControlSurface.Number

/-! ## §1. The interval of a double. -/

/-- Twice-scaled bounds: the number is `mid / den`, its interval runs from `low / den` to
`high / den`. -/
structure Interval where
  low : Nat
  mid : Nat
  high : Nat
  den : Nat
  closed : Bool
  deriving Repr, DecidableEq

/-- The reals that round to the given finite number.  Just above a power of two the lower gap is
half as wide as the upper one. -/
def Dyadic.interval (d : Dyadic) : Interval :=
  let narrow := d.mantissa = twoTo 52 ∧ -1074 < d.exponent
  let lowGap := if narrow then 1 else 2
  let (unit, den) := dyadicRatio 1 (d.exponent - 2)
  { low := (4 * d.mantissa - lowGap) * unit
    mid := 4 * d.mantissa * unit
    high := (4 * d.mantissa + 2) * unit
    den := den
    closed := d.mantissa % 2 = 0 }

/-- Whether `n · 10^power` lies in the interval. -/
def Interval.holds (i : Interval) (n : Nat) (power : Int) : Bool :=
  let (num, den) := if power < 0 then (n, tenTo power.natAbs) else (n * tenTo power.natAbs, 1)
  let a := num * i.den
  let lo := i.low * den
  let hi := i.high * den
  if i.closed then decide (lo ≤ a ∧ a ≤ hi) else decide (lo < a ∧ a < hi)

/-! ## §2. The digits. -/

/-- The decimal exponent of a positive fraction: the `k` with `10^(k-1) ≤ num/den < 10^k`. -/
def decimalExponent (num den : Nat) : Int :=
  let guess : Int := ((digits num).length : Int) - ((digits den).length : Int)
  let reached :=
    if guess < 0 then decide (den ≤ num * tenTo guess.natAbs)
    else decide (den * tenTo guess.natAbs ≤ num)
  if reached then guess + 1 else guess

/-- The point of the grid `10^power` that lies in the interval and nearest to the number. -/
def Interval.nearest? (i : Interval) (power : Int) : Option Nat :=
  let (num, den) :=
    if power < 0 then (i.mid * tenTo power.natAbs, i.den) else (i.mid, i.den * tenTo power.natAbs)
  let below := num / den
  let r := num % den
  let nearer := if 2 * r < den then below
    else if 2 * r = den then (if below % 2 = 0 then below else below + 1) else below + 1
  let farther := if nearer = below then below + 1 else below
  -- both neighbours may lie in the interval, and then the nearer one is wanted
  if i.holds nearer power then some nearer
  else if i.holds farther power then some farther
  else none

/-- Tries `count` grids, from `power` to finer ones. -/
def Interval.search (i : Interval) : Nat → Int → Nat × Int
  | 0, power => (i.mid, power)
  | count + 1, power =>
    match i.nearest? power with
    | some n => (n, power)
    | none => i.search count (power - 1)

/-- The fewest digits that read back, and the decimal exponent: `0.ddd · 10^k`. -/
def Dyadic.shortest (d : Dyadic) : List Char × Int :=
  if d.mantissa = 0 then (['0'], 1)
  else
    let i := d.interval
    let k := decimalExponent i.mid i.den
    -- seventeen digits always read back, so the search ends with a hit
    let (n, power) := i.search 18 (k - 1)
    let ds := digits n
    let kept := (ds.reverse.dropWhile (· = '0')).reverse
    (kept, (ds.length : Int) + power)

/-! ## §3. The layout. -/

/-- Digits with the point after the first `k` of them: positional when `-4 ≤ k - 1 < 16`, else
with an exponent of at least two digits. -/
def layout (ds : List Char) (k : Int) : List Char :=
  if -4 < k ∧ k ≤ 16 then
    if k ≤ 0 then '0' :: '.' :: (List.replicate k.natAbs '0' ++ ds)
    else if (ds.length : Int) ≤ k then
      ds ++ List.replicate (k.toNat - ds.length) '0' ++ ['.', '0']
    else ds.take k.toNat ++ '.' :: ds.drop k.toNat
  else
    let e := k - 1
    let sign := if e < 0 then '-' else '+'
    let head := match ds with
      | [] => []
      | [d] => [d]
      | d :: rest => d :: '.' :: rest
    head ++ 'e' :: sign :: paddedDigits 2 e.natAbs

/-- The shortest text of a double that reads back as it: `0.1`, `1.0`, `1e-07`, `-0.0`, `inf`. -/
def shortest (x : Float) : String :=
  match parts x with
  | .finite d =>
    let (ds, k) := d.shortest
    let body := layout ds k
    String.ofList (if d.negative then '-' :: body else body)
  | .infinite true => "-inf"
  | .infinite false => "inf"
  | .notANumber => "nan"

end ControlSurface.Number
