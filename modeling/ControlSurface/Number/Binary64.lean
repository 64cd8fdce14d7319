/-
  ControlSurface.Number.Binary64
  ──────────────────────────────
  Double-precision numbers as exact dyadic rationals.

  `parts` reads a double as `± m · 2^e` (or infinity, or not-a-number), and `ofRatio?` is its
  counterpart: the double nearest to `num / den`, ties going to the even mantissa.  Every text
  form and every exact operation of the library is computed between these two, in `Nat`.  Fixed-point
  text is a number with a given count of decimals, rounded from its exact value, a half going to the
  even neighbour.
-/

namespace ControlSurface.Number

/-! ## §1. Powers. -/

/-- A power of two. -/
def twoTo (n : Nat) : Nat := Nat.pow 2 n

/-- A power of ten. -/
def tenTo (n : Nat) : Nat := Nat.pow 10 n

/-! ## §2. Rounding a quotient. -/

/-- The integer nearest to `num / den`; an exact half goes to the even neighbour. -/
def roundQuotient (num den : Nat) : Nat :=
  let q := num / den
  let r := num % den
  if 2 * r < den then q
  else if 2 * r = den then (if q % 2 = 0 then q else q + 1)
  else q + 1

/-- `m · 2^e` as a fraction of naturals. -/
def dyadicRatio (m : Nat) (e : Int) : Nat × Nat :=
  if e < 0 then (m, twoTo e.natAbs) else (m * twoTo e.natAbs, 1)

/-! ## §3. Reading a double. -/

/-- A finite double: `± mantissa · 2 ^ exponent`. -/
structure Dyadic where
  negative : Bool
  mantissa : Nat
  exponent : Int
  deriving Repr, DecidableEq

/-- What a double stands for. -/
inductive Parts where
  | finite (d : Dyadic)
  | infinite (negative : Bool)
  | notANumber
  deriving Repr, DecidableEq

/-- The parts of a double, read from its 64 bits: sign, eleven bits of exponent, 52 bits of
fraction.  Exponent 0 holds the subnormal numbers, the largest one infinity and not-a-number. -/
def partsOfBits (bits : Nat) : Parts :=
  let negative : Bool := bits / twoTo 63 % 2 = 1
  let biased : Nat := bits / twoTo 52 % 2048
  let fraction : Nat := bits % twoTo 52
  if biased = 2047 then
    if fraction = 0 then .infinite negative else .notANumber
  else if biased = 0 then .finite ⟨negative, fraction, -1074⟩
  else .finite ⟨negative, fraction + twoTo 52, (biased : Int) - 1075⟩

/-- The parts of a double. -/
def parts (x : Float) : Parts := partsOfBits x.toBits.toNat

/-! ## §4. Building a double. -/

/-- The bits of the largest exponent: where infinity begins. -/
def infinityBits : Nat := 2047 * twoTo 52

/-- The bits (without sign) of the double nearest to `num / den`; at or above `infinityBits` the
quotient is too large for a double. -/
def bitsOfRatio (num den : Nat) : Nat :=
  if num = 0 then 0
  else
    let k : Int := (Nat.log2 num : Int) - (Nat.log2 den : Int)
    let above :=
      if k < 0 then decide (den ≤ num * twoTo k.natAbs) else decide (den * twoTo k.natAbs ≤ num)
    let e : Int := max (-1074) (if above then k - 52 else k - 53)
    let m := if e < 0 then roundQuotient (num * twoTo e.natAbs) den
             else roundQuotient num (den * twoTo e.natAbs)
    -- the leading bit of the mantissa adds one to the exponent, and so does a mantissa that was
    -- rounded up to the next power of two
    (e + 1074).toNat * twoTo 52 + m

/-- The double with the given sign and bits of magnitude. -/
def ofBits (negative : Bool) (magnitude : Nat) : Float :=
  Float.ofBits (UInt64.ofNat (magnitude + if negative then twoTo 63 else 0))

/-- The double nearest to `± num / den`, or none when it would be infinite. -/
def ofRatio? (negative : Bool) (num den : Nat) : Option Float :=
  let bits := bitsOfRatio num den
  if bits < infinityBits then some (ofBits negative bits) else none

/-- Positive infinity. -/
def infinity : Float := ofBits false infinityBits

/-- Negative infinity. -/
def negInfinity : Float := ofBits true infinityBits

/-- Not-a-number. -/
def nan : Float := ofBits false (infinityBits + twoTo 51)

/-- The double nearest to an integer, or none when the integer is too large. -/
def ofInt? (i : Int) : Option Float := ofRatio? (i < 0) i.natAbs 1

/-- A finite double as a fraction `± num / den`. -/
def Dyadic.ratio (d : Dyadic) : Nat × Nat := dyadicRatio d.mantissa d.exponent

/-! ## §5. Digits. -/

/-- The decimal digits of a natural number, most significant first. -/
def digits (n : Nat) : List Char := Nat.toDigits 10 n

/-- `n` in decimal, filled with leading zeros up to `width` digits. -/
def paddedDigits (width n : Nat) : List Char :=
  let ds := digits n
  List.replicate (width - ds.length) '0' ++ ds

/-! ## §6. Fixed-point text. -/

/-- `n / 10^places` written out with exactly `places` decimals. -/
def pointed (places n : Nat) : List Char :=
  if places = 0 then digits n
  else digits (n / tenTo places) ++ '.' :: paddedDigits places (n % tenTo places)

/-- The magnitude of a finite number in units of `10^-places`, rounded half to even. -/
def Dyadic.scaled (d : Dyadic) (places : Nat) : Nat :=
  let (num, den) := d.ratio
  roundQuotient (num * tenTo places) den

/-- A double with exactly `places` decimals; the sign of a negative number stays even when all
digits are zero. -/
def fixed (places : Nat) (x : Float) : List Char :=
  match parts x with
  | .finite d =>
    let body := pointed places (d.scaled places)
    if d.negative then '-' :: body else body
  | .infinite true => "-inf".toList
  | .infinite false => "inf".toList
  | .notANumber => "nan".toList

end ControlSurface.Number
