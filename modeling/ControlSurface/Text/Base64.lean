/-
  ControlSurface.Text.Base64
  ──────────────────────────
  Bytes as text in base 64.  `encode` writes groups of four characters, filled with `=`; `decode?`
  takes what `encode` writes, and also spare bits that are not zero and signs of filling after a
  complete group, but no other character and nothing after the filling.
-/

namespace ControlSurface.Text.Base64

/-! ## §1. The alphabet. -/

/-- The characters of the sixty-four values. -/
def alphabet : Array Char :=
  "ABCDEFGHIJKLMNOPQRSTUVWXYZabcdefghijklmnopqrstuvwxyz0123456789+/".toList.toArray

/-- The character of a value. -/
def digit (n : Nat) : Char := alphabet.getD n 'A'

/-- The value of a character. -/
def value? (c : Char) : Option Nat :=
  if 'A' ≤ c ∧ c ≤ 'Z' then some (c.toNat - 65)
  else if 'a' ≤ c ∧ c ≤ 'z' then some (c.toNat - 71)
  else if '0' ≤ c ∧ c ≤ '9' then some (c.toNat + 4)
  else if c = '+' then some 62
  else if c = '/' then some 63
  else none

/-! ## §2. Encoding. -/

/-- Encodes bytes, three at a time, after the characters already written, those in reverse. -/
def encodeFrom (written : List Char) : List UInt8 → List Char
  | a :: b :: c :: rest =>
    let n := (a.toNat * 256 + b.toNat) * 256 + c.toNat
    encodeFrom (digit (n % 64) :: digit (n / 64 % 64) :: digit (n / 4096 % 64)
      :: digit (n / 262144) :: written) rest
  | [a, b] =>
    let n := (a.toNat * 256 + b.toNat) * 4
    ('=' :: digit (n % 64) :: digit (n / 64 % 64) :: digit (n / 4096) :: written).reverse
  | [a] =>
    let n := a.toNat * 16
    ('=' :: '=' :: digit (n % 64) :: digit (n / 64) :: written).reverse
  | [] => written.reverse

/-- Bytes in base 64. -/
def encode (bytes : List UInt8) : List Char := encodeFrom [] bytes

/-! ## §3. Decoding. -/

/-- Decodes characters.  `filled` is the number of characters of the current group, `bits` the bits
of the group not written yet, `pads` the number of `=` since the last character, `padded` whether
there was any, and `written` the bytes in reverse. -/
def decodeFrom (filled bits pads : Nat) (padded : Bool) (written : List UInt8) :
    List Char → Option (List UInt8)
  | [] => if filled = 0 then some written.reverse else none
  | c :: rest =>
    if c = '=' then
      if 2 ≤ filled then
        if 4 ≤ filled + (pads + 1) then (if rest.isEmpty then some written.reverse else none)
        else decodeFrom filled bits (pads + 1) true written rest
      else decodeFrom filled bits pads true written rest
    else
      match value? c with
      | none => none
      | some v =>
        if padded then none
        else if filled = 0 then decodeFrom 1 v 0 false written rest
        else if filled = 1 then
          decodeFrom 2 (v % 16) 0 false (UInt8.ofNat (bits * 4 + v / 16) :: written) rest
        else if filled = 2 then
          decodeFrom 3 (v % 4) 0 false (UInt8.ofNat (bits * 16 + v / 4) :: written) rest
        else decodeFrom 0 0 0 false (UInt8.ofNat (bits * 64 + v) :: written) rest

/-- The bytes of a text in base 64. -/
def decode? (cs : List Char) : Option (List UInt8) :=
  match cs with
  | '=' :: _ => none
  | _ => decodeFrom 0 0 0 false [] cs

end ControlSurface.Text.Base64
