/-!
# Reading a decimal

Two ways to read digits and a power of ten as a double. `nearest` rounds the exact value once.
`scaled` is the reading of JSON text: it keeps as many leading digits as fit 64 bits and then
scales by powers of ten in floating-point arithmetic, so a number too large for a double is
refused instead of becoming infinite.
-/

namespace Relay.Decimal

/-- The value of a decimal digit. -/
def digitValue (c : Char) : Nat :=
  c.toNat - '0'.toNat

/-- The number that a list of decimal digits writes. -/
def natOfDigits (digits : List Char) : Nat :=
  digits.foldl (fun n c => 10 * n + digitValue c) 0

/-- The double nearest to `count * 10 ^ exponent`. Exponents far outside the range of doubles are
settled at once. -/
def nearest (count : Nat) (exponent : Int) : Float :=
  let lead := (Nat.toDigits 10 count).length + exponent
  if count = 0 then 0
  else if 400 < lead then 1.0 / 0.0
  else if lead < -400 then 0
  else Float.ofScientific count (exponent < 0) exponent.natAbs

/-- A significand with a power of ten. -/
structure Scaled where
  significand : Nat
  exponent : Int
deriving DecidableEq, Repr

/-- The greatest significand, one less than `2 ^ 64`. -/
def significandLimit : Nat := UInt64.size - 1

/-- Take up digits before the point while they fit; each digit that does not fit, and every digit
after it, only raises the power of ten. -/
def Scaled.integral (s : Scaled) : List Char → Scaled
  | [] => s
  | c :: rest =>
    let next := 10 * s.significand + digitValue c
    if next ≤ significandLimit then Scaled.integral { s with significand := next } rest
    else { s with exponent := s.exponent + (rest.length + 1) }

/-- Take up digits after the point while they fit; the rest are dropped. -/
def Scaled.fractional (s : Scaled) : List Char → Scaled
  | [] => s
  | c :: rest =>
    let next := 10 * s.significand + digitValue c
    if next ≤ significandLimit then Scaled.fractional ⟨next, s.exponent - 1⟩ rest else s

/-- The double `10 ^ exponent`. -/
def tenTo (exponent : Nat) : Float :=
  Float.ofScientific 1 false exponent

/-- Scale by a power of ten: at most `10 ^ 308` in one step, and repeated division for smaller
numbers until they vanish; `none` if the result is too large for a double. The first argument
bounds the number of steps. -/
def scaleBy : Nat → Float → Int → Option Float
  | 0, x, _ => some x
  | steps + 1, x, exponent =>
    if exponent.natAbs ≤ 308 then
      let y := if 0 ≤ exponent then x * tenTo exponent.natAbs else x / tenTo exponent.natAbs
      if y.isInf then none else some y
    else if x == 0 then some x
    else if 0 ≤ exponent then none
    else scaleBy steps (x / tenTo 308) (exponent + 308)

/-- The double that a significand and a power of ten are read as. After four divisions every
significand has vanished. -/
def Scaled.toFloat? (s : Scaled) : Option Float :=
  scaleBy 4 (UInt64.ofNat s.significand).toFloat s.exponent

end Relay.Decimal
