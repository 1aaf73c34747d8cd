import Relay.Decimal.Shortest

/-!
# Writing a floating-point number

A layout says how the shortest digits of a double are set out. Two layouts are in use: `plain`
never writes an exponent, and `compact`, the layout of JSON text, writes one for very large and
very small numbers and keeps the point of an integral number.
-/

namespace Relay.Decimal

/-- How digits are set out. -/
structure Layout where
  /-- The positions of the decimal point that are written without an exponent; all if absent. -/
  plainPoints : Option (Int × Int)
  /-- An integral number keeps its point and one zero. -/
  keepsPoint : Bool
  /-- Which of two equally short and equally near decimals is written. -/
  tie : Tie

/-- Digits without an exponent. The point of an integral number only shows if it is kept. -/
def Digits.positional (d : Digits) (keepsPoint : Bool) : List Char :=
  let count := d.digits.length
  let tail := if keepsPoint then ['.', '0'] else []
  if count = 0 then '0' :: tail
  else if d.point ≤ 0 then ['0', '.'] ++ List.replicate (-d.point).toNat '0' ++ d.digits
  else if count ≤ d.point then d.digits ++ List.replicate (d.point - count).toNat '0' ++ tail
  else d.digits.take d.point.toNat ++ '.' :: d.digits.drop d.point.toNat

/-- Digits with one digit before the point and a signed exponent; a negative sign shows alone, a
positive one is written out. -/
def Digits.scientific (d : Digits) : List Char :=
  let exponent := d.point - 1
  let sign := if exponent < 0 then '-' else '+'
  let fraction :=
    match d.digits.drop 1 with
    | [] => []
    | more => '.' :: more
  d.digits.take 1 ++ fraction ++ 'e' :: sign :: Nat.toDigits 10 exponent.natAbs

/-- Digits as the layout sets them out. -/
def Layout.write (layout : Layout) (d : Digits) : List Char :=
  match layout.plainPoints with
  | none => d.positional layout.keepsPoint
  | some (least, greatest) =>
    if d.digits.isEmpty ∨ least ≤ d.point ∧ d.point ≤ greatest then
      d.positional layout.keepsPoint
    else d.scientific

/-- A finite double in a layout, with its sign. Zero keeps its sign too. -/
def Layout.signed (layout : Layout) (x : Float) : String :=
  let magnitude := String.ofList (layout.write (shortest layout.tie x))
  if x.toBits.toNat < 0x8000_0000_0000_0000 then magnitude else "-" ++ magnitude

/-- Never an exponent, no point on integral numbers; a tie goes up. -/
def plainLayout : Layout := ⟨none, false, .up⟩

/-- No exponent from `1e-5` up to, but not including, `1e16`; integral numbers keep their point; a
tie goes to the even digit. -/
def compactLayout : Layout := ⟨some (-4, 16), true, .toEven⟩

/-- A double in plain notation, with names for the values that are not numbers. -/
def plain (x : Float) : String :=
  if x.isNaN then "NaN"
  else if x.isInf then (if x < 0 then "-inf" else "inf")
  else plainLayout.signed x

/-- A finite double in compact notation. -/
def compact (x : Float) : String :=
  compactLayout.signed x

end Relay.Decimal
