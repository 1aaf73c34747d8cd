/-!
# The shortest decimal of a floating-point number

A finite double stands for every real number that rounds to it. Of the decimals in that interval
`shortest` takes one with the fewest digits, and of those the nearest to the double. Everything is
exact arithmetic on natural numbers: a double is `mantissa * 2 ^ exponent`, and the ends of its
interval lie half a unit away, except below a power of two, where the lower gap is half as wide.
The ends belong to the interval when the mantissa is even.
-/

namespace Relay.Decimal

/-- The gap between one and the next greater double, `2 ^ -52`. -/
def epsilon : Float := Float.ofBits 0x3CB0000000000000

/-- The magnitude of a finite double, `mantissa * 2 ^ exponent`. -/
structure Binary where
  mantissa : Nat
  exponent : Int
  /-- The double is a power of two with a narrower gap below it than above. -/
  narrowBelow : Bool
deriving DecidableEq, Repr

/-- The parts of a double, read off its bits; the sign is dropped. -/
def Binary.ofFloat (x : Float) : Binary :=
  let bits := x.toBits.toNat
  let fraction : Nat := bits % Nat.pow 2 52
  let scale : Nat := bits / Nat.pow 2 52 % Nat.pow 2 11
  if scale = 0 then ⟨fraction, -1074, false⟩
  else ⟨Nat.pow 2 52 + fraction, (scale : Int) - 1075, decide (fraction = 0 ∧ scale ≠ 1)⟩

/-- Which of two equally near decimals is taken. -/
inductive Tie where
  | toEven
  | up
deriving DecidableEq, Repr

/-- Decimal digits with a decimal point: the value is `0.d₁d₂…` times `10 ^ point`. The first and
the last digit are not zero, and zero itself has no digits. -/
structure Digits where
  digits : List Char
  point : Int
deriving DecidableEq, Repr

/-- The number `count * 10 ^ exponent` as digits. -/
def Digits.ofScaled (count : Nat) (exponent : Int) : Digits :=
  if count = 0 then ⟨[], 0⟩
  else
    let written := Nat.toDigits 10 count
    ⟨(written.reverse.dropWhile (· = '0')).reverse, written.length + exponent⟩

/-- The interval of reals that round to a double, in quarters of its unit in the last place:
`low / den`, `value / den` and `high / den`, with the ends included when `closed` holds. -/
structure Interval where
  low : Nat
  value : Nat
  high : Nat
  den : Nat
  closed : Bool

/-- The interval of reals that round to the double. -/
def Binary.interval (b : Binary) : Interval :=
  let quarter := Nat.pow 2 (b.exponent - 2).toNat
  let value := 4 * b.mantissa * quarter
  { low := value - (if b.narrowBelow then quarter else 2 * quarter)
    value
    high := value + 2 * quarter
    den := Nat.pow 2 (2 - b.exponent).toNat
    closed := b.mantissa % 2 = 0 }

/-- The exponent of the leading decimal digit of `num / den`, for a positive quotient. -/
def leadingExponent (num den : Nat) : Int :=
  if den ≤ num then (Nat.toDigits 10 (num / den)).length - 1
  else
    let ratio := (den + num - 1) / num
    let places : Int := (Nat.toDigits 10 (ratio - 1)).length
    (-places)

/-- The best point of the grid of multiples of `10 ^ exponent`: one of the two neighbours of the
value, if one lies in the interval, and the nearer of them if both do. -/
def Interval.nearest? (i : Interval) (tie : Tie) (exponent : Int) : Option Nat :=
  let up := Nat.pow 10 (-exponent).toNat
  let step := Nat.pow 10 exponent.toNat * i.den
  let below := i.value * up / step
  let above := below + 1
  let belowFits := if i.closed then i.low * up ≤ below * step else i.low * up < below * step
  let aboveFits := if i.closed then above * step ≤ i.high * up else above * step < i.high * up
  let preferAbove :=
    match compare (2 * i.value * up) ((2 * below + 1) * step) with
    | .lt => false
    | .gt => true
    | .eq =>
      match tie with
      | .toEven => below % 2 = 1
      | .up => true
  match decide belowFits, decide aboveFits with
  | true, true => some (if preferAbove then above else below)
  | true, false => some below
  | false, true => some above
  | false, false => none

/-- The shortest digits of a finite double, without its sign. Seventeen digits always suffice. -/
def shortest (tie : Tie) (x : Float) : Digits :=
  let b := Binary.ofFloat x
  if b.mantissa = 0 then ⟨[], 0⟩
  else
    let i := b.interval
    let lead := leadingExponent i.value i.den
    let found := (List.range 17).findSome? fun (extra : Nat) =>
      let exponent := lead - extra
      (i.nearest? tie exponent).map (Digits.ofScaled · exponent)
    found.getD (Digits.ofScaled (i.value / i.den) 0)

end Relay.Decimal
