import Relay.Decimal.Reading

/-!
# Numbers written by people

Free-standing numbers in text: an integer with an optional sign, or a decimal with an optional sign,
fraction and exponent, for which there are also words for infinity and not-a-number in any case of
letters. Digits may be missing on one side of the point.
-/

namespace Relay.Decimal

/-- The magnitude of an integer that consists of digits alone. -/
def magnitude? (s : List Char) : Option Nat :=
  if s ≠ [] ∧ s.all Char.isDigit then some (natOfDigits s) else none

/-- An integer with an optional sign. -/
def integer? : List Char → Option Int
  | '-' :: digits => (magnitude? digits).map fun n => -n
  | '+' :: digits => (magnitude? digits).map fun n => n
  | digits => (magnitude? digits).map fun n => n

/-- An exponent after its letter, if the rest of the text is one. -/
def exponent? : List Char → Option Int
  | [] => some 0
  | c :: rest => if c = 'e' ∨ c = 'E' then integer? rest else none

/-- A decimal without a sign. -/
def unsignedFloat? (s : List Char) : Option Float :=
  let whole := s.takeWhile Char.isDigit
  let (fraction, rest) : List Char × List Char :=
    match s.dropWhile Char.isDigit with
    | '.' :: after => (after.takeWhile Char.isDigit, after.dropWhile Char.isDigit)
    | after => ([], after)
  if whole = [] ∧ fraction = [] then none
  else
    (exponent? rest).map fun exponent =>
      nearest (natOfDigits (whole ++ fraction)) (exponent - fraction.length)

/-- A word for a double without a sign. -/
def wordFloat? (s : List Char) : Option Float :=
  let word := String.ofList (s.map Char.toLower)
  if word = "inf" ∨ word = "infinity" then some (1.0 / 0.0)
  else if word = "nan" then some (0.0 / 0.0)
  else none

/-- A decimal or a word for one, with an optional sign. -/
def float? (s : List Char) : Option Float :=
  let (negative, rest) : Bool × List Char :=
    match s with
    | '-' :: rest => (true, rest)
    | '+' :: rest => (false, rest)
    | rest => (false, rest)
  ((unsignedFloat? rest).or (wordFloat? rest)).map fun x => if negative then -x else x

end Relay.Decimal
