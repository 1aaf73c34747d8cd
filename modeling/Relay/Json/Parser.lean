import Relay.Json.Basic
import Relay.Decimal.Reading
import Relay.Text.Scan

/-!
# Reading JSON text

A recursive-descent reader. Arrays and objects may nest up to a given number of levels, and the
recursion is on the levels that are left. The loops over items and over digits take the characters
that remain as their bound: each turn uses at least one of them.
-/

namespace Relay.Json

open Text (Reader skipSpace hexDigit?)

/-- The number that four hexadecimal digits write. -/
def hexUnit? (a b c d : Char) : Option Nat := do
  let a ← hexDigit? a
  let b ← hexDigit? b
  let c ← hexDigit? c
  let d ← hexDigit? d
  return ((a * 16 + b) * 16 + c) * 16 + d

/-- The character that a one-letter escape stands for. -/
def shortEscape? (c : Char) : Option Char :=
  match c with
  | '"' => some '"'
  | '\\' => some '\\'
  | '/' => some '/'
  | 'b' => some '\x08'
  | 'f' => some '\x0c'
  | 'n' => some '\n'
  | 'r' => some '\r'
  | 't' => some '\t'
  | _ => none

/-- The code point of a pair of surrogates. -/
def surrogatePair? (high low : Nat) : Option Char :=
  if 0xDC00 ≤ low ∧ low < 0xE000 then
    some (Char.ofNat (0x10000 + (high - 0xD800) * 0x400 + (low - 0xDC00)))
  else none

/-- The rest of a string after its opening quote; the characters read so far are held last first.
An escape by code unit must be a whole character: surrogates come in pairs. -/
def readString (taken : List Char) : Reader String
  | [] => none
  | c :: rest =>
    if c = '"' then some (String.ofList taken.reverse, rest)
    else if c = '\\' then
      match rest with
      | [] => none
      | e :: rest =>
        if e = 'u' then
          match rest with
          | a :: b :: c :: d :: rest =>
            match hexUnit? a b c d with
            | none => none
            | some unit =>
              if unit < 0xD800 ∨ 0xE000 ≤ unit then readString (Char.ofNat unit :: taken) rest
              else if 0xDC00 ≤ unit then none
              else
                match rest with
                | '\\' :: 'u' :: a :: b :: c :: d :: rest =>
                  match (hexUnit? a b c d).bind (surrogatePair? unit) with
                  | none => none
                  | some paired => readString (paired :: taken) rest
                | _ => none
          | _ => none
        else
          match shortEscape? e with
          | none => none
          | some escaped => readString (escaped :: taken) rest
    else if c.toNat < 0x20 then none
    else readString (c :: taken) rest

/-- The written form of a number, without its sign: digits before the point, digits after it if
there is a point, and an exponent if there is one. -/
structure NumberText where
  whole : List Char
  fraction : Option (List Char)
  exponent : Option Int
deriving DecidableEq

/-- One digit or more. -/
def readDigits : Reader (List Char) := fun s =>
  match s.takeWhile Char.isDigit with
  | [] => none
  | digits => some (digits, s.dropWhile Char.isDigit)

/-- The digits after a point, if there is a point. -/
def readFraction : Reader (Option (List Char))
  | '.' :: rest => (readDigits rest).map fun (digits, rest) => (some digits, rest)
  | s => some (none, s)

/-- An exponent after its letter: an optional sign and digits. -/
def readSignedExponent : Reader Int
  | '-' :: rest => (readDigits rest).map fun (digits, rest) => (-(Decimal.natOfDigits digits), rest)
  | '+' :: rest => (readDigits rest).map fun (digits, rest) => (Decimal.natOfDigits digits, rest)
  | s => (readDigits s).map fun (digits, rest) => (Decimal.natOfDigits digits, rest)

/-- An exponent, if there is one. -/
def readExponent : Reader (Option Int)
  | [] => some (none, [])
  | c :: rest =>
    if c = 'e' ∨ c = 'E' then
      (readSignedExponent rest).map fun (exponent, rest) => (some exponent, rest)
    else some (none, c :: rest)

/-- The digits of a number without its sign. The whole part has no needless leading zero. -/
def readNumberText : Reader NumberText := fun s => do
  let (whole, s) ← readDigits s
  if whole.head? = some '0' ∧ whole ≠ ['0'] then none
  let (fraction, s) ← readFraction s
  let (exponent, s) ← readExponent s
  return (⟨whole, fraction, exponent⟩, s)

/-- The double that a number's digits and exponent are read as. -/
def NumberText.toFloat? (n : NumberText) : Option Float :=
  let whole := Decimal.Scaled.integral ⟨0, 0⟩ n.whole
  let all := whole.fractional (n.fraction.getD [])
  Decimal.Scaled.toFloat? { all with exponent := all.exponent + n.exponent.getD 0 }

/-- The value of a number. Whole digits alone are an exact integer when they fit one; minus zero and
everything else is a double, and a number too large for a double is refused. -/
def NumberText.value? (n : NumberText) (negative : Bool) : Option Json :=
  let double := n.toFloat?.map fun x => float (if negative then -x else x)
  if n.fraction.isNone ∧ n.exponent.isNone then
    let count : Int := Decimal.natOfDigits n.whole
    if negative then
      if count = 0 then double
      else ((ExactInt.ofInt? (-count)).map int).or double
    else ((ExactInt.ofInt? count).map int).or double
  else double

/-- A number. -/
def readNumber : Reader Json
  | '-' :: rest => do
    let (text, rest) ← readNumberText rest
    return (← text.value? true, rest)
  | s => do
    let (text, rest) ← readNumberText s
    return (← text.value? false, rest)

/-- Items up to the closing bracket. At least one item follows; the items read so far are held last
first. The first argument bounds the number of items. -/
def readItems (item : Reader Json) (bound : List Char) (taken : List Json) : Reader (List Json) :=
  fun s =>
    match bound with
    | [] => none
    | _ :: bound => do
      let (value, s) ← item s
      match skipSpace s with
      | ',' :: s => readItems item bound (value :: taken) s
      | ']' :: s => some ((value :: taken).reverse, s)
      | _ => none

/-- Fields up to the closing brace. At least one field follows; a later field replaces an earlier
one of the same key. The first argument bounds the number of fields. -/
def readFields (item : Reader Json) (bound : List Char) (taken : List (String × Json)) :
    Reader (List (String × Json)) :=
  fun s =>
    match bound with
    | [] => none
    | _ :: bound =>
      match skipSpace s with
      | '"' :: s => do
        let (key, s) ← readString [] s
        match skipSpace s with
        | ':' :: s =>
          let (value, s) ← item s
          let taken := Fields.insert key value taken
          match skipSpace s with
          | ',' :: s => readFields item bound taken s
          | '\x7d' :: s => some (taken, s)
          | _ => none
        | _ => none
      | _ => none

/-- One value. Arrays and objects read what they hold with `nested` and are refused without it. -/
def readValueWith (nested : Option (Reader Json)) : Reader Json := fun s =>
  match skipSpace s with
  | 'n' :: 'u' :: 'l' :: 'l' :: s => some (null, s)
  | 't' :: 'r' :: 'u' :: 'e' :: s => some (bool true, s)
  | 'f' :: 'a' :: 'l' :: 's' :: 'e' :: s => some (bool false, s)
  | '"' :: s => (readString [] s).map fun (text, s) => (string text, s)
  | '[' :: s => do
    let item ← nested
    match skipSpace s with
    | ']' :: s => some (array [], s)
    | s => (readItems item s [] s).map fun (items, s) => (array items, s)
  | '\x7b' :: s => do
    let item ← nested
    match skipSpace s with
    | '\x7d' :: s => some (object [], s)
    | s => (readFields item s [] s).map fun (fields, s) => (object fields, s)
  | s => readNumber s

/-- One value whose arrays and objects nest at most the given number of levels. -/
def readValue : Nat → Reader Json
  | 0 => readValueWith none
  | levels + 1 => readValueWith (some (readValue levels))

/-- The value that a whole text writes, nesting at most the given number of levels. -/
def parseNested? (levels : Nat) (text : String) : Option Json := do
  let (value, rest) ← readValue levels text.toList
  match skipSpace rest with
  | [] => some value
  | _ => none

/-- How deep a text may nest arrays and objects. -/
def nestingLimit : Nat := 127

/-- The value that a whole text writes. -/
def parse? (text : String) : Option Json :=
  parseNested? nestingLimit text

end Relay.Json
