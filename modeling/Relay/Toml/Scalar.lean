import Relay.Json.Basic
import Relay.Decimal.Reading
import Relay.Text.Scan

/-!
# Scalars of TOML

Strings in their four forms, integers in four bases, floats and dates. A loop over characters takes
the text that remains as its bound.
-/

namespace Relay.Toml

open Text (Reader afterWord? hexDigit?)

/-- Spaces inside a line. -/
def isLineSpace (c : Char) : Bool :=
  c = ' ' || c = '\t'

/-- The text without the spaces at its front. -/
def skipLineSpace (s : List Char) : List Char :=
  s.dropWhile isLineSpace

/-- Characters that comments and literal strings may hold: no control characters but the tab. -/
def isPlain (c : Char) : Bool :=
  c = '\t' || (0x20 ≤ c.toNat && c.toNat != 0x7F)

/-- The text after a line end at its front. -/
def afterNewline? : List Char → Option (List Char)
  | '\n' :: rest => some rest
  | '\r' :: '\n' :: rest => some rest
  | _ => none

/-- The character with the code that hexadecimal digits write. -/
def charOfHex? (digits : List Char) : Option Char := do
  let code ← digits.foldlM (fun n c => (hexDigit? c).map (n * 16 + ·)) 0
  if Nat.isValidChar code then return Char.ofNat code else none

/-- An escape by code, of so many digits. -/
def readCode (count : Nat) : Reader Char := fun s =>
  let digits := s.take count
  if digits.length = count then (charOfHex? digits).map (·, s.drop count) else none

/-- What follows a backslash. -/
def readEscape : Reader Char
  | 'b' :: s => some ('\x08', s)
  | 't' :: s => some ('\t', s)
  | 'n' :: s => some ('\n', s)
  | 'f' :: s => some ('\x0c', s)
  | 'r' :: s => some ('\r', s)
  | '"' :: s => some ('"', s)
  | '\\' :: s => some ('\\', s)
  | 'u' :: s => readCode 4 s
  | 'U' :: s => readCode 8 s
  | _ => none

/-- The rest of a string in double quotes. -/
def readBasic (bound taken : List Char) : Reader String := fun s =>
  match bound, s with
  | _ :: bound, c :: s =>
    if c = '"' then some (String.ofList taken.reverse, s)
    else if c = '\\' then do
      let (escaped, s) ← readEscape s
      readBasic bound (escaped :: taken) s
    else if isPlain c then readBasic bound (c :: taken) s
    else none
  | _, _ => none

/-- The rest of a string in single quotes. -/
def readLiteral (taken : List Char) : Reader String
  | [] => none
  | c :: s =>
    if c = '\'' then some (String.ofList taken.reverse, s)
    else if isPlain c then readLiteral (c :: taken) s
    else none

/-- The rest of the text after a line end that is escaped: the spaces and line ends before the next
character are dropped with it. -/
def afterContinuation? (s : List Char) : Option (List Char) :=
  (afterNewline? (skipLineSpace s)).map fun s => s.dropWhile Text.isSpace

/-- The closing quotes of a text of several lines. Up to two quotes before them belong to the text;
the answer is how many do. -/
def closing? (quote : Char) (s : List Char) : Option (Nat × List Char) :=
  match (s.take 5).takeWhile (· = quote) with
  | [_, _, _] => some (0, s.drop 3)
  | [_, _, _, _] => some (1, s.drop 4)
  | [_, _, _, _, _] => some (2, s.drop 5)
  | _ => none

/-- The rest of a text of several lines. Escapes count only between double quotes. -/
def readLines (quote : Char) (bound taken : List Char) : Reader String := fun s =>
  match bound with
  | [] => none
  | _ :: bound =>
    match closing? quote s with
    | some (extra, s) => some (String.ofList (List.replicate extra quote ++ taken).reverse, s)
    | none =>
      match afterNewline? s with
      | some s => readLines quote bound ('\n' :: taken) s
      | none =>
        match s with
        | [] => none
        | c :: s =>
          if c = '\\' ∧ quote = '"' then
            match afterContinuation? s with
            | some s => readLines quote bound taken s
            | none => do
              let (escaped, s) ← readEscape s
              readLines quote bound (escaped :: taken) s
          else if isPlain c then readLines quote bound (c :: taken) s
          else none

/-- A text of several lines after its opening quotes; a line end right after them is dropped. -/
def readText (quote : Char) : Reader String := fun s =>
  readLines quote s [] ((afterNewline? s).getD s)

/-- A string in any of the four forms. -/
def readString : Reader String
  | '"' :: '"' :: '"' :: s => readText '"' s
  | '\'' :: '\'' :: '\'' :: s => readText '\'' s
  | '"' :: s => readBasic s [] s
  | '\'' :: s => readLiteral [] s
  | _ => none

/-- Digits with single underscores between them; the digits so far are held last first. -/
def readRun (isDigit : Char → Bool) (taken : List Char) : List Char → List Char × List Char
  | '_' :: c :: s =>
    if isDigit c then readRun isDigit (c :: taken) s else (taken.reverse, '_' :: c :: s)
  | c :: s => if isDigit c then readRun isDigit (c :: taken) s else (taken.reverse, c :: s)
  | [] => (taken.reverse, [])

/-- One digit or more. -/
def readDigits (isDigit : Char → Bool) : Reader (List Char)
  | c :: s => if isDigit c then some (readRun isDigit [c] s) else none
  | [] => none

/-- A sign, if there is one; true stands for minus. -/
def readSign : List Char → Bool × List Char
  | '-' :: s => (true, s)
  | '+' :: s => (false, s)
  | s => (false, s)

/-- The digits of a decimal integer without its sign: no needless leading zero. -/
def readWhole : Reader (List Char) := fun s => do
  let (digits, s) ← readDigits Char.isDigit s
  if digits.head? = some '0' ∧ digits ≠ ['0'] then none
  return (digits, s)

/-- An integer of 64 bits as JSON. -/
def integerJson? (n : Int) : Option Json :=
  if n < 0x8000_0000_0000_0000 then (ExactInt.ofInt? n).map .int else none

/-- An integer in a base other than ten, after its prefix. -/
def readBased (base : Nat) : Reader Json := fun s => do
  let isDigit (c : Char) : Bool := (hexDigit? c).any (· < base)
  let (digits, s) ← readDigits isDigit s
  let n := digits.foldl (fun n c => n * base + (hexDigit? c).getD 0) 0
  return (← integerJson? n, s)

/-- An integer. -/
def readInteger : Reader Json
  | '0' :: 'x' :: s => readBased 16 s
  | '0' :: 'o' :: s => readBased 8 s
  | '0' :: 'b' :: s => readBased 2 s
  | s => do
    let (negative, s) := readSign s
    let (digits, s) ← readWhole s
    let n : Int := Decimal.natOfDigits digits
    return (← integerJson? (if negative then -n else n), s)

/-- An exponent after its letter. -/
def readExponent : Reader Int
  | [] => none
  | c :: s =>
    if c = 'e' ∨ c = 'E' then do
      let (negative, s) := readSign s
      let (digits, s) ← readDigits Char.isDigit s
      let n : Int := Decimal.natOfDigits digits
      return (if negative then -n else n, s)
    else none

/-- The fraction and the exponent of a float; one of them is there. -/
def readTail : Reader (List Char × Int)
  | '.' :: s => do
    let (fraction, s) ← readDigits Char.isDigit s
    match readExponent s with
    | some (exponent, s) => return ((fraction, exponent), s)
    | none => return ((fraction, 0), s)
  | s => (readExponent s).map fun (exponent, s) => (([], exponent), s)

/-- The magnitude of a float: a decimal or a word. -/
def readMagnitude : Reader Float
  | 'i' :: 'n' :: 'f' :: s => some (1.0 / 0.0, s)
  | 'n' :: 'a' :: 'n' :: s => some (0.0 / 0.0, s)
  | s => do
    let (whole, s) ← readWhole s
    let ((fraction, exponent), s) ← readTail s
    let x := Decimal.nearest (Decimal.natOfDigits (whole ++ fraction)) (exponent - fraction.length)
    return (x, s)

/-- A float. A decimal without a minus that is too large is refused. -/
def readFloat : Reader Json := fun s => do
  let (negative, digits) := readSign s
  let (x, rest) ← readMagnitude digits
  if x.isInf ∧ ¬negative ∧ digits.head? ≠ some 'i' then none
  return (.float (if negative then -x else x), rest)

/-- A number of exactly so many digits within bounds. -/
def readField (count least greatest : Nat) : Reader Nat := fun s =>
  let digits := s.take count
  let n := Decimal.natOfDigits digits
  if digits.length = count ∧ digits.all Char.isDigit ∧ least ≤ n ∧ n ≤ greatest then
    some (n, s.drop count)
  else none

/-- The number of days of a month. -/
def daysIn (year month : Nat) : Nat :=
  if month = 2 then (if year % 4 = 0 ∧ (year % 100 ≠ 0 ∨ year % 400 = 0) then 29 else 28)
  else if month ∈ [4, 6, 9, 11] then 30
  else 31

/-- The rest of the text after a date. -/
def afterDate? (s : List Char) : Option (List Char) := do
  let (year, s) ← readField 4 0 9999 s
  let s ← afterWord? ['-'] s
  let (month, s) ← readField 2 1 12 s
  let s ← afterWord? ['-'] s
  let (_, s) ← readField 2 1 (daysIn year month) s
  return s

/-- The rest of the text after a time of day. -/
def afterTime? (s : List Char) : Option (List Char) := do
  let (_, s) ← readField 2 0 23 s
  let s ← afterWord? [':'] s
  let (_, s) ← readField 2 0 59 s
  let s ← afterWord? [':'] s
  let (_, s) ← readField 2 0 60 s
  match s with
  | '.' :: c :: rest =>
    if c.isDigit then return rest.dropWhile Char.isDigit else return s
  | s => return s

/-- The rest of the text after an offset from universal time. -/
def afterOffset? : List Char → Option (List Char)
  | [] => none
  | c :: s =>
    if c = 'Z' ∨ c = 'z' then some s
    else if c = '+' ∨ c = '-' then do
      let (_, s) ← readField 2 0 23 s
      let s ← afterWord? [':'] s
      let (_, s) ← readField 2 0 59 s
      return s
    else none

/-- The rest of the text after the time that may follow a date. -/
def afterDateTime (s : List Char) : List Char :=
  match s with
  | c :: rest =>
    if c = 'T' ∨ c = 't' ∨ c = ' ' then
      match afterTime? rest with
      | some rest => (afterOffset? rest).getD rest
      | none => s
    else s
  | [] => s

/-- The field under which a date stands in the JSON of a document. -/
def dateField : String := "$__toml_private_datetime"

/-- A date, a time or both. -/
def readDate : Reader Json := fun s => do
  let rest ←
    match afterDate? s with
    | some rest => some (afterDateTime rest)
    | none => afterTime? s
  let text := String.ofList (s.take (s.length - rest.length))
  return (.object [(dateField, .string text)], rest)

/-- A date or a number. -/
def readNumeric : Reader Json := fun s =>
  ((readDate s).or (readFloat s)).or (readInteger s)

/-- A truth value. -/
def readBool : Reader Json
  | 't' :: 'r' :: 'u' :: 'e' :: s => some (.bool true, s)
  | 'f' :: 'a' :: 'l' :: 's' :: 'e' :: s => some (.bool false, s)
  | _ => none

end Relay.Toml
