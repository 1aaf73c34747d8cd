import Relay.Json.Parser

/-!
# The parts of JSON text

The outermost fields of an object, or items of an array, as they are written. Unlike the value of a
text, its outline keeps fields whose key occurs again.
-/

namespace Relay.Json

open Text (Reader skipSpace)

/-- The text of one value at the front of a text. -/
def readSlice : Reader (List Char) := fun s => do
  let (_, rest) ← readValue nestingLimit s
  return (s.take (s.length - rest.length), rest)

/-- The fields of an object up to its closing brace; at least one field follows. -/
def readFieldTexts (bound : List Char) (taken : List (String × List Char)) :
    Reader (List (String × List Char)) :=
  fun s =>
    match bound with
    | [] => none
    | _ :: bound =>
      match skipSpace s with
      | '"' :: s => do
        let (key, s) ← readString [] s
        match skipSpace s with
        | ':' :: s =>
          let (slice, s) ← readSlice s
          match skipSpace s with
          | ',' :: s => readFieldTexts bound ((key, slice) :: taken) s
          | '\x7d' :: s => some (((key, slice) :: taken).reverse, s)
          | _ => none
        | _ => none
      | _ => none

/-- The items of an array up to its closing bracket; at least one item follows. -/
def readItemTexts (bound : List Char) (taken : List (List Char)) : Reader (List (List Char)) :=
  fun s =>
    match bound with
    | [] => none
    | _ :: bound => do
      let (slice, s) ← readSlice s
      match skipSpace s with
      | ',' :: s => readItemTexts bound (slice :: taken) s
      | ']' :: s => some ((slice :: taken).reverse, s)
      | _ => none

/-- The fields of the object that a text writes, in the order in which they are written. -/
def fieldTexts? (s : List Char) : Option (List (String × List Char)) :=
  match skipSpace s with
  | '\x7b' :: s =>
    match skipSpace s with
    | '\x7d' :: _ => some []
    | s => (readFieldTexts s [] s).map (·.1)
  | _ => none

/-- The items of the array that a text writes. -/
def itemTexts? (s : List Char) : Option (List (List Char)) :=
  match skipSpace s with
  | '[' :: s =>
    match skipSpace s with
    | ']' :: _ => some []
    | s => (readItemTexts s [] s).map (·.1)
  | _ => none

end Relay.Json
