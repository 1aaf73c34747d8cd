import Relay.Json.Basic
import Relay.Decimal.Layout

/-!
# JSON text

The compact text of a value is without spaces: the fields of an object in ascending order of their
keys, strings with the shortest escapes, doubles in the compact layout. A double that is not a
number has no JSON text and is written as null. The pretty text has a line for each item and field
instead, for people to read.
-/

namespace Relay.Json

/-- How a character is written inside a string: a quote, a backslash and a control character are
escaped, everything else stands for itself. -/
def escape (c : Char) : List Char :=
  match c with
  | '"' => ['\\', '"']
  | '\\' => ['\\', '\\']
  | '\x08' => ['\\', 'b']
  | '\x0c' => ['\\', 'f']
  | '\n' => ['\\', 'n']
  | '\r' => ['\\', 'r']
  | '\t' => ['\\', 't']
  | c =>
    if c.toNat < 0x20 then
      ['\\', 'u', '0', '0', Nat.digitChar (c.toNat / 16), Nat.digitChar (c.toNat % 16)]
    else [c]

/-- Append characters to a text. -/
def pushAll (text : String) (chars : List Char) : String :=
  chars.foldl String.push text

/-- Append a string in quotes. -/
def writeString (text : String) (s : String) : String :=
  (s.toList.foldl (fun text c => pushAll text (escape c)) (text.push '"')).push '"'

/-- A double as JSON text. -/
def floatText (x : Float) : String :=
  if x.isNaN || x.isInf then "null" else Decimal.compact x

mutual

/-- Append the text of a value. -/
def write (text : String) : Json → String
  | null => text ++ "null"
  | bool b => text ++ (if b then "true" else "false")
  | int n => text ++ toString n.val
  | float x => text ++ floatText x
  | string s => writeString text s
  | array items => (writeItems (text.push '[') "" items).push ']'
  | object fields => (writeFields (text.push '\x7b') "" fields).push '\x7d'

/-- Append the texts of the items, with a separator before the first one. -/
def writeItems (text separator : String) : List Json → String
  | [] => text
  | item :: rest => writeItems (write (text ++ separator) item) "," rest

/-- Append keys and values, with a separator before the first one. -/
def writeFields (text separator : String) : List (String × Json) → String
  | [] => text
  | (key, value) :: rest =>
    writeFields (write ((writeString (text ++ separator) key).push ':') value) "," rest

end

/-- The compact text of a value. -/
def compact (j : Json) : String :=
  write "" j

/-- Append a line end and two spaces for each level. -/
def newLine (text : String) (level : Nat) : String :=
  (List.replicate (2 * level) ' ').foldl String.push (text.push '\n')

mutual

/-- Append the text of a value with a line for each item and field, inside so many levels. -/
def layOut (level : Nat) (text : String) : Json → String
  | array (item :: rest) =>
    (newLine (layOutItems level (text.push '[') "" (item :: rest)) level).push ']'
  | object (field :: rest) =>
    (newLine (layOutFields level (text.push '\x7b') "" (field :: rest)) level).push '\x7d'
  | array [] => write text (array [])
  | object [] => write text (object [])
  | null => write text null
  | bool b => write text (bool b)
  | int n => write text (int n)
  | float x => write text (float x)
  | string s => write text (string s)

/-- Append a line for each item, with a separator before the first one. -/
def layOutItems (level : Nat) (text separator : String) : List Json → String
  | [] => text
  | item :: rest =>
    layOutItems level (layOut (level + 1) (newLine (text ++ separator) (level + 1)) item) "," rest

/-- Append a line for each field, with a separator before the first one. -/
def layOutFields (level : Nat) (text separator : String) : List (String × Json) → String
  | [] => text
  | (key, value) :: rest =>
    let keyed := writeString (newLine (text ++ separator) (level + 1)) key ++ ": "
    layOutFields level (layOut (level + 1) keyed value) "," rest

end

/-- The text of a value with a line for each item and field. -/
def pretty (j : Json) : String :=
  layOut 0 "" j

end Relay.Json
