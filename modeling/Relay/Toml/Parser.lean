import Relay.Toml.Table
import Relay.Toml.Scalar

/-!
# Reading TOML documents

A document is read line by line: headers open tables, and the other lines add values to the table
that was opened last. Arrays and inline tables may nest up to a limit, and the recursion is on the
levels that are left; the loops take the text that remains as their bound.
-/

namespace Relay.Toml

open Text (Reader)

/-- Characters of a key without quotes. -/
def isBareKeyChar (c : Char) : Bool :=
  c.isAlphanum || c = '_' || c = '-'

/-- One part of a key. -/
def readKeyPart : Reader String
  | '"' :: s => readBasic s [] s
  | '\'' :: s => readLiteral [] s
  | s =>
    match s.takeWhile isBareKeyChar with
    | [] => none
    | name => some (String.ofList name, s.dropWhile isBareKeyChar)

/-- A key with dots; the parts so far are held last first. -/
def readKeyFrom (bound : List Char) (taken : List String) : Reader (List String) := fun s =>
  match bound with
  | [] => none
  | _ :: bound => do
    let (part, s) ← readKeyPart (skipLineSpace s)
    match skipLineSpace s with
    | '.' :: s => readKeyFrom bound (part :: taken) s
    | s => return ((part :: taken).reverse, s)

/-- A key with dots, as the path before its last part and that part. -/
def readKey : Reader (List String × String) := fun s => do
  let (parts, s) ← readKeyFrom s [] s
  let last ← parts.getLast?
  return ((parts.dropLast, last), s)

/-- The text after a comment, if there is one. -/
def skipComment : List Char → List Char
  | '#' :: s => s.dropWhile isPlain
  | s => s

/-- The text after the end of a line: spaces, a comment, and the line end or the end of the text. -/
def afterLine? (s : List Char) : Option (List Char) :=
  match skipComment (skipLineSpace s) with
  | [] => some []
  | s => afterNewline? s

/-- The text without spaces, comments and line ends at its front. -/
def skipFiller (bound s : List Char) : List Char :=
  match bound with
  | [] => s
  | _ :: bound =>
    let s := skipLineSpace s
    match s with
    | '#' :: rest => skipFiller bound (rest.dropWhile isPlain)
    | s =>
      match afterNewline? s with
      | some rest => skipFiller bound rest
      | none => s

/-- Items of an array up to the closing bracket. -/
def readItems (item : Reader Json) (bound : List Char) (taken : List Json) : Reader (List Json) :=
  fun s =>
    match bound with
    | [] => none
    | _ :: bound =>
      match skipFiller s s with
      | ']' :: s => some (taken.reverse, s)
      | s => do
        let (value, s) ← item s
        match skipFiller s s with
        | ',' :: s => readItems item bound (value :: taken) s
        | ']' :: s => some ((value :: taken).reverse, s)
        | _ => none

/-- A key, an equals sign and a value, added to a table. -/
def readEntry (item : Reader Json) (t : Table) : Reader Table := fun s => do
  let ((path, key), s) ← readKey s
  match skipLineSpace s with
  | '=' :: s =>
    let (value, s) ← item (skipLineSpace s)
    return (← t.addValue path key value, s)
  | _ => none

/-- Entries of an inline table up to the closing brace; at least one entry follows. -/
def readEntries (item : Reader Json) (bound : List Char) (t : Table) : Reader Table := fun s =>
  match bound with
  | [] => none
  | _ :: bound => do
    let (t, s) ← readEntry item t s
    match skipLineSpace s with
    | ',' :: s => readEntries item bound t s
    | '\x7d' :: s => some (t, s)
    | _ => none

/-- A value. Arrays and inline tables read what they hold with `nested` and are refused without it.
-/
def readValueWith (nested : Option (Reader Json)) : Reader Json := fun s =>
  match s with
  | '[' :: s => do
    let item ← nested
    (readItems item s [] s).map fun (items, s) => (.array items, s)
  | '\x7b' :: s => do
    let item ← nested
    match skipLineSpace s with
    | '\x7d' :: s => some (.object [], s)
    | s => (readEntries item s {} s).map fun (t, s) => (t.toJson, s)
  | s =>
    ((readBool s).or ((readString s).map fun (text, s) => (.string text, s))).or (readNumeric s)

/-- A value whose arrays and inline tables nest at most the given number of levels. -/
def readValue : Nat → Reader Json
  | 0 => readValueWith none
  | levels + 1 => readValueWith (some (readValue levels))

/-- How deep arrays and inline tables may nest. -/
def nestingLimit : Nat := 79

/-- The document so far and the path of the table that was opened last. -/
structure Document where
  root : Table := {}
  path : List String := []

/-- Read one line that is not empty. -/
def readLine (d : Document) (s : List Char) : Option (Document × List Char) :=
  match s with
  | '[' :: '[' :: s => do
    let ((path, key), s) ← readKey s
    match s with
    | ']' :: ']' :: s =>
      let root ← d.root.openItem path key
      return (⟨root, path ++ [key]⟩, s)
    | _ => none
  | '[' :: s => do
    let ((path, key), s) ← readKey s
    match s with
    | ']' :: s =>
      let root ← d.root.openTable path key
      return (⟨root, path ++ [key]⟩, s)
    | _ => none
  | s => do
    let ((path, key), s) ← readKey s
    match skipLineSpace s with
    | '=' :: s =>
      let (value, s) ← readValue nestingLimit (skipLineSpace s)
      let root ← d.root.within .implied (Table.addValue path key value) d.path
      return ({ d with root }, s)
    | _ => none

/-- Read the lines of a document. -/
def readDocument (bound : List Char) (d : Document) (s : List Char) : Option Document :=
  match bound with
  | [] => some d
  | _ :: bound =>
    match skipFiller s s with
    | [] => some d
    | s => do
      let (d, s) ← readLine d s
      readDocument bound d (← afterLine? s)

/-- The value that a document writes. -/
def parse? (text : String) : Option Json :=
  let s :=
    match text.toList with
    | '\uFEFF' :: s => s
    | s => s
  (readDocument (' ' :: s) {} s).map (·.root.toJson)

end Relay.Toml
