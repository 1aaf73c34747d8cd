import Relay.Store.Basic
import Relay.Json.Printer

/-!
# Placeholders in text

A placeholder `${name}` in a text stands for the value that the store holds under the name. Its name
is everything up to the next closing brace and has at least one character. Filling in is one pass
from left to right: text that was put in is never looked at again. A text without a closing brace
after `${`, and `${}` itself, are left as they are.
-/

namespace Relay

/-- A value as text: a string as it is, null as nothing, anything else as JSON. -/
def Json.display : Json → String
  | .null => ""
  | .string s => s
  | j => j.compact

namespace Template

/-- Fill in placeholders. The result so far is held last character first, and so is the name of the
placeholder that is open, if one is. -/
def fillFrom (fill : List Char → List Char) (result : List Char) (name : Option (List Char)) :
    List Char → List Char
  | [] =>
    match name with
    | none => result.reverse
    | some name => (name ++ '\x7b' :: '$' :: result).reverse
  | c :: rest =>
    match name with
    | some name =>
      if c = '\x7d' then
        if name.isEmpty then fillFrom fill ('\x7d' :: '\x7b' :: '$' :: result) none rest
        else fillFrom fill ((fill name.reverse).reverse ++ result) none rest
      else fillFrom fill result (some (c :: name)) rest
    | none =>
      match c, rest with
      | '$', '\x7b' :: rest => fillFrom fill result (some []) rest
      | c, rest => fillFrom fill (c :: result) none rest

/-- Replace every placeholder of a text by what `fill` gives for its name. -/
def fill (fill : List Char → List Char) (text : List Char) : List Char :=
  fillFrom fill [] none text

end Template

namespace Store

/-- The text that a placeholder of the given name stands for. -/
def placeholder (store : Store) (name : List Char) : List Char :=
  match store.get? (String.ofList name) with
  | some value => value.display.toList
  | none => []

/-- A text with its placeholders filled in from the store. -/
def interpolate (store : Store) (text : String) : String :=
  String.ofList (Template.fill store.placeholder text.toList)

mutual

/-- A value with the placeholders of all its strings filled in. Keys of objects and all other
values stay as they are. -/
def resolve (store : Store) : Json → Json
  | .string s => .string (store.interpolate s)
  | .array items => .array (resolveItems store [] items)
  | .object fields => .object (resolveFields store [] fields)
  | .null => .null
  | .bool b => .bool b
  | .int n => .int n
  | .float x => .float x

/-- The items with placeholders filled in, after the ones that are done, which are held last
first. -/
def resolveItems (store : Store) (finished : List Json) : List Json → List Json
  | [] => finished.reverse
  | item :: rest => resolveItems store (resolve store item :: finished) rest

/-- The fields with placeholders filled in, after the ones that are done, which are held last
first. -/
def resolveFields (store : Store) (finished : List (String × Json)) :
    List (String × Json) → List (String × Json)
  | [] => finished.reverse
  | (key, value) :: rest => resolveFields store ((key, resolve store value) :: finished) rest

end

end Store

end Relay
