import Relay.Text.Scan

/-!
# Searching and splitting text

Occurrences of a word in a text, and the pieces of a text between the occurrences of a separator.
-/

namespace Relay.Text

/-- Whether a word occurs in a text. -/
def containsWord (word : List Char) : List Char → Bool
  | [] => word.isEmpty
  | c :: rest => (afterWord? word (c :: rest)).isSome || containsWord word rest

/-- Split at a separator that is not empty, from left to right. `skip` characters still belong to
the last separator; the current piece is held last character first and the pieces before it last
first. -/
def splitFrom (separator : List Char) (skip : Nat) (piece : List Char) (pieces : List String) :
    List Char → List String
  | [] => (String.ofList piece.reverse :: pieces).reverse
  | c :: rest =>
    match skip with
    | skip + 1 => splitFrom separator skip piece pieces rest
    | 0 =>
      if (afterWord? separator (c :: rest)).isSome then
        splitFrom separator (separator.length - 1) [] (String.ofList piece.reverse :: pieces) rest
      else splitFrom separator 0 (c :: piece) pieces rest

/-- The pieces of a text between the occurrences of a separator. The empty separator occurs before
and after every character. -/
def split (separator s : String) : List String :=
  if separator.isEmpty then "" :: s.toList.map String.singleton ++ [""]
  else splitFrom separator.toList 0 [] [] s.toList

/-- The pieces with a separator between them. -/
def join (separator : String) : List String → String
  | [] => ""
  | first :: rest => rest.foldl (fun text piece => text ++ separator ++ piece) first

end Relay.Text
