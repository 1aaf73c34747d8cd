import Relay.Text.Scan
import Relay.Text.Search
import Relay.Text.Utf8

/-!
# Addresses

A URL leads to an origin, which is scheme, host and port, and to a place there, which is a path and
a query. Queries hold pairs of names and values with some characters written by their codes.
-/

namespace Relay.Http

open Text (hexDigit?)

/-- Whether a character ends the host and port of a URL. -/
def endsAuthority (c : Char) : Bool :=
  c = '/' || c = '?' || c = '#'

/-- The origin of a URL and the rest of it. A URL without a scheme has no origin. -/
def splitOrigin (url : String) : String × List Char :=
  match Text.afterWord? "http://".toList url.toList with
  | some rest =>
    ("http://" ++ String.ofList (rest.takeWhile (!endsAuthority ·)),
      rest.dropWhile (!endsAuthority ·))
  | none => ("", url.toList)

/-- A place on a node. -/
structure Place where
  path : String
  query : String
deriving DecidableEq, Repr

/-- The place that a URL leads to. What follows a number sign is never sent. -/
def Place.ofUrl (url : String) : Place :=
  let (_, rest) := splitOrigin url
  let sent := rest.takeWhile (· ≠ '#')
  let path := sent.takeWhile (· ≠ '?')
  ⟨if path = [] then "/" else String.ofList path, String.ofList ((sent.dropWhile (· ≠ '?')).drop 1)⟩

/-- The bytes of a character. -/
def bytesOfChar (c : Char) : List UInt8 :=
  (String.singleton c).toUTF8.toList

/-- The byte that two hexadecimal digits at the front of a text write. -/
def hexByte? : List Char → Option UInt8
  | a :: b :: _ => do
    let a ← hexDigit? a
    let b ← hexDigit? b
    return UInt8.ofNat (a * 16 + b)
  | _ => none

/-- The bytes that a name or value of a query stands for. A plus sign is a space; a percent sign and
two hexadecimal digits are a byte. `skip` characters still belong to the last byte. -/
def formBytes (skip : Nat) : List Char → List UInt8
  | [] => []
  | c :: rest =>
    match skip with
    | skip + 1 => formBytes skip rest
    | 0 =>
      if c = '+' then 0x20 :: formBytes 0 rest
      else if c = '%' then
        match hexByte? rest with
        | some byte => byte :: formBytes 2 rest
        | none => 0x25 :: formBytes 0 rest
      else bytesOfChar c ++ formBytes 0 rest

/-- The text that a name or value of a query stands for. -/
def formText (s : List Char) : String :=
  Text.decodeLossy (formBytes 0 s)

/-- One pair of a query. Without an equals sign the value is empty. -/
def formPair (piece : String) : String × String :=
  let s := piece.toList
  (formText (s.takeWhile (· ≠ '=')), formText ((s.dropWhile (· ≠ '=')).drop 1))

/-- The pairs of a query. -/
def formPairs (query : String) : List (String × String) :=
  ((Text.split "&" query).filter (!·.isEmpty)).map formPair

/-- Characters that stand for themselves in a query. -/
def isFormSafe (c : Char) : Bool :=
  c.isAlphanum || c = '*' || c = '-' || c = '.' || c = '_'

/-- A byte by its code. -/
def percent (b : UInt8) : List Char :=
  let digit (n : Nat) : Char := (Nat.digitChar n).toUpper
  ['%', digit (b.toNat / 16), digit (b.toNat % 16)]

/-- A text as it is written in a query. -/
def formEscape (s : String) : String :=
  String.ofList (s.toList.flatMap fun c =>
    if c = ' ' then ['+'] else if isFormSafe c then [c] else (bytesOfChar c).flatMap percent)

end Relay.Http
