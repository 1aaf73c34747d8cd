/-!
# Base64 with canonical padding

Bytes in groups of three are written as four characters of the standard alphabet. A last group of
one or two bytes is padded with `=`, and the bits that such a group leaves unused are zero. Reading
accepts exactly the texts that writing produces.
-/

namespace Relay.Base64

/-- The character of a six-bit number. -/
def symbol (n : Nat) : Char :=
  if n < 26 then Char.ofNat ('A'.toNat + n)
  else if n < 52 then Char.ofNat ('a'.toNat + (n - 26))
  else if n < 62 then Char.ofNat ('0'.toNat + (n - 52))
  else if n = 62 then '+'
  else '/'

/-- The six-bit number of a character. -/
def value? (c : Char) : Option Nat :=
  if 'A' ≤ c ∧ c ≤ 'Z' then some (c.toNat - 'A'.toNat)
  else if 'a' ≤ c ∧ c ≤ 'z' then some (c.toNat - 'a'.toNat + 26)
  else if '0' ≤ c ∧ c ≤ '9' then some (c.toNat - '0'.toNat + 52)
  else if c = '+' then some 62
  else if c = '/' then some 63
  else none

/-- Append the characters of bytes to a text. -/
def encodeOnto (text : String) : List UInt8 → String
  | [] => text
  | [a] =>
    let bits := a.toNat * 16
    ((((text.push (symbol (bits / 64))).push (symbol (bits % 64))).push '=').push '=')
  | [a, b] =>
    let bits := (a.toNat * 256 + b.toNat) * 4
    ((((text.push (symbol (bits / 4096))).push (symbol (bits / 64 % 64))).push
      (symbol (bits % 64))).push '=')
  | a :: b :: c :: rest =>
    let bits := (a.toNat * 256 + b.toNat) * 256 + c.toNat
    encodeOnto ((((text.push (symbol (bits / 262144))).push (symbol (bits / 4096 % 64))).push
      (symbol (bits / 64 % 64))).push (symbol (bits % 64))) rest

/-- Bytes as text. -/
def encode (bytes : List UInt8) : String :=
  encodeOnto "" bytes

/-- The byte of a padded last group with one byte. -/
def lastByte? (a b : Char) : Option (List UInt8) := do
  let bits := (← value? a) * 64 + (← value? b)
  if bits % 16 = 0 then some [UInt8.ofNat (bits / 16)] else none

/-- The bytes of a padded last group with two bytes. -/
def lastBytes? (a b c : Char) : Option (List UInt8) := do
  let bits := ((← value? a) * 64 + (← value? b)) * 64 + (← value? c)
  if bits % 4 = 0 then some [UInt8.ofNat (bits / 1024), UInt8.ofNat (bits / 4)] else none

/-- The bytes of a full group. -/
def group? (a b c d : Char) : Option (List UInt8) := do
  let bits := (((← value? a) * 64 + (← value? b)) * 64 + (← value? c)) * 64 + (← value? d)
  some [UInt8.ofNat (bits / 65536), UInt8.ofNat (bits / 256), UInt8.ofNat bits]

/-- Read characters after the bytes that were read before, which are held last first. -/
def decodeOnto (taken : List UInt8) : List Char → Option (List UInt8)
  | [] => some taken.reverse
  | a :: b :: c :: d :: rest =>
    if d = '=' ∧ rest = [] then
      (if c = '=' then lastByte? a b else lastBytes? a b c).map fun last => taken.reverse ++ last
    else
      match group? a b c d with
      | some bytes => decodeOnto (bytes.reverse ++ taken) rest
      | none => none
  | _ => none

/-- The bytes that a text writes. -/
def decode? (text : String) : Option (List UInt8) :=
  decodeOnto [] text.toList

end Relay.Base64
