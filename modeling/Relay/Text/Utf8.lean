/-!
# Decoding bytes that may not be text

Bytes that are meant to be UTF-8 are read as far as they are; each piece that starts like a
character but is cut short or goes wrong, and each byte that starts none, is replaced by one
replacement character.
-/

namespace Relay.Text

/-- The replacement character. -/
def replacement : Char := '\uFFFD'

/-- A character of which some bytes are still missing. -/
structure PartialChar where
  /-- The number of bytes that are missing. -/
  missing : Nat
  code : Nat
  /-- The bounds of the next byte. -/
  least : UInt8 := 0x80
  greatest : UInt8 := 0xBF
deriving DecidableEq, Repr

/-- What a first byte starts: a character of its own, or one with bytes missing. -/
def firstByte (b : UInt8) : Char ⊕ PartialChar :=
  let code := b.toNat
  if b < 0x80 then .inl (Char.ofNat code)
  else if b < 0xC2 then .inl replacement
  else if b < 0xE0 then .inr { missing := 1, code := code - 0xC0 }
  else if b = 0xE0 then .inr { missing := 2, code := 0, least := 0xA0 }
  else if b = 0xED then .inr { missing := 2, code := 0xD, greatest := 0x9F }
  else if b < 0xF0 then .inr { missing := 2, code := code - 0xE0 }
  else if b = 0xF0 then .inr { missing := 3, code := 0, least := 0x90 }
  else if b < 0xF4 then .inr { missing := 3, code := code - 0xF0 }
  else if b = 0xF4 then .inr { missing := 3, code := 4, greatest := 0x8F }
  else .inl replacement

/-- What a further byte makes of a partial character, if it fits. -/
def PartialChar.add? (p : PartialChar) (b : UInt8) : Option (Char ⊕ PartialChar) :=
  if p.least ≤ b ∧ b ≤ p.greatest then
    let code := p.code * 0x40 + (b.toNat - 0x80)
    if p.missing ≤ 1 then some (.inl (Char.ofNat code))
    else some (.inr { missing := p.missing - 1, code })
  else none

/-- The characters of bytes, after the part of a character that was read before. -/
def decodeFrom (pending : Option PartialChar) : List UInt8 → List Char
  | [] => if pending.isSome then [replacement] else []
  | b :: rest =>
    match pending.bind (·.add? b) with
    | some (.inl c) => c :: decodeFrom none rest
    | some (.inr p) => decodeFrom (some p) rest
    | none =>
      let before := if pending.isSome then [replacement] else []
      match firstByte b with
      | .inl c => before ++ c :: decodeFrom none rest
      | .inr p => before ++ decodeFrom (some p) rest

/-- The text of bytes. -/
def decodeLossy (bytes : List UInt8) : String :=
  String.ofList (decodeFrom none bytes)

end Relay.Text
