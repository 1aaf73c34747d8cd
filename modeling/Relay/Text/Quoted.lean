import Relay.Text.Printable

/-!
# Text in quotes

Messages show a piece of source text between double quotes. The quote, the backslash and the
common control characters are escaped with a backslash; any other character that does not stand
alone is written by its code point in hexadecimal.
-/

namespace Relay.Text

/-- How one character is written between the quotes. -/
def quotedChar (c : Char) : List Char :=
  match c with
  | '"' => ['\\', '"']
  | '\\' => ['\\', '\\']
  | '\n' => ['\\', 'n']
  | '\r' => ['\\', 'r']
  | '\t' => ['\\', 't']
  | '\x00' => ['\\', '0']
  | c =>
    if standsAlone c then [c]
    else ['\\', 'u', '{'] ++ Nat.toDigits 16 c.toNat ++ ['}']

/-- A text between double quotes. -/
def quoted (s : List Char) : String :=
  String.ofList ('"' :: (s.flatMap quotedChar ++ ['"']))

end Relay.Text
