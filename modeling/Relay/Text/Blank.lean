import Relay.Text.CodeRange

/-!
# Blank characters and trimming

Blank characters are the white space of every script: the ASCII blanks, the no-break space, the
typographic spaces and the line and paragraph separators.
-/

namespace Relay.Text

/-- The blank characters, by ranges of code points. -/
def blankRanges : List CodeRange := [
  (0x9, 0xD), (0x20, 0x20), (0x85, 0x85), (0xA0, 0xA0), (0x1680, 0x1680), (0x2000, 0x200A),
  (0x2028, 0x2029), (0x202F, 0x202F), (0x205F, 0x205F), (0x3000, 0x3000)]

/-- White space of every script. -/
def isBlank (c : Char) : Bool :=
  inRanges blankRanges c

/-- A list of characters without the blanks at its end. -/
def trimEndChars (s : List Char) : List Char :=
  (s.reverse.dropWhile isBlank).reverse

/-- A list of characters without the blanks at both ends. -/
def trimChars (s : List Char) : List Char :=
  trimEndChars (s.dropWhile isBlank)

/-- A text without the blanks at both ends. -/
def trim (s : String) : String :=
  String.ofList (trimChars s.toList)

end Relay.Text
