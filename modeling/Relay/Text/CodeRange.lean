/-!
# Sets of characters given by ranges of code points

The classes of characters that text rules refer to are long lists of code points. Each is kept as
a list of inclusive ranges, and a character belongs to the class when one of the ranges holds its
code point.
-/

namespace Relay.Text

/-- An inclusive range of code points, first and last. -/
abbrev CodeRange := Nat × Nat

/-- A character lies in a list of ranges when one of them holds its code point. -/
def inRanges (ranges : List CodeRange) (c : Char) : Bool :=
  ranges.any fun range => range.1 ≤ c.toNat && c.toNat ≤ range.2

theorem inRanges_iff {ranges : List CodeRange} {c : Char} :
    inRanges ranges c = true ↔ ∃ range ∈ ranges, range.1 ≤ c.toNat ∧ c.toNat ≤ range.2 := by
  simp [inRanges]

end Relay.Text
