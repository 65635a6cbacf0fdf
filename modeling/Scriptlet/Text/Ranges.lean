/-!
# Ranges: sets of code points

A character property is stored as the ascending list of the inclusive code point ranges that have
it. ASCII is left out of the tables and decided by plain comparisons, so that statements about
ASCII text never look into a table.
-/

namespace Scriptlet

/-- Inclusive ranges of code points. -/
abbrev CodeRanges := List (Nat × Nat)

/-- Whether a code point lies in one of the ranges. -/
def CodeRanges.has (ranges : CodeRanges) (n : Nat) : Bool :=
  ranges.any fun r => r.1 ≤ n && n ≤ r.2

end Scriptlet
