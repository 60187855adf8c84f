/-!
# Ranges of code points

A character class that comes from a Unicode property is kept as the list of its
ranges in ascending order. The tables of this folder are data; the one
operation on them is membership, and it lives here so that every class is
decided the same way.
-/

namespace Rulebook.Text

/-- The inclusive ranges of code points that make up a character class. -/
abbrev CodeRanges := List (Nat × Nat)

/-- Whether the code point of `c` lies in one of the ranges. -/
def CodeRanges.contains (ranges : CodeRanges) (c : Char) : Bool :=
  ranges.any fun (first, last) => first ≤ c.toNat && c.toNat ≤ last

/-- How many code points the ranges cover, taken as disjoint. -/
def CodeRanges.count (ranges : CodeRanges) : Nat :=
  ranges.foldl (fun total (first, last) => total + (last + 1 - first)) 0

/-- Each range is non-empty and lies wholly below the next one. -/
def CodeRanges.ascending : CodeRanges → Bool
  | [] => true
  | [(first, last)] => first ≤ last
  | (first, last) :: (next, stop) :: rest =>
    first ≤ last && last < next && CodeRanges.ascending ((next, stop) :: rest)

end Rulebook.Text
