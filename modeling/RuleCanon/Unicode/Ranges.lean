/-!
# Sets of code points

A property of characters is given by a table of code points.  Most tables are short lists of
intervals; the tables of the cased letters also hold long stretches in which every second code
point belongs to the set, and those are kept apart so that the tables stay small.

## Main Definitions

* `memIntervals` — membership in an ascending list of intervals
* `CodeRanges` — a table, with `CodeRanges.mem` as its membership test
-/

namespace RuleCanon.Unicode

/-- Whether `c` lies in one of the intervals, which are given in ascending order. -/
def memIntervals (c : Nat) : List (Nat × Nat) → Bool
  | [] => false
  | (first, last) :: rest =>
    if c < first then false else if c ≤ last then true else memIntervals c rest

/-- Whether `c` lies in one of the intervals, at an even distance from its first member. -/
def memAlternate (c : Nat) : List (Nat × Nat) → Bool
  | [] => false
  | (first, last) :: rest =>
    if c < first then false
    else if c ≤ last then (c - first) % 2 == 0
    else memAlternate c rest

/-- A set of code points. -/
structure CodeRanges where
  /-- Intervals that belong to the set as a whole, in ascending order. -/
  solid : List (Nat × Nat)
  /-- Intervals of which every second member belongs to the set, the first one included, in
  ascending order. -/
  alternate : List (Nat × Nat) := []

/-- Whether the code point `c` belongs to the set. -/
def CodeRanges.mem (s : CodeRanges) (c : Nat) : Bool :=
  memIntervals c s.solid || memAlternate c s.alternate

end RuleCanon.Unicode
