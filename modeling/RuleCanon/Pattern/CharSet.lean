import RuleCanon.Unicode.Property
import RuleCanon.Unicode.CaseFolding

/-!
# Sets of characters in patterns

What stands for one character of a text in a pattern: a character, a range, a property, and
what can be made of them.

## Main Definitions

* `CharSet` — an expression for a set of characters, with `CharSet.mem` as the membership test
-/

namespace RuleCanon

/-- An expression for a set of characters. -/
inductive CharSet where
  /-- The listed characters. -/
  | oneOf (chars : List Char)
  /-- The characters between two others, both included. -/
  | range (first last : Char)
  /-- The characters with a property. -/
  | property (p : Unicode.Property)
  /-- The characters in at least one of two sets. -/
  | union (a b : CharSet)
  /-- The characters in both sets. -/
  | inter (a b : CharSet)
  /-- The characters outside a set. -/
  | compl (a : CharSet)
  /-- All case forms of the members of a set. -/
  | anyCase (a : CharSet)
deriving DecidableEq, Repr

namespace CharSet

/-- Whether the character belongs to the set. -/
def mem : CharSet → Char → Bool
  | oneOf chars, c => chars.contains c
  | range first last, c => first ≤ c && c ≤ last
  | property p, c => p.mem c
  | union a b, c => a.mem c || b.mem c
  | inter a b, c => a.mem c && b.mem c
  | compl a, c => !a.mem c
  | anyCase a, c => (Unicode.caseForms c).any a.mem

/-- The set without members. -/
def empty : CharSet := oneOf []

/-- Every character. -/
def full : CharSet := compl empty

/-- The characters in the first set and not in the second. -/
def diff (a b : CharSet) : CharSet := inter a (compl b)

/-- The characters in exactly one of two sets. -/
def symmDiff (a b : CharSet) : CharSet := union (diff a b) (diff b a)

/-- The union of several sets. -/
def unions (sets : List CharSet) : CharSet := sets.foldr union empty

end CharSet

end RuleCanon
