import RuleCanon.Literal.Outside

/-!
# Compiled patterns

Patterns are written by users, in a notation that a compiler accepts or refuses.  Nothing that is
done with a pattern depends on the notation: a search and the names of the groups are all that a
compiler has to give.

## Main Definitions

* `CompiledPattern` — what a compiler makes of a pattern
* `PatternCompiler` — compilers for patterns in a written form
-/

namespace RuleCanon

/-- A search together with what the groups of a match are called. -/
structure CompiledPattern where
  /-- The search. -/
  matcher : Matcher
  /-- The number of the group with that name. -/
  groupNamed? : String → Option Nat

/-- What is made of the written form of a pattern; no answer if it is refused. -/
abbrev PatternCompiler := List Char → Option CompiledPattern

end RuleCanon
