import RuleCanon.Pattern.Word
import RuleCanon.Text.Identifier

/-!
# Member access

The possessive particle `的` between an owner and what it owns becomes a dot.  With blanks on
both sides it does so wherever names stand on both sides.  Without them it could be part of a
word, so there must be at least two ideographs on either side.

## Main Definitions

* `possessivePattern` — where the particle stands
* `possessiveReplacement` — what takes its place
* `canonicalizePossessive` — the canonical form of a text
-/

namespace RuleCanon

/-- The possessive particle. -/
def possessiveParticle : Char := '的'

/-- The particle with blanks on both sides, or else the particle alone. -/
def possessivePattern : Pattern :=
  let particle := Pattern.one (.oneOf [possessiveParticle])
  .alt (.seqs [.someBlanks, particle, .someBlanks]) particle

/-- Whether a character can be part of a word beside the particle. -/
def isPossessiveNeighbour (c : Char) : Bool := isIdeograph c && c != possessiveParticle

/-- The number of ideographs other than the particle right before a position. -/
def ideographsBefore (text : List Char) (position : Nat) : Nat :=
  ((text.take position).reverse.takeWhile isPossessiveNeighbour).length

/-- The number of ideographs other than the particle right after a position. -/
def ideographsAfter (text : List Char) (position : Nat) : Nat :=
  ((text.drop position).takeWhile isPossessiveNeighbour).length

/-- Whether the particle in a match stands for member access. -/
def isMemberAccess (text : List Char) (s : Span) : Bool :=
  if s.start + 1 < s.stop then
    (charBefore? text s.start).any isIdentifierChar && (charAfter? text s.stop).any isIdentifierChar
  else 2 ≤ ideographsBefore text s.start && 2 ≤ ideographsAfter text s.stop

/-- A dot for member access, and otherwise the text of the match. -/
def possessiveReplacement (text : List Char) (c : Captures) : List Char :=
  if isMemberAccess text c.span then ['.'] else slice text c.span.start c.span.stop

/-- Replaces the possessive particle by a dot where it stands for member access. -/
def canonicalizePossessive (s : Segmenter) (text : List Char) : List Char :=
  s.replaceOutside possessivePattern.matcher possessiveReplacement text

end RuleCanon
