import RuleCanon.Pattern.Word
import RuleCanon.Vocabulary.TokenKind

/-!
# Assignments and results

Two idioms that open a line.  `将 … 设为 …` binds a name, `结果为 …` gives back a result.  What is
bound or given back is left as it is.

## Main Definitions

* `assignmentPattern`, `canonicalizeAssignments` — assignments
* `resultPattern`, `canonicalizeResults` — results
-/

namespace RuleCanon

/-- The start of an assignment, with the indentation and the name in groups of their own. -/
def assignmentPattern : Pattern :=
  .seqs [
    .indentation 1, .one (.oneOf ['将']), .someBlanks, .group 2 .name, .someBlanks,
    .exactly ['设', '为'], .someBlanks]

/-- The start of a canonical binding. -/
def assignmentReplacement (text : List Char) (c : Captures) : List Char :=
  c.textOf text 1 ++ TokenKind.letName.canonical.toList ++ ' ' :: c.textOf text 2 ++
    ' ' :: TokenKind.beValue.canonical.toList ++ [' ']

/-- Gives assignments their canonical form. -/
def canonicalizeAssignments (s : Segmenter) (text : List Char) : List Char :=
  s.replaceOutside assignmentPattern.matcher assignmentReplacement text

/-- The start of a result, with the indentation in a group of its own. -/
def resultPattern : Pattern :=
  .seqs [.indentation 1, .exactly ['结', '果', '为'], .someBlanks]

/-- The start of a canonical result. -/
def resultReplacement (text : List Char) (c : Captures) : List Char :=
  c.textOf text 1 ++ TokenKind.returnValue.canonical.toList ++ [' ']

/-- Gives results their canonical form. -/
def canonicalizeResults (s : Segmenter) (text : List Char) : List Char :=
  s.replaceOutside resultPattern.matcher resultReplacement text

end RuleCanon
