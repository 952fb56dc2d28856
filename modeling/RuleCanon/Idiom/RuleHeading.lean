import RuleCanon.Pattern.Word
import RuleCanon.Text.Identifier
import RuleCanon.Text.Trim
import RuleCanon.Vocabulary.TokenKind

/-!
# Rule headings

A line that opens with the word for a rule, a name and parameters in parentheses becomes a
canonical heading, in which a keyword introduces the parameters.

## Main Definitions

* `headingPattern` — the heading of a rule
* `headingReplacement` — the canonical heading
* `canonicalizeHeadings` — the canonical form of a text
-/

namespace RuleCanon

/-- A heading at the start of a line, with the indentation, the name and the parameters in
groups of their own. -/
def headingPattern : Pattern :=
  .seqs [
    .indentation 1,
    .alt (.exactly ['规', '则']) (.exactly ['R', 'u', 'l', 'e']),
    .someBlanks,
    .group 2 .name,
    .blanks,
    .one (.oneOf ['(', '（']),
    .group 3 (.many true (.compl (.oneOf [')', '）', '\r', '\n']))),
    .one (.oneOf [')', '）']),
    .blanks]

/-- Whether a heading is set off from what follows it: not at the end of a line, and not before
a punctuation mark. -/
def needsSeparator : Option Char → Bool
  | none => false
  | some c => !(['\r', '\n', ':', '：', ',', '，', '.', '。', ';', '；'].contains c)

/-- The canonical heading. -/
def headingReplacement (text : List Char) (c : Captures) : List Char :=
  let parameters := trim (c.textOf text 3)
  c.textOf text 1 ++ TokenKind.ruleDef.canonical.toList ++ ' ' :: c.textOf text 2 ++
    (if parameters = [] then []
      else ' ' :: TokenKind.given.canonical.toList ++ ' ' :: parameters) ++
    (if needsSeparator (charAfter? text c.span.stop) then [' '] else [])

/-- Gives the headings of rules their canonical form. -/
def canonicalizeHeadings (s : Segmenter) (text : List Char) : List Char :=
  s.replaceOutside headingPattern.matcher headingReplacement text

end RuleCanon
