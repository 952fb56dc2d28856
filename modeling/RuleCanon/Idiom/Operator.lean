import RuleCanon.Pattern.Word
import RuleCanon.Stage.Basic
import RuleCanon.Text.Identifier

/-!
# Comparisons, branches and bindings

Three idioms are replaced one after the other: comparison words become operators, `则` at the
end of a line becomes the mark that opens a block, and `设置 … 为 …` becomes a binding in the
wording of the lexicon.

## Main Definitions

* `comparisons`, `canonicalizeComparisons` — comparison words
* `thenPattern`, `canonicalizeThen` — the end of a condition
* `bindingPattern`, `canonicalizeBindings` — bindings
* `canonicalizeOperators` — the three of them
-/

namespace RuleCanon

/-! ## Comparison words -/

/-- The comparison words and their operators; a word comes before those that it ends in. -/
def comparisons : List (List Char × List Char) :=
  [(['大', '于', '等', '于'], ['>', '=']),
    (['小', '于', '等', '于'], ['<', '=']),
    (['不', '等', '于'], ['!', '=']),
    (['等', '于'], ['=', '=']),
    (['大', '于'], ['>']),
    (['小', '于'], ['<'])]

/-- One of the comparison words. -/
def comparisonPattern : Pattern := .alts (comparisons.map fun (word, _) => .exactly word)

/-- Whether there is a character that is not blank. -/
def isFilled (c : Option Char) : Bool := c.any fun c => !Unicode.isWhiteSpace c

/-- The operator for the comparison word, with a space on each side that is not blank. -/
def comparisonReplacement (text : List Char) (c : Captures) : List Char :=
  let word := slice text c.span.start c.span.stop
  (if isFilled (charBefore? text c.span.start) then [' '] else []) ++
    (comparisons.lookup word).getD word ++
    (if isFilled (charAfter? text c.span.stop) then [' '] else [])

/-- Replaces comparison words by operators. -/
def canonicalizeComparisons (s : Segmenter) (text : List Char) : List Char :=
  s.replaceOutside comparisonPattern.matcher comparisonReplacement text

/-! ## The end of a condition -/

/-- The word after blanks and before the end of a line. -/
def thenPattern : Pattern :=
  .seqs [.someBlanks, .one (.oneOf ['则']), .blanks, .anchor .anyLineEnd]

/-- Replaces the word at the end of a condition by the mark that opens a block. -/
def canonicalizeThen (s : Segmenter) (text : List Char) : List Char :=
  s.replaceOutside thenPattern.matcher (fun _ _ => [':']) text

/-! ## Bindings -/

/-- The start of a binding: what stands before the first word, which must not be part of a name;
the first word; and then the name and the second word, with blanks around them. -/
def bindingPattern : Pattern :=
  .seqs [
    .group 1 (.alt (.anchor .lineStart) (.one (.compl .nameRest))),
    .exactly ['设', '置'],
    .group 2 (.seqs [.someBlanks, .someOf (.compl (.oneOf [' ', '\t', '\r', '\n', '为'])),
      .someBlanks, .one (.oneOf ['为']), .someBlanks])]

/-- The start of a binding with another first word, if a value follows on the same line. -/
def bindingReplacement (word text : List Char) (c : Captures) : List Char :=
  if (charAfter? text c.span.stop).any (fun c => c != '\r' && c != '\n') then
    c.textOf text 1 ++ word ++ c.textOf text 2
  else slice text c.span.start c.span.stop

/-- Replaces the first word of bindings. -/
def canonicalizeBindings (word : List Char) (s : Segmenter) (text : List Char) : List Char :=
  s.replaceOutside bindingPattern.matcher (bindingReplacement word) text

/-- Replaces comparisons, branches and bindings; bindings get the given first word. -/
def canonicalizeOperators (word : List Char) (s : Segmenter) (text : List Char) : List Char :=
  canonicalizeBindings word s (canonicalizeThen s (canonicalizeComparisons s text))

end RuleCanon
