import RuleCanon.Stage.Basic

/-!
# Full-width punctuation

Chinese punctuation marks are replaced by the canonical ones, in code only.

## Main Definitions

* `canonicalMark` — the canonical mark for a character
* `canonicalizePunctuation` — the canonical form of a text
-/

namespace RuleCanon

/-- The canonical mark that a character stands for, or the character itself. -/
def canonicalMark (c : Char) : Char :=
  if c = '。' then '.'
  else if c = '，' then ','
  else if c = '：' then ':'
  else if c = '、' then ','
  else c

/-- Replaces full-width punctuation. -/
def canonicalizePunctuation (s : Segmenter) (text : List Char) : List Char :=
  s.mapCode (·.map canonicalMark) text

end RuleCanon
