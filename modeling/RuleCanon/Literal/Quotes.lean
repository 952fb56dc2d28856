import RuleCanon.Literal.Segment

/-!
# Uniform quotation marks

Every literal of a text can be given the same marks.  A closing mark that stands in the body is
then protected by a backslash, so that the literal still ends where it did; an unclosed literal
stays unclosed, and code is left alone.

## Main Definitions

* `escapeBody` — protects closing marks in a body
* `Segment.requote` — one segment with new marks
* `Segmenter.canonicalizeQuotes` — a whole text with new marks
-/

namespace RuleCanon

/-- Puts a backslash before each place of a body where the closing mark starts, unless a
backslash protects that place already. -/
def escapeBody (closing : List Char) : List Char → List Char
  | [] => []
  | c :: rest =>
    if c = '\\' then
      match rest with
      | [] => [c]
      | e :: rest => c :: e :: escapeBody closing rest
    else if closing.isPrefixOf (c :: rest) then '\\' :: c :: escapeBody closing rest
    else c :: escapeBody closing rest

/-- The segment with the given marks; a literal that has them already is kept as it is. -/
def Segment.requote (marks : Delimiters) : Segment → Segment
  | code t => code t
  | literal d body terminated =>
    if d = marks then literal d body terminated
    else literal marks (escapeBody marks.closing body) terminated

/-- Gives every literal of a text the same marks. -/
def Segmenter.canonicalizeQuotes (s : Segmenter) (marks : Delimiters) (text : List Char) :
    List Char :=
  Segment.textOf ((s.segments text).map (·.requote marks))

end RuleCanon
