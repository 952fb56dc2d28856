import RuleCanon.ConfigError
import RuleCanon.Literal.Segment

/-!
# Lexicons

A lexicon says how keywords and punctuation are spelled in a language, and which stages turn
text of that language into canonical text.

## Main Definitions

* `Spellings` — the spellings of one keyword
* `Lexicon` — a lexicon; every kind of keyword has its spellings
* `Lexicon.segmenter` — the literals of a language
-/

namespace RuleCanon

/-- The direction in which a language is written. -/
inductive Direction where
  /-- From left to right. -/
  | leftToRight
  /-- From right to left. -/
  | rightToLeft
deriving DecidableEq, Repr

/-- The short name of a direction. -/
def Direction.name : Direction → String
  | leftToRight => "LTR"
  | rightToLeft => "RTL"

/-- The direction with that short name. -/
def Direction.ofName? (name : String) : Option Direction :=
  if name = "LTR" then some .leftToRight else if name = "RTL" then some .rightToLeft else none

/-- The spellings of a keyword. -/
structure Spellings where
  /-- The spelling that is listed first. -/
  surface : String
  /-- Other spellings. -/
  aliases : List String := []
deriving DecidableEq, Repr

/-- All spellings, the first one in front. -/
def Spellings.all (s : Spellings) : List String := s.surface :: s.aliases

/-- How a language spells what canonical text is made of. -/
structure Lexicon where
  /-- The id of the locale. -/
  id : String
  /-- The name of the language. -/
  name : String
  /-- The direction in which the language is written. -/
  direction : Direction
  /-- The spellings of each kind of keyword. -/
  keyword : TokenKind → Spellings
  /-- The punctuation marks. -/
  punctuation : Punctuation
  /-- The names of the stages that a text goes through, in order. -/
  stages : List String

namespace Lexicon

/-- The kinds of keywords with their spellings, in the order of the kinds. -/
def keywords (l : Lexicon) : List (TokenKind × Spellings) :=
  TokenKind.all.map fun k => (k, l.keyword k)

/-- The marks around string literals of the language. -/
def delimiters (l : Lexicon) : Delimiters where
  opening := l.punctuation.stringQuoteOpen.toList
  closing := l.punctuation.stringQuoteClose.toList

/-- The segmenter that knows the literals of the language and straight double quotes. -/
def segmenter (l : Lexicon) : Segmenter := .ofList [.ascii, l.delimiters]

end Lexicon

end RuleCanon
