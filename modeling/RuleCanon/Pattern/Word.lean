import RuleCanon.Pattern.Basic

/-!
# Patterns for words and blanks

The parts that the patterns of the built-in stages share.

## Main Definitions

* `Pattern.blanks`, `Pattern.someBlanks` — blanks within a line
* `Pattern.name` — names of variables and rules
* `Pattern.indentation` — the start of a line with its blanks
-/

namespace RuleCanon

namespace CharSet

/-- Spaces and tabs. -/
def inlineBlank : CharSet := oneOf [' ', '\t']

/-- Characters that a name can start with: letters and the low line. -/
def nameStart : CharSet := union (property .letter) (oneOf ['_'])

/-- Characters that a name can go on with: letters, numbers and the low line. -/
def nameRest : CharSet := unions [property .letter, property .number, oneOf ['_']]

end CharSet

namespace Pattern

/-- As many spaces and tabs as there are. -/
def blanks : Pattern := many true .inlineBlank

/-- Spaces and tabs, at least one of them. -/
def someBlanks : Pattern := someOf .inlineBlank

/-- A name: a letter or low line, and as many letters, numbers and low lines as follow. -/
def name : Pattern := seq (one .nameStart) (many true .nameRest)

/-- The start of a line with its blanks, which are recorded under a number. -/
def indentation (number : Nat) : Pattern := seq (anchor .lineStart) (group number blanks)

end Pattern

end RuleCanon
