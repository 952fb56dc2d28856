/-!
# Punctuation

The marks that a lexicon spells in its own way.

## Main Definitions

* `PunctuationRole` — what a mark is for
* `Punctuation` — a spelling for each role, with `Punctuation.canonical` for canonical text
-/

namespace RuleCanon

/-- What a mark is for. -/
inductive PunctuationRole where
  /-- Ends a statement. -/
  | statementEnd
  /-- Separates the items of a list. -/
  | listSeparator
  /-- Opens a block. -/
  | blockStart
  /-- Opens a string literal. -/
  | stringQuoteOpen
  /-- Closes a string literal. -/
  | stringQuoteClose
deriving DecidableEq, Repr

namespace PunctuationRole

/-- All roles, in order. -/
def all : List PunctuationRole :=
  [statementEnd, listSeparator, blockStart, stringQuoteOpen, stringQuoteClose]

theorem mem_all (r : PunctuationRole) : r ∈ all := by cases r <;> decide

/-- The name of the field that spells the mark. -/
def field : PunctuationRole → String
  | statementEnd => "statementEnd"
  | listSeparator => "listSeparator"
  | blockStart => "blockStart"
  | stringQuoteOpen => "stringQuoteOpen"
  | stringQuoteClose => "stringQuoteClose"

end PunctuationRole

/-- A spelling for each mark. -/
structure Punctuation where
  /-- Ends a statement. -/
  statementEnd : String
  /-- Separates the items of a list. -/
  listSeparator : String
  /-- Opens a block. -/
  blockStart : String
  /-- Opens a string literal. -/
  stringQuoteOpen : String
  /-- Closes a string literal. -/
  stringQuoteClose : String
deriving DecidableEq, Repr

namespace Punctuation

/-- The marks of canonical text. -/
def canonical : Punctuation := ⟨".", ",", ":", "\"", "\""⟩

/-- The mark for a role. -/
def get (p : Punctuation) : PunctuationRole → String
  | .statementEnd => p.statementEnd
  | .listSeparator => p.listSeparator
  | .blockStart => p.blockStart
  | .stringQuoteOpen => p.stringQuoteOpen
  | .stringQuoteClose => p.stringQuoteClose

/-- The marks with the one for a role changed. -/
def set (p : Punctuation) (role : PunctuationRole) (mark : String) : Punctuation :=
  match role with
  | .statementEnd => { p with statementEnd := mark }
  | .listSeparator => { p with listSeparator := mark }
  | .blockStart => { p with blockStart := mark }
  | .stringQuoteOpen => { p with stringQuoteOpen := mark }
  | .stringQuoteClose => { p with stringQuoteClose := mark }

end Punctuation

end RuleCanon
