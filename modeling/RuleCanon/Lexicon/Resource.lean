import RuleCanon.Lexicon.Basic
import RuleCanon.Unicode.Property
import RuleCanon.Table

/-!
# Lexicon resources

A resource is what someone has written down as a lexicon.  It may lack keywords, have unknown
ones, or spell them with nothing.  Such a resource is refused, and the first fault is reported.

## Main Definitions

* `LexiconResource` — a lexicon that has not been checked
* `LexiconResource.firstFault?` — the first fault of a resource
* `Lexicon.ofResource`, `Lexicon.toResource` — lexicons from resources and back
-/

namespace RuleCanon

/-- An entry for a keyword. -/
inductive KeywordSpec where
  /-- A single spelling. -/
  | surface (s : String)
  /-- A spelling with others. -/
  | detailed (s : Spellings)
deriving DecidableEq, Repr

namespace KeywordSpec

/-- The spellings that an entry lists. -/
def spellings : KeywordSpec → Spellings
  | surface s => ⟨s, []⟩
  | detailed s => s

/-- The entry that lists the spellings, in the short form if there is only one. -/
def ofSpellings (s : Spellings) : KeywordSpec :=
  if s.aliases = [] then surface s.surface else detailed s

end KeywordSpec

/-- A lexicon as it is written down. -/
structure LexiconResource where
  /-- The id of the locale. -/
  id : String
  /-- The name of the language. -/
  name : String
  /-- The direction in which the language is written. -/
  direction : Direction := .leftToRight
  /-- The entries for keywords, by key. -/
  keywords : Table KeywordSpec
  /-- The punctuation marks. -/
  punctuation : Punctuation
  /-- The names of stages. -/
  stages : List String := []

/-- Whether a text holds blank characters only. -/
def isBlank (s : String) : Bool := s.toList.all Unicode.isWhiteSpace

namespace LexiconResource

/-- What is wrong with the entry for a kind of keyword. -/
def keywordFault? (r : LexiconResource) (k : TokenKind) : Option ConfigError :=
  match r.keywords.find? k.key with
  | none => some (.missingKeyword r.id k)
  | some spec =>
    if isBlank spec.spellings.surface then some (.emptyKeyword r.id k)
    else if spec.spellings.aliases.any isBlank then some (.emptyAlias r.id k)
    else none

/-- What is wrong with the mark for a role. -/
def punctuationFault? (r : LexiconResource) (role : PunctuationRole) : Option ConfigError :=
  if r.punctuation.get role = "" then some (.emptyPunctuation r.id role) else none

/-- The first fault of a resource: a blank id, then the least unknown key, then a faulty entry
for a keyword in the order of the kinds, then a missing mark in the order of the roles. -/
def firstFault? (r : LexiconResource) : Option ConfigError :=
  if isBlank r.id then some .emptyLocaleId
  else
    match r.keywords.keys.find? (TokenKind.ofKey? · = none) with
    | some key => some (.unknownTokenKind r.id key)
    | none =>
      (TokenKind.all.findSome? r.keywordFault?).or
        (PunctuationRole.all.findSome? r.punctuationFault?)

end LexiconResource

namespace Lexicon

/-- The lexicon that a resource describes, or its first fault. -/
def ofResource (r : LexiconResource) : Except ConfigError Lexicon :=
  match r.firstFault? with
  | some fault => .error fault
  | none => .ok {
      id := r.id
      name := r.name
      direction := r.direction
      keyword := fun k => ((r.keywords.find? k.key).map (·.spellings)).getD ⟨"", []⟩
      punctuation := r.punctuation
      stages := r.stages }

/-- The resource that describes a lexicon. -/
def toResource (l : Lexicon) : LexiconResource where
  id := l.id
  name := l.name
  direction := l.direction
  keywords := .ofList (l.keywords.map fun (k, s) => (k.key, .ofSpellings s))
  punctuation := l.punctuation
  stages := l.stages

end Lexicon

end RuleCanon
