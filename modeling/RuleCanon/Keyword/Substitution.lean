import RuleCanon.Stage.Basic
import RuleCanon.Text.Identifier
import RuleCanon.Lexicon.Builtin

/-!
# Keywords in canonical spelling

Each keyword of a lexicon that stands alone is replaced by its canonical spelling.  A spelling
that touches a character which could be part of a name is part of that name, and stays.  Of
several spellings at one place the longest wins, and of kinds with a common spelling the first.

## Main Definitions

* `KeywordRule` — a spelling and what takes its place
* `KeywordIndex` — rules filed by the first character of their spelling, the longest in front
* `KeywordIndex.substitute` — replacement in a text without literals
* `Stage.keywords` — the stage
* `substituteKeywords` — the same replacement with all rules in one list
-/

namespace RuleCanon

/-- A spelling of a keyword and its canonical form. -/
structure KeywordRule where
  /-- The spelling to look for. -/
  spelling : List Char
  /-- What takes its place. -/
  canonical : List Char
deriving DecidableEq, Repr

/-- Puts a rule behind all rules whose spelling is at least as long. -/
def KeywordRule.insert (r : KeywordRule) : List KeywordRule → List KeywordRule
  | [] => [r]
  | q :: rest =>
    if q.spelling.length < r.spelling.length then r :: q :: rest else q :: r.insert rest

/-- The rules, those with longer spellings first and otherwise in their order. -/
def KeywordRule.sort (rules : List KeywordRule) : List KeywordRule :=
  rules.foldl (fun sorted r => r.insert sorted) []

namespace Lexicon

/-- The rules for all spellings, in the order of the kinds. -/
def spellingRules (l : Lexicon) : List KeywordRule :=
  l.keywords.flatMap fun (k, s) => s.all.map fun t => ⟨t.toList, k.canonical.toList⟩

/-- The rules for all spellings, those with longer spellings first and otherwise in the order of
the kinds. -/
def keywordRules (l : Lexicon) : List KeywordRule :=
  KeywordRule.sort l.spellingRules

end Lexicon

/-- The first rule whose spelling starts right here and stands alone; `previous` is the
character before it. -/
def keywordAt? (rules : List KeywordRule) (previous : Option Char) (text : List Char) :
    Option KeywordRule :=
  rules.find? fun r =>
    r.spelling.isPrefixOf text && isWordBorder previous &&
      isWordBorder (text.drop r.spelling.length).head?

/-- Replaces keywords in a text that goes on after `previous`. -/
def substituteAfter (rules : List KeywordRule) (previous : Option Char) :
    List Char → List Char
  | [] => []
  | c :: rest =>
    match keywordAt? rules previous (c :: rest) with
    | some r =>
      r.canonical ++
        substituteAfter rules (r.spelling.getLast?.or previous)
          (rest.drop (r.spelling.length - 1))
    | none => c :: substituteAfter rules (some c) rest
termination_by text => text.length
decreasing_by
  · simp only [List.length_drop, List.length_cons]
    omega
  · simp

/-- Replaces keywords in a text without literals. -/
def substituteKeywords (rules : List KeywordRule) (text : List Char) : List Char :=
  substituteAfter rules none text

/-! ## The index -/

/-- Rules for keywords, filed by the first character of their spelling. -/
structure KeywordIndex where
  /-- The rules whose spellings start with a character. -/
  rulesFor : Char → List KeywordRule

namespace KeywordIndex

/-- Files rules, of those with the same spelling only the first one. -/
def ofRules (rules : List KeywordRule) : KeywordIndex :=
  let distinct := firstToEach (·.spelling) [] rules
  ⟨fun c => KeywordRule.sort (distinct.filter (·.spelling.head? = some c))⟩

/-- Replaces keywords in a text that goes on after `previous`.  Only the rules for the character
at a place are tried there. -/
def substituteAfter (index : KeywordIndex) (previous : Option Char) : List Char → List Char
  | [] => []
  | c :: rest =>
    match keywordAt? (index.rulesFor c) previous (c :: rest) with
    | some r =>
      r.canonical ++
        index.substituteAfter (r.spelling.getLast?.or previous)
          (rest.drop (r.spelling.length - 1))
    | none => c :: index.substituteAfter (some c) rest
termination_by text => text.length
decreasing_by
  · simp only [List.length_drop, List.length_cons]
    omega
  · simp

/-- Replaces keywords in a text without literals. -/
def substitute (index : KeywordIndex) (text : List Char) : List Char :=
  index.substituteAfter none text

end KeywordIndex

/-- The index of a lexicon.  There is none if a keyword is spelled with nothing, which would be
found everywhere. -/
def Lexicon.keywordIndex (l : Lexicon) : Except ConfigError KeywordIndex :=
  match l.keywords.find? (·.2.all.contains "") with
  | some (k, _) => .error (.emptyKeyword l.id k)
  | none => .ok (.ofRules l.spellingRules)

/-- The stage that replaces the keywords of a lexicon. -/
def Stage.keywords (l : Lexicon) : Except ConfigError Stage :=
  l.keywordIndex.map fun index =>
    ⟨StageName.keywords, fun s => s.mapCode index.substitute⟩

end RuleCanon
