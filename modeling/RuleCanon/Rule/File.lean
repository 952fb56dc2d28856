import RuleCanon.Stage.Basic
import RuleCanon.Lexicon.Written

/-!
# Rules files

A rules file lists pattern rules of its user: what to look for, what takes its place, and a name
for the stage that does it.

## Main Definitions

* `PatternRule` — a rule, with `PatternRule.compile` for its stage
* `RulesFile` — a list of rules, with `RulesFile.read` for its written form
-/

namespace RuleCanon

/-- A rule that replaces what a pattern finds. -/
structure PatternRule where
  /-- The name of the stage. -/
  name : String
  /-- The pattern to look for. -/
  pattern : String
  /-- The template for what takes its place. -/
  replacement : String := ""
deriving DecidableEq, Repr

namespace PatternRule

/-- The rule that a value describes. -/
def ofJson? (j : Json) : Option PatternRule := do
  match ← j.members? ["name", "pattern", "replacement"] with
  | [name, pattern, replacement] =>
    let name ← Json.required? Json.text? name
    let pattern ← Json.required? Json.text? pattern
    let replacement ← Json.optional? Json.text? "" replacement
    some { name, pattern, replacement }
  | _ => none

/-- The stage of a rule. -/
def compile (r : PatternRule) (compiler : PatternCompiler := Regex.compiler) :
    Except ConfigError Stage :=
  if isBlank r.name then .error (.invalidPattern r.name .blankName)
  else Stage.ofPattern r.name r.pattern.toList r.replacement.toList compiler

end PatternRule

/-- A list of pattern rules. -/
abbrev RulesFile := List PatternRule

namespace RulesFile

/-- The rules that a value describes. -/
def ofJson? (j : Json) : Option RulesFile := do
  match ← j.members? ["stages"] with
  | [stages] => Json.optional? (fun j => j.items?.bind (·.mapM PatternRule.ofJson?)) [] stages
  | _ => none

/-- Reads a rules file from a text, which is called `origin` in errors. -/
def read (origin : String) (text : List Char) : Except ConfigError RulesFile :=
  match (Json.read? text).bind ofJson? with
  | some rules => .ok rules
  | none => .error (.invalidJson origin)

/-- The stages of the rules, in their order. -/
def compile (rules : RulesFile) (compiler : PatternCompiler := Regex.compiler) :
    Except ConfigError (List Stage) :=
  rules.mapM (·.compile compiler)

end RulesFile

end RuleCanon
