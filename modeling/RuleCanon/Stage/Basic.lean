import RuleCanon.Lexicon.Basic
import RuleCanon.Pattern.Template
import RuleCanon.Pattern.Reader
import RuleCanon.Table
import RuleCanon.Text.Quoted

/-!
# Stages

A stage is a step of a pipeline.  It has a name and turns a text into a text, leaving
the literals that the segmenter finds alone.  Stages are registered by name as factories, which
make the stage for a lexicon.

## Main Definitions

* `Stage` — a named step
* `StageFactory`, `StageRegistry` — what makes stages, by name
* `Stage.ofCompiled` — the stage that replaces the matches of a pattern
* `Stage.ofPattern` — the same for a pattern in its written form, with a compiler for it
-/

namespace RuleCanon

/-- A step of a pipeline. -/
structure Stage where
  /-- The name of the stage. -/
  name : String
  /-- The text after the step. -/
  apply : Segmenter → List Char → List Char

/-- What makes a stage for a lexicon. -/
abbrev StageFactory := Lexicon → Except ConfigError Stage

/-- What makes the stages of a name. -/
abbrev StageRegistry := Table StageFactory

namespace StageRegistry

/-- Registers a factory under a name that is not taken. -/
def register (r : StageRegistry) (name : String) (factory : StageFactory) :
    Except ConfigError StageRegistry :=
  if r.contains name then .error (.duplicateStage name) else .ok (r.insert name factory)

/-- Makes the stage of that name for a lexicon. -/
def create (r : StageRegistry) (name : String) (l : Lexicon) : Except ConfigError Stage :=
  match r.find? name with
  | some factory => factory l
  | none => .error (.unknownStage name)

/-- The registered names as a set in braces. -/
def describe (r : StageRegistry) : List Char :=
  '{' :: [',', ' '].intercalate (r.keys.map fun name => quoteText name.toList) ++ ['\x7D']

end StageRegistry

/-- Replaces what a pattern finds outside literals by the text of a template. -/
def Segmenter.replacePattern (s : Segmenter) (p : CompiledPattern) (t : Template)
    (text : List Char) : List Char :=
  s.replaceOutside p.matcher (t.expand p) text

/-- The stage that replaces what a pattern finds by the text of a template. -/
def Stage.ofCompiled (name : String) (p : CompiledPattern) (t : Template) : Stage where
  name := name
  apply s := s.replacePattern p t

/-- The stage of a pattern and a template in their written form. -/
def Stage.ofPattern (name : String) (pattern replacement : List Char)
    (compiler : PatternCompiler := Regex.compiler) : Except ConfigError Stage :=
  match compiler pattern with
  | some p => .ok (.ofCompiled name p (.read replacement))
  | none => .error (.invalidPattern name .malformedPattern)

end RuleCanon
