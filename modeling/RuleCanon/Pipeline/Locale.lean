import RuleCanon.Pipeline.Build
import RuleCanon.Lexicon.Registry
import RuleCanon.Stage.Builtin

/-!
# Sets of locales

A set of locales holds the lexicons and the stages that are available.  It grows by plugins,
each of which brings stages and a lexicon, and by single lexicons.

## Main Definitions

* `LocalePlugin` — stages and the lexicon that names them
* `LocaleSet` — what is available
* `LocaleSet.install`, `LocaleSet.registerLexicon` — how a set grows

## Design Notes

A plugin registers its stages one by one before its lexicon is looked at.  If something goes
wrong the stages that were registered by then stay, so growing a set gives a set even when it
fails.
-/

namespace RuleCanon

/-- What a language brings along. -/
structure LocalePlugin where
  /-- The factories of its stages, by name. -/
  stages : List (String × StageFactory)
  /-- Its lexicon, or why there is none. -/
  lexicon : Except ConfigError Lexicon

namespace LocalePlugin

/-- Simplified Chinese. -/
def chinese : LocalePlugin := ⟨Stage.chinese, .ok .chinese⟩

/-- English. -/
def english : LocalePlugin := ⟨[], .ok .english⟩

end LocalePlugin

/-- The lexicons and stages that are available. -/
structure LocaleSet where
  /-- The lexicons. -/
  lexicons : LexiconRegistry
  /-- The stages. -/
  stages : StageRegistry

namespace LocaleSet

/-- The set without languages; it has the stage for keywords. -/
def empty : LocaleSet := ⟨∅, .core⟩

/-- Registers stages up to the first one whose name is taken. -/
def registerStages (r : StageRegistry) :
    List (String × StageFactory) → StageRegistry × Option ConfigError
  | [] => (r, none)
  | (name, factory) :: rest =>
    match r.register name factory with
    | .error e => (r, some e)
    | .ok r => registerStages r rest

/-- Adds a lexicon that uses stages which are there. -/
def registerLexicon (s : LocaleSet) (l : Lexicon) : LocaleSet × Except ConfigError Lexicon :=
  match s.lexicons.register l with
  | .error e => (s, .error e)
  | .ok lexicons => ({ s with lexicons }, .ok l)

/-- Adds the stages and the lexicon of a plugin. -/
def install (s : LocaleSet) (p : LocalePlugin) : LocaleSet × Except ConfigError Lexicon :=
  match registerStages s.stages p.stages with
  | (stages, some e) => ({ s with stages }, .error e)
  | (stages, none) =>
    match p.lexicon with
    | .error e => ({ s with stages }, .error e)
    | .ok l => { s with stages }.registerLexicon l

/-- The set of the built-in languages. -/
def builtin : LocaleSet := ((empty.install .chinese).1.install .english).1

/-- The pipeline for a locale, with other options and stages than the lexicon has. -/
def build (s : LocaleSet) (locale : String) (config : Config) (order : Option (List String))
    (extra : List Stage) : Except ConfigError Pipeline :=
  match s.lexicons.lookup locale with
  | .error e => .error e
  | .ok lexicon => PipelinePlan.build { lexicon, config, order, extra } s.stages

end LocaleSet

end RuleCanon
