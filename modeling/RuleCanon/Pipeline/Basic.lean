import RuleCanon.Pipeline.Config
import RuleCanon.Stage.Basic
import RuleCanon.Literal.Quotes

/-!
# Pipelines

A pipeline runs its stages over a text, one after the other, and in the end gives all literals
straight double quotes, unless it was told to keep theirs.

## Main Definitions

* `Pipeline` — stages with the lexicon and the options that they were made for
* `Pipeline.canonicalize` — the canonical form of a text
* `Pipeline.trace` — the text after each step
-/

namespace RuleCanon

/-- Stages that are ready to run. -/
structure Pipeline where
  /-- The lexicon that the stages were made for. -/
  lexicon : Lexicon
  /-- The options. -/
  config : Config
  /-- The stages in the order in which they run. -/
  stages : List Stage

/-- What a step of a pipeline has made of a text. -/
structure TraceEntry where
  /-- The name of the step. -/
  step : String
  /-- The text after the step. -/
  output : List Char
deriving DecidableEq, Repr

namespace Pipeline

/-- The name under which the step for quotes is reported. -/
def quotesStep : String := "quotes"

/-- The segmenter that all stages use. -/
def segmenter (p : Pipeline) : Segmenter := p.lexicon.segmenter

/-- The names of the stages. -/
def stageNames (p : Pipeline) : List String := p.stages.map (·.name)

/-- Gives literals straight double quotes, unless the options say to keep theirs. -/
def finish (p : Pipeline) (text : List Char) : List Char :=
  if p.config.normalizeQuotes then p.segmenter.canonicalizeQuotes .ascii text else text

/-- The canonical form of a text. -/
def canonicalize (p : Pipeline) (text : List Char) : List Char :=
  p.finish (p.stages.foldl (fun text stage => stage.apply p.segmenter text) text)

/-- The texts after each of the stages, and after the step for quotes if it is done. -/
def traceFrom (p : Pipeline) (text : List Char) : List Stage → List TraceEntry
  | [] => if p.config.normalizeQuotes then [⟨quotesStep, p.finish text⟩] else []
  | stage :: rest =>
    let output := stage.apply p.segmenter text
    ⟨stage.name, output⟩ :: p.traceFrom output rest

/-- The text after each step. -/
def trace (p : Pipeline) (text : List Char) : List TraceEntry := p.traceFrom text p.stages

end Pipeline

end RuleCanon
