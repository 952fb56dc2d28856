import RuleCanon.Pipeline.Basic
import RuleCanon.Lexicon.Builtin

/-!
# Building pipelines

A plan says which stages a pipeline is to have.  Building it makes the stages, and fails if a
stage is unknown, would run twice or cannot be made.

## Main Definitions

* `PipelinePlan` — what a pipeline is to be made of
* `PipelinePlan.stageNames` — the names of the registered stages that it needs
* `PipelinePlan.build` — the pipeline

## Design Notes

The stage for keywords is always there unless it is disabled: a plan that does not name it gets
it at the end.  Extra stages come right before it, so that they still see the words of the
language.
-/

namespace RuleCanon

/-- What a pipeline is to be made of. -/
structure PipelinePlan where
  /-- The lexicon of the language. -/
  lexicon : Lexicon
  /-- The options. -/
  config : Config := {}
  /-- The names of stages, if it is not those of the lexicon. -/
  order : Option (List String) := none
  /-- Stages that are not registered. -/
  extra : List Stage := []

namespace PipelinePlan

/-- The names of the registered stages that the pipeline needs, in order. -/
def stageNames (p : PipelinePlan) : List String :=
  let enabled := (p.order.getD p.lexicon.stages).filter (!p.config.isDisabled ·)
  if p.config.isDisabled StageName.keywords || enabled.contains StageName.keywords then enabled
  else enabled ++ [StageName.keywords]

/-- The extra stages that are not disabled. -/
def enabledExtra (p : PipelinePlan) : List Stage :=
  p.extra.filter (!p.config.isDisabled ·.name)

/-- The first disabled name that belongs to no stage. -/
def unknownDisabled? (p : PipelinePlan) (r : StageRegistry) : Option String :=
  p.config.disabled.find? fun name => !r.contains name && !p.extra.any (·.name == name)

/-- Makes the stages of the given names, none of which may come twice or be in `seen`. -/
def createAll (r : StageRegistry) (l : Lexicon) (seen : List String) :
    List String → Except ConfigError (List Stage)
  | [] => .ok []
  | name :: rest =>
    if seen.contains name then .error (.duplicateStage name)
    else
      match r.create name l with
      | .error e => .error e
      | .ok stage =>
        match createAll r l (name :: seen) rest with
        | .error e => .error e
        | .ok stages => .ok (stage :: stages)

/-- The first name that comes twice or is in `seen`. -/
def firstRepeat? (seen : List String) : List String → Option String
  | [] => none
  | name :: rest =>
    if seen.contains name then some name else firstRepeat? (name :: seen) rest

/-- Puts stages right before the stage for keywords, or at the end if there is none. -/
def insertExtra (stages extra : List Stage) : List Stage :=
  stages.takeWhile (·.name != StageName.keywords) ++ extra ++
    stages.dropWhile (·.name != StageName.keywords)

/-- The pipeline of the plan. -/
def build (p : PipelinePlan) (r : StageRegistry) : Except ConfigError Pipeline :=
  match p.unknownDisabled? r with
  | some name => .error (.unknownStage name)
  | none =>
    match createAll r p.lexicon [] p.stageNames with
    | .error e => .error e
    | .ok stages =>
      match firstRepeat? p.stageNames (p.enabledExtra.map (·.name)) with
      | some name => .error (.duplicateStage name)
      | none => .ok ⟨p.lexicon, p.config, insertExtra stages p.enabledExtra⟩

end PipelinePlan

end RuleCanon
