/-!
# Options of a pipeline

## Main Definitions

* `Config` — the options, with those of a pipeline that was not told otherwise as default
* `Config.disable` — leaves out a stage
-/

namespace RuleCanon

/-- The options of a pipeline. -/
structure Config where
  /-- Whether literals get straight double quotes in the end. -/
  normalizeQuotes : Bool := true
  /-- The names of stages that are left out. -/
  disabled : List String := []
deriving DecidableEq, Repr

namespace Config

/-- Leaves out the stage of that name. -/
def disable (c : Config) (name : String) : Config :=
  if name ∈ c.disabled then c else { c with disabled := c.disabled ++ [name] }

/-- Whether the stage of that name is left out. -/
def isDisabled (c : Config) (name : String) : Bool := c.disabled.contains name

end Config

end RuleCanon
