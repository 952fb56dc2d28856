import RuleCanon.Idiom.Punctuation
import RuleCanon.Idiom.Possessive
import RuleCanon.Idiom.Operator
import RuleCanon.Idiom.RuleHeading
import RuleCanon.Idiom.LinePrefix
import RuleCanon.Keyword.Substitution

/-!
# Built-in stages

## Main Definitions

* `Stage.chinese` — the factories of the stages for Chinese, with their names
* `StageRegistry.core` — the registry that every set of locales starts with
-/

namespace RuleCanon

namespace Stage

/-- The stage for punctuation marks. -/
def punctuation : Stage := ⟨StageName.punctuation, canonicalizePunctuation⟩

/-- The stage for member access. -/
def possessive : Stage := ⟨StageName.possessive, canonicalizePossessive⟩

/-- The stage for comparisons, branches and bindings, which takes the word that opens a binding
from the lexicon. -/
def operator (l : Lexicon) : Stage :=
  ⟨StageName.operator, canonicalizeOperators (l.keyword .letName).surface.toList⟩

/-- The stage for rule headings. -/
def functionSyntax : Stage := ⟨StageName.functionSyntax, canonicalizeHeadings⟩

/-- The stage for assignments. -/
def setTo : Stage := ⟨StageName.setTo, canonicalizeAssignments⟩

/-- The stage for results. -/
def resultIs : Stage := ⟨StageName.resultIs, canonicalizeResults⟩

/-- The factories of the stages for Chinese. -/
def chinese : List (String × StageFactory) :=
  [(StageName.punctuation, fun _ => .ok punctuation),
    (StageName.possessive, fun _ => .ok possessive),
    (StageName.operator, fun l => .ok (operator l)),
    (StageName.functionSyntax, fun _ => .ok functionSyntax),
    (StageName.setTo, fun _ => .ok setTo),
    (StageName.resultIs, fun _ => .ok resultIs)]

end Stage

/-- The registry with the stage for keywords, which all languages share. -/
def StageRegistry.core : StageRegistry :=
  Table.insert ∅ StageName.keywords Stage.keywords

end RuleCanon
