import RuleCanon.File.Fault
import RuleCanon.Vocabulary.TokenKind
import RuleCanon.Vocabulary.Punctuation

/-!
# Configuration errors

Everything that can go wrong goes wrong while lexicons, stages and pipelines are put together.
Canonicalizing a text never fails.

## Main Definitions

* `ConfigError` — the causes of failure
* `ConfigError.message`, `ConfigError.code`, `ConfigError.help` — how they are reported
-/

namespace RuleCanon

/-- What is wrong with a pattern rule. -/
inductive RuleFault where
  /-- The rule has a blank name. -/
  | blankName
  /-- The pattern of the rule is not a regular expression. -/
  | malformedPattern
deriving DecidableEq, Repr

/-- The message for a rule fault. -/
def RuleFault.message : RuleFault → String
  | blankName => "rule name is empty"
  | malformedPattern => "<regex error>"

/-- Why a lexicon, a stage or a pipeline could not be put together. -/
inductive ConfigError where
  /-- The lexicon has a blank id. -/
  | emptyLocaleId
  /-- The lexicon has no entry for the kind. -/
  | missingKeyword (locale : String) (kind : TokenKind)
  /-- The lexicon spells the kind with blanks only. -/
  | emptyKeyword (locale : String) (kind : TokenKind)
  /-- The lexicon lists an alias of blanks only for the kind. -/
  | emptyAlias (locale : String) (kind : TokenKind)
  /-- The lexicon has no mark for the role. -/
  | emptyPunctuation (locale : String) (role : PunctuationRole)
  /-- The lexicon has an entry under a key that belongs to no kind. -/
  | unknownTokenKind (locale name : String)
  /-- The resource is not JSON of the expected form. -/
  | invalidJson (origin : String)
  /-- The file cannot be read. -/
  | unreadable (path : String) (fault : FileFault)
  /-- The stage has no usable pattern. -/
  | invalidPattern (stage : String) (fault : RuleFault)
  /-- No stage has the name. -/
  | unknownStage (name : String)
  /-- The name of a stage is taken. -/
  | duplicateStage (name : String)
  /-- The id of a lexicon is taken. -/
  | duplicateLocale (id : String)
  /-- No lexicon has the id. -/
  | unknownLocale (id : String)
deriving DecidableEq, Repr

namespace ConfigError

/-- What went wrong, in a sentence. -/
def message : ConfigError → String
  | emptyLocaleId => "lexicon id must not be empty"
  | missingKeyword locale kind =>
    s!"lexicon `{locale}` has no keyword for token kind {kind.key}"
  | emptyKeyword locale kind =>
    s!"lexicon `{locale}` maps token kind {kind.key} to an empty keyword"
  | emptyAlias locale kind =>
    s!"lexicon `{locale}` lists an empty alias for token kind {kind.key}"
  | emptyPunctuation locale role =>
    s!"lexicon `{locale}` has an empty `{role.field}` punctuation entry"
  | unknownTokenKind locale name => s!"lexicon `{locale}` names unknown token kind `{name}`"
  | invalidJson origin => s!"malformed JSON resource `{origin}`"
  | unreadable path _ => s!"failed to read `{path}`"
  | invalidPattern stage fault => s!"stage `{stage}` has an invalid pattern: {fault.message}"
  | unknownStage name => s!"unknown stage `{name}`"
  | duplicateStage name => s!"stage `{name}` is registered twice"
  | duplicateLocale id => s!"lexicon `{id}` is registered twice"
  | unknownLocale id => s!"no lexicon registered for locale `{id}`"

/-- The code under which the error is reported. -/
def code : ConfigError → String
  | emptyLocaleId => "aster::lexicon::empty_id"
  | missingKeyword .. => "aster::lexicon::missing_keyword"
  | emptyKeyword .. => "aster::lexicon::empty_keyword"
  | emptyAlias .. => "aster::lexicon::empty_alias"
  | emptyPunctuation .. => "aster::lexicon::empty_punctuation"
  | unknownTokenKind .. => "aster::lexicon::unknown_token_kind"
  | invalidJson _ => "aster::lexicon::invalid_json"
  | unreadable .. => "aster::io"
  | invalidPattern .. => "aster::stage::invalid_pattern"
  | unknownStage _ => "aster::stage::unknown"
  | duplicateStage _ => "aster::stage::duplicate"
  | duplicateLocale _ => "aster::lexicon::duplicate"
  | unknownLocale _ => "aster::lexicon::unknown_locale"

/-- What to do about it, if there is general advice. -/
def help : ConfigError → Option String
  | missingKeyword .. =>
    some "every token kind needs an entry in the lexicon's `keywords` table"
  | unknownTokenKind .. =>
    some "token kinds are upper snake case, e.g. `RULE_DEF` or `FOR_EACH`"
  | unknownStage _ => some "run `aster stages` to list the stages a locale registers"
  | unknownLocale _ => some "run `aster locales` to list registered locales"
  | _ => none

/-- What lies behind the error, if that is known. -/
def cause : ConfigError → Option String
  | unreadable _ fault => some fault.message
  | _ => none

end ConfigError

end RuleCanon
