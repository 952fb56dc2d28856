import RuleCanon.Lexicon.Resource
import RuleCanon.Json.Reader
import RuleCanon.Json.Printer

/-!
# Lexicons as JSON

Lexicon resources are exchanged as JSON.  A reader of a resource looks at the fields that it
knows: such a field must not be repeated, and fields that it does not know are passed over.  A
resource and its punctuation may also be written as the array of their fields.  The keywords
form a table of their own, in which a later entry replaces an earlier one with its key.

## Main Definitions

* `LexiconResource.ofJson?`, `LexiconResource.toJson` — resources from JSON values and back
* `Lexicon.read`, `Lexicon.write` — lexicons from texts and back
-/

namespace RuleCanon

namespace Json

/-- The texts of an array of strings. -/
def texts? (j : Json) : Option (List String) := j.items?.bind (·.mapM text?)

/-- The members of a record with the given field names, each of them if it is there: the fields
of an object, none of them repeated, or the items of an array, no more than there are names. -/
def members? (names : List String) : Json → Option (List (Option Json))
  | array items =>
    if items.length ≤ names.length then
      some (items.map some ++ List.replicate (names.length - items.length) none)
    else none
  | object fields => do
    let fields ← (object fields).fields?
    names.mapM (uniqueField? fields)
  | _ => none

/-- The value of a member that may be absent. -/
def optional? {α : Type} (read : Json → Option α) (default : α) : Option Json → Option α
  | some j => read j
  | none => some default

/-- The value of a member that must be there. -/
def required? {α : Type} (read : Json → Option α) (j : Option Json) : Option α := j.bind read

end Json

/-- The direction that a value names: a string, or an object with the name as its only field and
no value. -/
def Direction.ofJson? : Json → Option Direction
  | .string (some s) => ofName? s
  | .object [(some s, .null)] => ofName? s
  | _ => none

/-- The depth to which an entry for a keyword may be nested, besides the two levels around it. -/
def KeywordSpec.maxDepth : Nat := 125

/-- The entry for a keyword that a value describes: a string, or an object with the spelling and
perhaps others.  All parts of the value must be sound, known fields or not. -/
def KeywordSpec.ofJson? (j : Json) : Option KeywordSpec :=
  if j.isSound maxDepth then
    match j with
    | .string (some s) => some (.surface s)
    | .object _ => do
      let fields ← j.fields?
      let surface ← Json.required? Json.text? (← Json.uniqueField? fields "surface")
      let aliases ← Json.optional? Json.texts? [] (← Json.uniqueField? fields "aliases")
      some (.detailed ⟨surface, aliases⟩)
    | _ => none
  else none

/-- The value that describes an entry. -/
def KeywordSpec.toJson : KeywordSpec → Json
  | surface s => .string s
  | detailed s =>
    .object ((some "surface", .string s.surface) ::
      if s.aliases = [] then []
      else [(some "aliases", .array (s.aliases.map fun a => .string (some a)))])

/-- The punctuation that a value describes. -/
def Punctuation.ofJson? (j : Json) : Option Punctuation := do
  let members ← j.members? (PunctuationRole.all.map (·.field))
  match ← members.mapM (Json.required? Json.text?) with
  | [a, b, c, d, e] => some ⟨a, b, c, d, e⟩
  | _ => none

/-- The value that describes punctuation. -/
def Punctuation.toJson (p : Punctuation) : Json :=
  .object (PunctuationRole.all.map fun r => (some r.field, .string (p.get r)))

namespace LexiconResource

/-- The names of the fields of a resource. -/
def fieldNames : List String := ["id", "name", "direction", "keywords", "punctuation", "stages"]

/-- The table of keywords that a value describes. -/
def keywordsOfJson? (j : Json) : Option (Table KeywordSpec) := do
  match j with
  | .object _ =>
    let fields ← j.fields?
    let entries ← fields.mapM fun (key, value) => (KeywordSpec.ofJson? value).map (key, ·)
    some (.ofList entries)
  | _ => none

/-- The resource that a value describes. -/
def ofJson? (j : Json) : Option LexiconResource := do
  match ← j.members? fieldNames with
  | [id, name, direction, keywords, punctuation, stages] =>
    let id ← Json.required? Json.text? id
    let name ← Json.required? Json.text? name
    let direction ← Json.optional? Direction.ofJson? .leftToRight direction
    let keywords ← Json.required? keywordsOfJson? keywords
    let punctuation ← Json.required? Punctuation.ofJson? punctuation
    let stages ← Json.optional? Json.texts? [] stages
    some { id, name, direction, keywords, punctuation, stages }
  | _ => none

/-- The value that describes a resource. -/
def toJson (r : LexiconResource) : Json :=
  .object [
    (some "id", .string r.id),
    (some "name", .string r.name),
    (some "direction", .string r.direction.name),
    (some "keywords", .object (r.keywords.entries.map fun (key, spec) => (some key, spec.toJson))),
    (some "punctuation", r.punctuation.toJson),
    (some "stages", .array (r.stages.map fun s => .string (some s)))]

end LexiconResource

namespace Lexicon

/-- Reads a lexicon from a text, which is called `origin` in errors. -/
def read (origin : String) (text : List Char) : Except ConfigError Lexicon :=
  match (Json.read? text).bind LexiconResource.ofJson? with
  | some r => ofResource r
  | none => .error (.invalidJson origin)

/-- The text of a lexicon. -/
def write (l : Lexicon) : List Char := l.toResource.toJson.pretty

end Lexicon

end RuleCanon
