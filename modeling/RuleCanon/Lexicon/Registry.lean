import RuleCanon.Lexicon.Basic
import RuleCanon.Table

/-!
# Registered lexicons

Lexicons that are available, by the id of their locale.

## Main Definitions

* `LexiconRegistry` — the lexicons by id
* `LexiconRegistry.register` — adds a lexicon whose id is not taken
-/

namespace RuleCanon

/-- The lexicons that are available, by id. -/
abbrev LexiconRegistry := Table Lexicon

namespace LexiconRegistry

/-- Adds a lexicon under its id, unless the id is taken. -/
def register (r : LexiconRegistry) (l : Lexicon) : Except ConfigError LexiconRegistry :=
  if r.contains l.id then .error (.duplicateLocale l.id) else .ok (r.insert l.id l)

/-- The lexicon with that id. -/
def lookup (r : LexiconRegistry) (id : String) : Except ConfigError Lexicon :=
  match r.find? id with
  | some l => .ok l
  | none => .error (.unknownLocale id)

end LexiconRegistry

end RuleCanon
