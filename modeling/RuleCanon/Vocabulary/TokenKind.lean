/-!
# Canonical keywords

The keywords of canonical text.  Each kind of keyword has one canonical spelling; a lexicon says
how it is spelled in another language, under the key of the kind.

## Main Definitions

* `TokenKind` — the kinds, in the order that decides between kinds with a common spelling
* `TokenKind.key`, `TokenKind.canonical` — the key and the canonical spelling of a kind
* `TokenKind.ofKey?`, `TokenKind.ofCanonical?` — look-up by either of them
-/

namespace RuleCanon

/-- A kind of keyword. -/
inductive TokenKind where
  /-- Opens a module. -/
  | moduleDecl
  /-- Uses another module. -/
  | importDecl
  /-- Names what is used. -/
  | asName
  /-- Opens a rule. -/
  | ruleDef
  /-- Introduces the parameters of a rule. -/
  | given
  /-- Introduces the result of a rule. -/
  | produce
  /-- Opens the definition of a type. -/
  | typeDef
  /-- Introduces the fields of a type. -/
  | withFields
  /-- Opens a condition. -/
  | ifBranch
  /-- Opens the other branch of a condition. -/
  | otherwise
  /-- Opens a distinction of cases. -/
  | matchCases
  /-- Opens a case. -/
  | whenCase
  /-- Gives back a result. -/
  | returnValue
  /-- Opens a binding. -/
  | letName
  /-- Introduces what is bound. -/
  | beValue
  /-- Opens an iteration. -/
  | forEach
  /-- Introduces what is iterated over. -/
  | inList
  /-- The truth value true. -/
  | trueValue
  /-- The truth value false. -/
  | falseValue
  /-- The absent value. -/
  | nullValue
  /-- Conjunction. -/
  | andOp
  /-- Disjunction. -/
  | orOp
  /-- Negation. -/
  | notOp
  /-- Starts a workflow step. -/
  | start
  /-- Waits for a workflow step. -/
  | waitFor
deriving DecidableEq, Repr

/-- What keywords are for. -/
inductive KeywordCategory where
  /-- Parts of declarations. -/
  | declaration
  /-- Control of the flow. -/
  | controlFlow
  /-- Bindings and iteration. -/
  | binding
  /-- Values that are words. -/
  | literal
  /-- Operators that are words. -/
  | operator
  /-- Steps of a workflow. -/
  | workflow
deriving DecidableEq, Repr

/-- How settled a part of the vocabulary is. -/
inductive Stability where
  /-- It will not change. -/
  | stable
  /-- It may change. -/
  | draft
  /-- It will go. -/
  | deprecated
deriving DecidableEq, Repr

/-- A version of the canonical language. -/
structure Version where
  /-- The number before the point. -/
  major : Nat
  /-- The number after the point. -/
  minor : Nat
deriving DecidableEq, Repr

instance : ToString Version where
  toString v := s!"{v.major}.{v.minor}"

namespace TokenKind

/-- All kinds, in order. -/
def all : List TokenKind :=
  [moduleDecl, importDecl, asName, ruleDef, given, produce, typeDef, withFields, ifBranch,
    otherwise, matchCases, whenCase, returnValue, letName, beValue, forEach, inList, trueValue,
    falseValue, nullValue, andOp, orOp, notOp, start, waitFor]

theorem mem_all (k : TokenKind) : k ∈ all := by cases k <;> decide

/-- The place of a kind in the order. -/
def index (k : TokenKind) : Nat := all.idxOf k

/-- The key under which lexicons list the spellings of a kind. -/
def key : TokenKind → String
  | moduleDecl => "MODULE_DECL"
  | importDecl => "IMPORT"
  | asName => "AS"
  | ruleDef => "RULE_DEF"
  | given => "GIVEN"
  | produce => "PRODUCE"
  | typeDef => "TYPE_DEF"
  | withFields => "WITH"
  | ifBranch => "IF"
  | otherwise => "OTHERWISE"
  | matchCases => "MATCH"
  | whenCase => "WHEN"
  | returnValue => "RETURN"
  | letName => "LET"
  | beValue => "BE"
  | forEach => "FOR_EACH"
  | inList => "IN"
  | trueValue => "TRUE"
  | falseValue => "FALSE"
  | nullValue => "NULL"
  | andOp => "AND"
  | orOp => "OR"
  | notOp => "NOT"
  | start => "START"
  | waitFor => "WAIT_FOR"

/-- The spelling of a kind in canonical text. -/
def canonical : TokenKind → String
  | moduleDecl => "Module"
  | importDecl => "Use"
  | asName => "as"
  | ruleDef => "Rule"
  | given => "given"
  | produce => "produce"
  | typeDef => "Define"
  | withFields => "with"
  | ifBranch => "If"
  | otherwise => "Otherwise"
  | matchCases => "Match"
  | whenCase => "When"
  | returnValue => "Return"
  | letName => "Let"
  | beValue => "be"
  | forEach => "For each"
  | inList => "in"
  | trueValue => "true"
  | falseValue => "false"
  | nullValue => "null"
  | andOp => "and"
  | orOp => "or"
  | notOp => "not"
  | start => "Start"
  | waitFor => "Wait for"

/-- What a kind is for. -/
def category : TokenKind → KeywordCategory
  | moduleDecl | importDecl | asName | ruleDef | given | produce | typeDef | withFields =>
    .declaration
  | ifBranch | otherwise | matchCases | whenCase | returnValue => .controlFlow
  | letName | beValue | forEach | inList => .binding
  | trueValue | falseValue | nullValue => .literal
  | andOp | orOp | notOp => .operator
  | start | waitFor => .workflow

/-- The version of the canonical language that brought a kind. -/
def since (_ : TokenKind) : Version := ⟨0, 1⟩

/-- How settled a kind is. -/
def stability (_ : TokenKind) : Stability := .stable

/-- The kind with that key. -/
def ofKey? (key : String) : Option TokenKind := all.find? (·.key == key)

/-- The kind with that canonical spelling. -/
def ofCanonical? (spelling : String) : Option TokenKind := all.find? (·.canonical == spelling)

theorem ofKey?_key (k : TokenKind) : ofKey? k.key = some k := by cases k <;> decide

theorem ofCanonical?_canonical (k : TokenKind) : ofCanonical? k.canonical = some k := by
  cases k <;> decide

end TokenKind

end RuleCanon
