import RuleCanon.Pattern.Basic
import RuleCanon.Pattern.Compiled

/-!
# Regular expressions

An expression is what the written form of a pattern says: it has counted repetitions, and a
repetition of something that can be empty has no special form.  `Expression.toPattern` spells
the counts out and sets the marks that keep a repetition from running on without reading.

## Main Definitions

* `Expression` — regular expressions, with `Expression.repeated` for repetition
* `Expression.toPattern` — the pattern of an expression
* `Regex` — a pattern together with the names of its groups

## Design Notes

A run that comes back to a part of the expression at the same place could have been had without
the detour, so it is worth nothing.  Only inside a repetition whose body can be empty can that
happen.  There, and only there, every part gets a mark on its way in, every repetition a mark
after each of its turns, and every group a mark on its way out.
-/

namespace RuleCanon

/-- A regular expression. -/
inductive Expression where
  /-- Nothing at all. -/
  | empty
  /-- One character of a set. -/
  | one (set : CharSet)
  /-- No character, where the condition holds. -/
  | anchor (a : Anchor)
  /-- One expression and then the other. -/
  | seq (a b : Expression)
  /-- One expression or else the other. -/
  | alt (a b : Expression)
  /-- An expression at least so many times, and at most so many times if there is a limit. -/
  | count (a : Expression) (least : Nat) (most : Option Nat) (greedy : Bool)
  /-- An expression whose stretch is recorded under a number. -/
  | group (number : Nat) (a : Expression)
deriving DecidableEq, Repr

namespace Expression

/-- Whether the expression can be run without reading a character. -/
def canBeEmpty : Expression → Bool
  | empty | anchor _ => true
  | one _ => false
  | seq a b => a.canBeEmpty && b.canBeEmpty
  | alt a b => a.canBeEmpty || b.canBeEmpty
  | count a least _ _ => least == 0 || a.canBeEmpty
  | group _ a => a.canBeEmpty

/-- Whether the expression never reads a character. -/
def isAlwaysEmpty : Expression → Bool
  | empty | anchor _ => true
  | one _ => false
  | seq a b | alt a b => a.isAlwaysEmpty && b.isAlwaysEmpty
  | count a _ _ _ => a.isAlwaysEmpty
  | group _ a => a.isAlwaysEmpty

/-- The repetition of an expression.  What never reads a character is worth no second turn; a
repetition that must not be entered is nothing, groups and all; a single turn is the expression
itself. -/
def repeated (a : Expression) (least : Nat) (most : Option Nat) (greedy : Bool) : Expression :=
  let least' := if a.isAlwaysEmpty then min least 1 else least
  let most' := if a.isAlwaysEmpty then some (min (most.getD 1) 1) else most
  if most' = some 0 then empty
  else if least' = 1 ∧ most' = some 1 then a
  else count a least' most' greedy

/-- Whether there can be more than one way to run the expression from a place. -/
def hasChoice : Expression → Bool
  | empty | one _ | anchor _ => false
  | seq a b => a.hasChoice || b.hasChoice
  | alt .. => true
  | count a least most _ => most != some least || a.hasChoice
  | group _ a => a.hasChoice

/-- Several expressions one after the other. -/
def seqs : List Expression → Expression
  | [] => empty
  | a :: rest => rest.foldl seq a

/-- The first of several expressions that can be run. -/
def alts : List Expression → Expression
  | [] => empty
  | [a] => a
  | a :: rest => alt a (alts rest)

/-- The number of groups that can be recorded: the largest number in use. -/
def groupCount : Expression → Nat
  | empty | one _ | anchor _ => 0
  | seq a b | alt a b => max a.groupCount b.groupCount
  | count a _ _ _ => a.groupCount
  | group number a => max number a.groupCount

/-- The size of the expression with all its counts spelled out. -/
def unfoldedSize : Expression → Nat
  | empty | one _ | anchor _ => 1
  | seq a b | alt a b => a.unfoldedSize + b.unfoldedSize
  | count a least most _ => (max least (most.getD least) + 1) * a.unfoldedSize
  | group _ a => a.unfoldedSize + 1

/-! ## Patterns of expressions -/

/-- Takes a mark that is not in use. -/
def freshMark : StateM Nat Nat := fun n => (n, n + 1)

/-- The pattern behind a fresh mark, if marks are called for. -/
def marking (marked : Bool) (p : Pattern) : StateM Nat Pattern := do
  if marked then
    let m ← freshMark
    return .seq (.mark m) p
  else return p

/-- At least one turn of a body. -/
def atLeastOnce (marked greedy : Bool) (body : Pattern) : StateM Nat Pattern := do
  if marked then
    let m ← freshMark
    let turn := Pattern.seq body (.mark m)
    return .seq turn (.loop greedy turn)
  else
    match body with
    | .one set => return .seq (.one set) (.many greedy set)
    | body => return .seq body (.loop greedy body)

/-- Any number of turns of a body that always reads something. -/
def anyNumber (marked greedy : Bool) (body : Pattern) : StateM Nat Pattern := do
  if marked then
    let m ← freshMark
    return .seq (.mark m) (.loop greedy (.seq body (.mark m)))
  else
    match body with
    | .one set => return .many greedy set
    | body => return .loop greedy body

/-- Either the pattern or nothing, in the order that greed asks for. -/
def optional (greedy : Bool) (p : Pattern) : Pattern :=
  if greedy then .alt p .empty else .alt .empty p

/-- The given number of copies of a pattern, one after the other. -/
def copies (make : StateM Nat Pattern) : Nat → StateM Nat Pattern
  | 0 => return .empty
  | 1 => make
  | n + 1 => do
    let before ← copies make n
    let last ← make
    return .distinct (.seq before last)

/-- One pattern after the other, where `choice` tells whether both can be run in several ways. -/
def inTurn (choice : Bool) (p q : Pattern) : Pattern :=
  if choice then .distinct (.seq p q) else .seq p q

/-- Up to the given number of copies of a pattern, each of them inside the one before it. -/
def nested (marked greedy : Bool) (make : StateM Nat Pattern) : Nat → StateM Nat Pattern
  | 0 => return .empty
  | n + 1 => do
    let first ← make
    let later ← nested marked greedy make n
    marking marked (optional greedy (.seq first later))

/-- Up to the given number of turns of a pattern.  With marks every turn needs its own. -/
def atMost (marked greedy : Bool) (turns : Nat) (make : StateM Nat Pattern) :
    StateM Nat Pattern := do
  if marked then nested marked greedy make turns
  else
    match turns with
    | 0 => return .empty
    | 1 => return optional greedy (← make)
    | turns => return .upTo greedy turns (← make)

/-- The pattern of an expression, with marks if it stands inside a repetition whose body can be
empty. -/
def build (marked : Bool) : Expression → StateM Nat Pattern
  | empty => return .empty
  | one set => return .one set
  | anchor a => marking marked (.anchor a)
  | seq a b => do
    return inTurn (a.hasChoice && b.hasChoice) (← a.build marked) (← b.build marked)
  | alt a b => do
    let p ← a.build marked
    let q ← b.build marked
    marking marked (.alt p q)
  | count a least none greedy => do
    let inner := marked || a.canBeEmpty
    match least with
    | 0 =>
      if a.canBeEmpty then
        let p ← atLeastOnce inner greedy (← a.build inner)
        marking marked (optional greedy p)
      else anyNumber marked greedy (← a.build marked)
    | least + 1 =>
      let before ← copies (a.build marked) least
      let last ← atLeastOnce inner greedy (← a.build inner)
      return if least = 0 then last else .distinct (.seq before last)
  | count a least (some most) greedy => do
    let before ← copies (a.build marked) least
    let after ← atMost marked greedy (most - least) (a.build marked)
    return inTurn a.hasChoice before after
  | group number a => do
    let p ← a.build marked
    if marked then
      let m ← freshMark
      marking marked (.group number (.seq p (.mark m)))
    else return .group number p

/-- The pattern that an expression stands for. -/
def toPattern (a : Expression) : Pattern := (a.build false 0).1

end Expression

/-- A pattern together with what its groups are called. -/
structure Regex where
  /-- The pattern. -/
  pattern : Pattern
  /-- The number of groups, not counting the match as a whole. -/
  groupCount : Nat
  /-- The names of groups. -/
  names : List (String × Nat)
deriving DecidableEq, Repr

namespace Regex

/-- The number of the group with that name. -/
def groupNamed? (r : Regex) (name : String) : Option Nat := r.names.lookup name

/-- The search for the pattern, with the names of its groups. -/
def compiled (r : Regex) : CompiledPattern := ⟨r.pattern.matcher, r.groupNamed?⟩

instance : Coe Regex CompiledPattern := ⟨compiled⟩

/-- The stretches of all groups of a match, the match as a whole first. -/
def groupsOf (r : Regex) (c : Captures) : List (Option Span) :=
  (List.range (r.groupCount + 1)).map c.group?

end Regex

end RuleCanon
