import RuleCanon.Pattern.Compiled

/-!
# Replacement templates

A template is text with references to the groups of a match: `$1`, `$name` and the same in
braces.  A name without braces reaches as far as ASCII letters, digits and low lines do.  A
doubled dollar sign stands for itself, and so does one that starts no reference.

## Main Definitions

* `Template` — a template as a list of parts
* `Template.read` — the template of a text
* `Template.expand` — the text of a template for a match
-/

namespace RuleCanon

/-- A part of a template. -/
inductive TemplatePart where
  /-- A character that stands for itself. -/
  | char (c : Char)
  /-- The text of the group with that number. -/
  | number (n : Nat)
  /-- The text of the group with that name. -/
  | name (chars : List Char)
deriving DecidableEq, Repr

/-- A replacement text with references to groups. -/
abbrev Template := List TemplatePart

namespace Template

/-- Characters that a reference without braces is made of. -/
def isReferenceChar (c : Char) : Bool := c.isAlphanum || c == '_'

/-- The value of a string of ASCII digits. -/
def digitsValue (chars : List Char) : Nat :=
  chars.foldl (fun n c => 10 * n + (c.toNat - '0'.toNat)) 0

/-- What a reference refers to: digits, which may have a plus sign before them, are the number
of a group, anything else is a name. -/
def reference (chars : List Char) : TemplatePart :=
  let digits := match chars with
    | '+' :: rest => rest
    | _ => chars
  if digits ≠ [] ∧ digits.all Char.isDigit then .number (digitsValue digits) else .name chars

/-- Reads the text after a dollar sign: what it refers to, and how many characters that takes.
There is no answer if the dollar sign starts no reference. -/
def readReference? (chars : List Char) : Option (TemplatePart × Nat) :=
  match chars with
  | '{' :: rest =>
    let inside := rest.takeWhile (· != '}')
    if inside.length < rest.length then some (reference inside, inside.length + 2) else none
  | _ =>
    let inside := chars.takeWhile isReferenceChar
    if inside = [] then none else some (reference inside, inside.length)

/-- Reads a template, leaving out the given number of characters first. -/
def readAfter : Nat → List Char → Template
  | _, [] => []
  | skipped + 1, _ :: rest => readAfter skipped rest
  | 0, '$' :: '$' :: rest => .char '$' :: readAfter 0 rest
  | 0, '$' :: rest =>
    match readReference? rest with
    | some (part, length) => part :: readAfter length rest
    | none => .char '$' :: readAfter 0 rest
  | 0, c :: rest => .char c :: readAfter 0 rest

/-- Reads a template. -/
def read (text : List Char) : Template := readAfter 0 text

/-- The text that the template stands for; a group that took no part in the match stands for
nothing, and so does one that does not exist. -/
def expand (t : Template) (p : CompiledPattern) (text : List Char) (c : Captures) :
    List Char :=
  t.flatMap fun
    | .char a => [a]
    | .number n => c.textOf text n
    | .name chars =>
      match p.groupNamed? (String.ofList chars) with
      | some n => c.textOf text n
      | none => []

end Template

end RuleCanon
