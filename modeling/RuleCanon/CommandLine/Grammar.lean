/-!
# Grammars of arguments

A grammar says which options, operands and commands a program or one of its commands takes, and
what each of them changes in the value that is being put together.

## Main Definitions

* `Misuse` — what can be wrong with arguments
* `Ending` — why reading arguments ends without a value
* `Grammar` — the options, the operand and the commands
* `Grammar.read` — reads arguments from left to right

## Design Notes

The words that go to an option or an operand are held back until the next argument that is
understood, and only then looked at.  So of two faults the one further to the right may be
reported: an option that nobody knows is found before an empty word in front of it.
-/

namespace RuleCanon

/-- What is wrong with arguments. -/
inductive Misuse where
  /-- The argument is none of those that may stand there. -/
  | unknownArgument (word : String)
  /-- No command has the name. -/
  | unknownCommand (word : String)
  /-- The option is given again but may stand only once. -/
  | repeated (name : String)
  /-- The two options exclude one another. -/
  | conflict (name other : String)
  /-- The option needs a word after it. -/
  | missingWord (name : String)
  /-- The option or operand does not take the empty word. -/
  | emptyWord (name : String)
  /-- The option takes no word. -/
  | unexpectedWord (name word : String)
  /-- The argument has to be there. -/
  | missingArgument (name : String)
deriving DecidableEq, Repr

/-- Why reading arguments ends without a value. -/
inductive Ending where
  /-- The help of the program, or of one of its commands, is asked for. -/
  | help (command : Option String)
  /-- The version is asked for. -/
  | version
  /-- The arguments make no sense. -/
  | misuse (fault : Misuse)
deriving DecidableEq, Repr

/-- What an option does. -/
inductive OptionAction (α : Type) where
  /-- Stands alone. -/
  | flag (apply : α → α)
  /-- Takes the word after it, which must not be empty if it is a `path`. -/
  | word (path : Bool) (apply : String → α → α)
  /-- Takes the word after it and may be given again. -/
  | words (apply : String → α → α)
  /-- Ends the reading. -/
  | ending (e : Ending)

/-- An option, such as `-o` and `--output`. -/
structure OptionRule (α : Type) where
  /-- The name that follows two hyphens. -/
  name : String
  /-- The letter that follows one hyphen. -/
  letter : Option Char := none
  /-- What the option does. -/
  action : OptionAction α

/-- An argument without a name. -/
structure Operand (α : Type) where
  /-- What the argument is called in messages. -/
  name : String
  /-- Whether the argument is a path, which must not be empty. -/
  isPath : Bool
  /-- What the argument does. -/
  apply : String → α → α

/-- What may stand among the arguments. -/
structure Grammar (α : Type) where
  /-- The options. -/
  options : List (OptionRule α)
  /-- The argument without a name, which may stand once. -/
  operand : Option (Operand α) := none
  /-- The commands: each reads all that follows its name. -/
  commands : List (String × (List String → Except Ending (α → α))) := []

namespace Grammar

variable {α : Type}

/-- Words that have been taken but not looked at. -/
inductive Held (α : Type) where
  /-- Nothing. -/
  | nothing
  /-- An option that takes the next word. -/
  | option (o : OptionRule α)
  /-- An option and its word. -/
  | optionWord (o : OptionRule α) (word : String)
  /-- The operand. -/
  | operand (o : Operand α) (word : String)

/-- How far the reading has come. -/
structure State (α : Type) where
  /-- The value so far. -/
  value : α
  /-- The names of the options that have been given. -/
  given : List String := []
  /-- The words that have not been looked at. -/
  held : Held α := .nothing
  /-- Whether the operand has been given. -/
  hasOperand : Bool := false
  /-- Whether the `--` has been passed, after which nothing is an option. -/
  onlyOperands : Bool := false

/-- Marks an option as given, which must not have been given unless it may come again. -/
def State.mark (s : State α) (o : OptionRule α) (again : Bool) : Except Ending (State α) :=
  if !again && s.given.contains o.name then .error (.misuse (.repeated o.name))
  else .ok { s with given := o.name :: s.given }

/-- Applies an option with its word, if it takes one. -/
def State.apply (s : State α) (o : OptionRule α) (word : String) : Except Ending (State α) :=
  match o.action with
  | .flag f => do
    let s ← s.mark o false
    return { s with value := f s.value }
  | .word path f => do
    let s ← s.mark o false
    if path && word.isEmpty then .error (.misuse (.emptyWord o.name))
    else return { s with value := f word s.value }
  | .words f => do
    let s ← s.mark o true
    return { s with value := f word s.value }
  | .ending e => .error e

/-- Looks at the words that have been held back. -/
def State.release (s : State α) : Except Ending (State α) :=
  match s.held with
  | .nothing => .ok s
  | .option o => .error (.misuse (.missingWord o.name))
  | .optionWord o word => { s with held := .nothing }.apply o word
  | .operand o word =>
    if o.isPath && word.isEmpty then .error (.misuse (.emptyWord o.name))
    else .ok { s with held := .nothing, value := o.apply word s.value }

/-- Whether the option takes a word. -/
def takesWord (o : OptionRule α) : Bool :=
  match o.action with
  | .word .. | .words _ => true
  | _ => false

/-- Takes an option, with the word attached to it if there is one. -/
def takeOption (s : State α) (o : OptionRule α) (attached : Option (List Char)) :
    Except Ending (State α) := do
  match attached with
  | some word => (← s.release).apply o (String.ofList word)
  | none =>
    let s ← s.release
    if takesWord o then return { s with held := .option o } else s.apply o ""

/-- Takes an option by its name. -/
def readName (g : Grammar α) (s : State α) (text : List Char) : Except Ending (State α) :=
  let name := String.ofList (text.takeWhile (· != '='))
  let attached := (text.dropWhile (· != '=')).tail?
  match g.options.find? (·.name == name) with
  | none => .error (.misuse (.unknownArgument ("--" ++ name)))
  | some o =>
    match takesWord o, attached with
    | false, some word => .error (.misuse (.unexpectedWord name (String.ofList word)))
    | _, attached => takeOption s o attached

/-- Takes options by their letters.  The first one that takes a word takes all that follows. -/
def readLetters (g : Grammar α) (s : State α) : List Char → Except Ending (State α)
  | [] => .ok s
  | c :: rest =>
    match g.options.find? (·.letter == some c) with
    | none => .error (.misuse (.unknownArgument (String.ofList ['-', c])))
    | some o =>
      if takesWord o then
        match rest with
        | [] => takeOption s o none
        | '=' :: word => takeOption s o (some word)
        | word => takeOption s o (some word)
      else do g.readLetters (← takeOption s o none) rest

/-- Takes an argument without a name. -/
def readOperand (g : Grammar α) (s : State α) (word : String) : Except Ending (State α) := do
  match g.operand, s.hasOperand with
  | some o, false =>
    let s ← s.release
    return { s with held := .operand o word, hasOperand := true }
  | _, _ =>
    if g.commands.isEmpty || (s.onlyOperands && (g.commands.lookup word).isSome) then
      .error (.misuse (.unknownArgument word))
    else .error (.misuse (.unknownCommand word))

/-- The command of that name, unless the word belongs to an option. -/
def command? (g : Grammar α) (s : State α) (word : String) :
    Option (List String → Except Ending (α → α)) :=
  match s.held with
  | .option _ => none
  | _ => g.commands.lookup word

/-- Reads arguments from a state on. -/
def readFrom (g : Grammar α) (s : State α) : List String → Except Ending α
  | [] => do return (← s.release).value
  | word :: rest =>
    if s.onlyOperands then do g.readFrom (← g.readOperand s word) rest
    else
      match g.command? s word with
      | some command => do
        let f ← command rest
        return f (← s.release).value
      | none =>
        match word.toList, s.held with
        | ['-', '-'], _ => g.readFrom { s with onlyOperands := true } rest
        | '-' :: '-' :: text, _ => do g.readFrom (← g.readName s text) rest
        | '-' :: c :: text, _ => do g.readFrom (← g.readLetters s (c :: text)) rest
        | _, .option o => g.readFrom { s with held := .optionWord o word } rest
        | _, _ => do g.readFrom (← g.readOperand s word) rest

/-- Reads arguments, which change the value `start`. -/
def read (g : Grammar α) (start : α) (args : List String) : Except Ending α :=
  g.readFrom { value := start } args

end Grammar

end RuleCanon
