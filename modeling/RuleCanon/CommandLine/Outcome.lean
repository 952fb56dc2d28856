import RuleCanon.CommandLine.Grammar
import RuleCanon.ConfigError
import RuleCanon.Text.Wrap

/-!
# Outcomes of a run

A run of the program prints a text or fails.  A failure is reported on the standard error, in
the form of a diagnostic if the configuration is at fault.

## Main Definitions

* `Failure` — why the program fails
* `Outcome` — what a run leaves behind, with `Outcome.exitCode` and `Outcome.stderr`
* `diagnostic` — the report of an error in the configuration
-/

namespace RuleCanon

/-- The wording of a misuse. -/
def Misuse.message : Misuse → String
  | unknownArgument word => s!"error: unexpected argument '{word}' found"
  | unknownCommand word => s!"error: unrecognized subcommand '{word}'"
  | repeated name => s!"error: the option '{name}' cannot be used multiple times"
  | conflict name other => s!"error: the option '{name}' cannot be used with '{other}'"
  | missingWord name => s!"error: a value is required for '{name}' but none was supplied"
  | emptyWord name => s!"error: a value is required for '{name}' but none was supplied"
  | unexpectedWord name word => s!"error: unexpected value '{word}' for '{name}' found"
  | missingArgument name => s!"error: the argument '{name}' was not provided"

/-- The margins of a paragraph on a terminal of usual width. -/
def diagnosticMargins (first rest : String) : Margins :=
  ⟨78, first.toList, rest.toList⟩

/-- The report of an error in the configuration: its code, what went wrong, what lies behind it
and what to do about it. -/
def diagnostic (e : ConfigError) : List Char :=
  let paragraph (first rest text : String) : List Char :=
    ((diagnosticMargins first rest).wrap text.toList).flatMap (· ++ ['\n'])
  e.code.toList ++ ['\n', '\n'] ++ paragraph "  × " "  │ " e.message ++
    (e.cause.map (paragraph "  ╰─▶ " "      ")).getD [] ++
    (e.help.map (paragraph "  help: " "        ")).getD []

/-- Why the program fails. -/
inductive Failure where
  /-- The arguments make no sense. -/
  | misuse (fault : Misuse)
  /-- There is nothing to be done. -/
  | noCommand
  /-- The configuration is at fault. -/
  | config (e : ConfigError)
  /-- The text cannot be read from its file. -/
  | unreadable (path : String) (fault : FileFault)
  /-- The text cannot be read from the standard input. -/
  | unreadableInput (fault : FileFault)
  /-- The result cannot be written. -/
  | unwritable (path : String) (fault : FileFault)
deriving DecidableEq, Repr

namespace Failure

/-- What is reported. -/
def message : Failure → List Char
  | misuse fault => fault.message.toList
  | noCommand => "Error: no command given (try `aster --help`)".toList
  | config e => diagnostic e
  | unreadable path fault =>
    if fault.isReached then s!"Error reading file '{path}': {fault.message}".toList
    else s!"Cannot access file '{path}': {fault.message}".toList
  | unreadableInput fault => s!"Error reading stdin: {fault.message}".toList
  | unwritable path fault => s!"Error writing '{path}': {fault.message}".toList

/-- The exit code: arguments that make no sense have one of their own. -/
def exitCode : Failure → Nat
  | misuse _ => 2
  | _ => 1

end Failure

/-- What a run of the program prints. -/
structure Outcome where
  /-- The text on the standard output. -/
  stdout : List Char := []
  /-- Why the run failed, if it did. -/
  failure : Option Failure := none
deriving DecidableEq, Repr

namespace Outcome

/-- The outcome of a computation that gives the text on the standard output. -/
def ofResult : Except Failure (List Char) → Outcome
  | .ok stdout => { stdout }
  | .error failure => { failure := some failure }

/-- The exit code of the run. -/
def exitCode (o : Outcome) : Nat := (o.failure.map Failure.exitCode).getD 0

/-- The text on the standard error. -/
def stderr (o : Outcome) : List Char := (o.failure.map (·.message ++ ['\n'])).getD []

end Outcome

end RuleCanon
