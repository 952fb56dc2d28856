import RuleCanon.CommandLine.Invocation

/-!
# Help

## Main Definitions

* `helpText` — the help of the program or of one of its commands
* `versionText` — the line that tells the version
-/

namespace RuleCanon

/-- The line that tells the version. -/
def versionText : List Char := "aster 0.1.0-alpha.1\n".toList

/-- How each command is used. -/
def usageLines : List (String × String) :=
  [("canon", "canon [FILE] [-l ID] [--lexicon FILE] [--rules FILE] [--skip STAGE]... " ++
      "[--keep-quotes] [--trace | -o OUT]"),
   ("locales", "locales [--lexicon FILE]"),
   ("stages", "stages [-l ID] [--lexicon FILE] [--rules FILE]"),
   ("check-lexicon", "check-lexicon FILE"),
   ("export-lexicon", "export-lexicon ID"),
   ("help", "help [COMMAND]")]

/-- The help of the program, or of one of its commands. -/
def helpText : Option String → List Char
  | some command =>
    let usage := (usageLines.lookup command).getD command
    s!"Usage: aster {usage}\n".toList
  | none =>
    "Usage: aster [--segments FILE [--locale ID]] [COMMAND]\n\nCommands:\n".toList ++
      usageLines.flatMap fun (_, usage) => s!"  {usage}\n".toList

end RuleCanon
