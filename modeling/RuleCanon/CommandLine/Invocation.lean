import RuleCanon.CommandLine.Grammar
import RuleCanon.Pipeline.Config

/-!
# Invocations

What the program is asked to do, and the arguments that ask for it.

## Main Definitions

* `Command`, `Invocation` — what is asked for
* `Invocation.read` — reads it from the arguments
-/

namespace RuleCanon

/-- Which locale a command works with. -/
structure LocaleChoice where
  /-- The id of the locale. -/
  locale : Option String := none
  /-- The path of a lexicon to be registered. -/
  lexicon : Option String := none
deriving DecidableEq, Repr

/-- The options of the command that canonicalizes a text. -/
structure CanonOptions where
  /-- The path of the text; without one it comes from the standard input. -/
  file : Option String := none
  /-- The locale. -/
  choice : LocaleChoice := {}
  /-- The path of a rules file. -/
  rules : Option String := none
  /-- The names of stages that are left out. -/
  skip : List String := []
  /-- Whether literals keep their quotes. -/
  keepQuotes : Bool := false
  /-- Whether the text is shown after each step. -/
  trace : Bool := false
  /-- The path that the result is written to; without one it goes to the standard output. -/
  output : Option String := none
deriving DecidableEq, Repr

/-- The options that a pipeline gets. -/
def CanonOptions.config (o : CanonOptions) : Config :=
  o.skip.foldl Config.disable { normalizeQuotes := !o.keepQuotes }

/-- What the program can do. -/
inductive Command where
  /-- Canonicalizes a text. -/
  | canon (options : CanonOptions)
  /-- Lists the lexicons, with one to be registered. -/
  | locales (lexicon : Option String)
  /-- Lists the stages of a pipeline. -/
  | stages (choice : LocaleChoice) (rules : Option String)
  /-- Checks a lexicon. -/
  | checkLexicon (file : String)
  /-- Shows a lexicon in its written form. -/
  | exportLexicon (id : String)
deriving DecidableEq, Repr

/-- What the program is asked to do. -/
structure Invocation where
  /-- The command. -/
  command : Option Command := none
  /-- The path of a text whose segments are shown, instead of anything else. -/
  segments : Option String := none
  /-- The locale whose delimiters are used for that. -/
  segmentsLocale : Option String := none
deriving DecidableEq, Repr

namespace Invocation

/-- The option that asks for help. -/
def helpOption {α : Type} (command : Option String) : OptionRule α :=
  { name := "help", letter := some 'h', action := .ending (.help command) }

/-- The options that choose a locale. -/
def localeOptions {α : Type} (change : (LocaleChoice → LocaleChoice) → α → α) :
    List (OptionRule α) :=
  [{ name := "locale", letter := some 'l',
     action := .word false fun id => change fun c => { c with locale := some id } },
   { name := "lexicon",
     action := .word true fun path => change fun c => { c with lexicon := some path } }]

/-- The arguments of the command that canonicalizes a text. -/
def canonGrammar : Grammar CanonOptions where
  options := localeOptions (fun f o => { o with choice := f o.choice }) ++
    [{ name := "rules", action := .word true fun path o => { o with rules := some path } },
     { name := "skip", action := .words fun stage o => { o with skip := o.skip ++ [stage] } },
     { name := "keep-quotes", action := .flag fun o => { o with keepQuotes := true } },
     { name := "trace", action := .flag fun o => { o with trace := true } },
     { name := "output", letter := some 'o',
       action := .word true fun path o => { o with output := some path } },
     helpOption (some "canon")]
  operand := some ⟨"FILE", true, fun path o => { o with file := some path }⟩

/-- Reads what follows `canon`.  A trace cannot be written to a file. -/
def readCanon (args : List String) : Except Ending Command := do
  let o ← canonGrammar.read {} args
  if o.trace && o.output.isSome then .error (.misuse (.conflict "trace" "output"))
  else return .canon o

/-- Reads what follows `locales`. -/
def readLocales (args : List String) : Except Ending Command := do
  let g : Grammar (Option String) :=
    { options :=
        [{ name := "lexicon", action := .word true fun path _ => some path },
         helpOption (some "locales")] }
  return .locales (← g.read none args)

/-- Reads what follows `stages`. -/
def readStages (args : List String) : Except Ending Command := do
  let g : Grammar (LocaleChoice × Option String) :=
    { options := localeOptions (fun f o => (f o.1, o.2)) ++
        [{ name := "rules", action := .word true fun path o => (o.1, some path) },
         helpOption (some "stages")] }
  let (choice, rules) ← g.read ({}, none) args
  return .stages choice rules

/-- Reads the one operand of a command that has to be there. -/
def readOne (command name : String) (isPath : Bool) (args : List String) :
    Except Ending String := do
  let g : Grammar (Option String) :=
    { options := [helpOption (some command)]
      operand := some ⟨name, isPath, fun word _ => some word⟩ }
  match ← g.read none args with
  | some word => return word
  | none => .error (.misuse (.missingArgument name))

/-- The commands by name. -/
def commands : List (String × (List String → Except Ending Command)) :=
  [("canon", readCanon),
   ("locales", readLocales),
   ("stages", readStages),
   ("check-lexicon", fun args => return .checkLexicon (← readOne "check-lexicon" "FILE" true args)),
   ("export-lexicon",
    fun args => return .exportLexicon (← readOne "export-lexicon" "ID" false args))]

/-- Why reading ends at `help`, which is followed by at most one name. -/
def readHelp : List String → Ending
  | [] => .help none
  | name :: rest =>
    if (commands.lookup name).isNone && name != "help" then .misuse (.unknownCommand name)
    else
      match rest with
      | [] => .help (some name)
      | word :: _ => .misuse (.unknownCommand word)

/-- The arguments of the program. -/
def grammar : Grammar Invocation where
  options :=
    [{ name := "segments", action := .word true fun path i => { i with segments := some path } },
     { name := "locale",
       action := .word false fun id i => { i with segmentsLocale := some id } },
     helpOption none,
     { name := "version", letter := some 'V', action := .ending .version }]
  commands := ("help", fun args => .error (readHelp args)) ::
    commands.map fun (name, read) =>
      (name, fun args => (read args).map fun command i => { i with command := some command })

/-- Reads the arguments of the program.  The locale outside of a command is that of the segments
and of nothing else. -/
def read (args : List String) : Except Ending Invocation := do
  let i ← grammar.read {} args
  if i.segmentsLocale.isSome && i.segments.isNone then
    .error (.misuse (.missingArgument "segments"))
  else return i

end Invocation

end RuleCanon
