import RuleCanon.CommandLine.Help
import RuleCanon.CommandLine.Outcome
import RuleCanon.File.Dialogue
import RuleCanon.File.Disk
import RuleCanon.Pipeline.Locale
import RuleCanon.Rule.File

/-!
# Running commands

Each command is a dialogue with the file system that ends in the text to be printed or in a
failure.  All that a command reads it reads before it writes, so a run that fails leaves the
files as they were.  What the patterns of a rules file mean is up to a compiler for them.

## Main Definitions

* `Command.run` — what a command does
* `respond` — what the program does with its arguments
* `respondOn` — the same on a disk, with the compiler that reads patterns by `Regex.read?`
-/

namespace RuleCanon

/-- A dialogue that may fail. -/
abbrev Attempt (α : Type) := ExceptT Failure Dialogue α

namespace Attempt

/-- What goes wrong when the configuration is at fault. -/
def ofConfig {α : Type} (r : Except ConfigError α) : Attempt α :=
  ExceptT.mk (.done (r.mapError .config))

/-- The text of a file that belongs to the configuration. -/
def readResource (path : String) : Attempt (List Char) :=
  ExceptT.mk (.readFile path fun answer =>
    .done (answer.mapError fun fault => .config (.unreadable path fault)))

/-- The text to work on: that of a file, or that of the standard input. -/
def readSource : Option String → Attempt (List Char)
  | some path =>
    ExceptT.mk (.readFile path fun answer => .done (answer.mapError (.unreadable path)))
  | none => ExceptT.mk (.readInput fun answer => .done (answer.mapError .unreadableInput))

/-- Writes the result to a file. -/
def writeResult (path : String) (content : List Char) : Attempt Unit :=
  ExceptT.mk (.writeFile path content fun answer => .done (answer.mapError (.unwritable path)))

end Attempt

open Attempt

/-- The lexicon in a file. -/
def loadLexicon (path : String) : Attempt Lexicon := do
  let text ← readResource path
  ofConfig (Lexicon.read path text)

/-- The built-in locales, and a lexicon from a file if its path is given. -/
def loadLocales : Option String → Attempt LocaleSet
  | none => return .builtin
  | some path => do
    let lexicon ← loadLexicon path
    let (set, outcome) := LocaleSet.builtin.registerLexicon lexicon
    let _ ← ofConfig outcome
    return set

/-- The stages of a rules file, if its path is given. -/
def loadRules (compiler : PatternCompiler) : Option String → Attempt (List Stage)
  | none => return []
  | some path => do
    let text ← readResource path
    let rules ← ofConfig (RulesFile.read path text)
    ofConfig (RulesFile.compile rules compiler)

/-- The locale that is meant when none is named. -/
def defaultLocale : String := "zh-CN"

/-- The pipeline of a locale with the rules of a file. -/
def loadPipeline (compiler : PatternCompiler) (choice : LocaleChoice) (rules : Option String)
    (config : Config) : Attempt Pipeline := do
  let set ← loadLocales choice.lexicon
  let locale := choice.locale.getD defaultLocale
  let _ ← ofConfig (set.lexicons.lookup locale)
  let stages ← loadRules compiler rules
  ofConfig (set.build locale config none stages)

/-- Puts blanks in front of a text up to a width. -/
def alignRight (width : Nat) (text : List Char) : List Char :=
  List.replicate (width - text.length) ' ' ++ text

/-- Puts blanks behind a text up to a width. -/
def alignLeft (width : Nat) (text : List Char) : List Char :=
  text ++ List.replicate (width - text.length) ' '

/-- The digits of a number. -/
def digits (n : Nat) : List Char := Nat.toDigits 10 n

/-- The report of a trace: each step under its name. -/
def showTrace (trace : List TraceEntry) : List Char :=
  trace.flatMap fun e => s!"== {e.step} ==\n".toList ++ e.output ++ ['\n']

/-- The list of lexicons, one a line. -/
def showLexicons (r : LexiconRegistry) : List Char :=
  r.values.flatMap fun l => s!"{l.id}\t{l.direction.name}\t{l.name}\n".toList

/-- The list of stages, one a line, numbered from `n` on. -/
def showStages (n : Nat) : List String → List Char
  | [] => []
  | name :: rest => alignRight 2 (digits n) ++ s!". {name}\n".toList ++ showStages (n + 1) rest

/-- What a segment is. -/
def segmentLabel : Segment → String
  | .code _ => "code"
  | .literal _ _ true => "literal"
  | .literal _ _ false => "literal (unterminated)"

/-- The list of the segments of a text, one a line, with byte counts as positions. -/
def showSegments (s : Segmenter) (text : List Char) : List Char :=
  (layout 0 (s.segments text)).flatMap fun (span, segment) =>
    alignRight 6 (digits (byteOffset text span.start)) ++ ['.', '.'] ++
      alignLeft 6 (digits (byteOffset text span.stop)) ++ [' '] ++
      alignLeft 22 (segmentLabel segment).toList ++ [' '] ++
      quoteText segment.text ++ ['\n']

/-- Canonicalizes a text. -/
def runCanon (compiler : PatternCompiler) (o : CanonOptions) : Attempt (List Char) := do
  let p ← loadPipeline compiler o.choice o.rules o.config
  let source ← readSource o.file
  if o.trace then return showTrace (p.trace source)
  else
    match o.output with
    | none => return p.canonicalize source
    | some path => do
      writeResult path (p.canonicalize source)
      return []

/-- Shows the segments of a text. -/
def runSegments (path : String) (locale : Option String) : Attempt (List Char) := do
  let l ← ofConfig (LocaleSet.builtin.lexicons.lookup (locale.getD defaultLocale))
  let source ← readSource (some path)
  return showSegments l.segmenter source

/-- What a command does.  The result is the text to be printed. -/
def Command.run (compiler : PatternCompiler) : Command → Attempt (List Char)
  | .canon o => runCanon compiler o
  | .locales lexicon => do
    let set ← loadLocales lexicon
    return showLexicons set.lexicons
  | .stages choice rules => do
    let p ← loadPipeline compiler choice rules {}
    return showStages 1 p.stageNames
  | .checkLexicon file => do
    let l ← loadLexicon file
    return s!"{file}: lexicon `{l.id}` ({l.name}) is valid, {l.stages.length} stage(s)\n".toList
  | .exportLexicon id => do
    let l ← ofConfig (LocaleSet.builtin.lexicons.lookup id)
    return l.write ++ ['\n']

/-- What the program does when it has read its arguments. -/
def Invocation.run (compiler : PatternCompiler) (i : Invocation) : Attempt (List Char) :=
  match i.segments, i.command with
  | some path, _ => runSegments path i.segmentsLocale
  | none, some command => command.run compiler
  | none, none => ExceptT.mk (.done (.error .noCommand))

/-- What the program does with its arguments. -/
def respond (compiler : PatternCompiler) (args : List String) : Dialogue Outcome :=
  match Invocation.read args with
  | .ok i => do return .ofResult (← (i.run compiler).run)
  | .error (.help command) => .done { stdout := helpText command }
  | .error .version => .done { stdout := versionText }
  | .error (.misuse fault) => .done { failure := some (.misuse fault) }

/-- The outcome of the program on a disk, and the disk after it. -/
def respondOn (disk : Disk) (input : Except FileFault (List Char)) (args : List String) :
    Outcome × Disk :=
  (respond Regex.compiler args).hold input disk

end RuleCanon
