import RuleCanon.File.System

/-!
# Dialogues with the file system

What a command does with files is a dialogue: it asks for a text or hands one over, and goes on
with the answer.  As a dialogue is data, it can be held with the real files or with any file
system, and statements about the latter need no machine.

## Main Definitions

* `Dialogue` — questions to a file system, and what follows from the answers
* `Dialogue.hold` — the result of a dialogue with a file system, and the files after it
-/

namespace RuleCanon

/-- A computation that may read and write files and read the standard input. -/
inductive Dialogue (α : Type) where
  /-- The dialogue is over. -/
  | done (result : α)
  /-- Asks for the text of a file. -/
  | readFile (path : String) (next : Except FileFault (List Char) → Dialogue α)
  /-- Asks for the text of the standard input. -/
  | readInput (next : Except FileFault (List Char) → Dialogue α)
  /-- Hands over a text for a file, whose old content is lost. -/
  | writeFile (path : String) (content : List Char) (next : Except FileFault Unit → Dialogue α)

namespace Dialogue

variable {α β : Type}

/-- Goes on with the result of a dialogue. -/
def bind (d : Dialogue α) (f : α → Dialogue β) : Dialogue β :=
  match d with
  | done a => f a
  | readFile path next => readFile path fun answer => (next answer).bind f
  | readInput next => readInput fun answer => (next answer).bind f
  | writeFile path content next => writeFile path content fun answer => (next answer).bind f

instance : Monad Dialogue where
  pure := done
  bind := bind

variable {σ : Type} [FileSystem σ]

/-- The result of a dialogue with a file system and a standard input, and the files after it. -/
def hold (input : Except FileFault (List Char)) : Dialogue α → σ → α × σ
  | done a, files => (a, files)
  | readFile path next, files => (next (FileSystem.read files path)).hold input files
  | readInput next, files => (next input).hold input files
  | writeFile path content next, files =>
    match FileSystem.write files path content with
    | .ok files => (next (.ok ())).hold input files
    | .error fault => (next (.error fault)).hold input files

/-- A dialogue that goes on is held part by part. -/
theorem hold_bind (input : Except FileFault (List Char)) (d : Dialogue α) (f : α → Dialogue β)
    (files : σ) :
    (d >>= f).hold input files =
      (f (d.hold input files).1).hold input (d.hold input files).2 := by
  change (d.bind f).hold input files = _
  induction d generalizing files with
  | done a => rfl
  | readFile path next ih => exact ih _ files
  | readInput next ih => exact ih _ files
  | writeFile path content next ih =>
    simp only [bind, hold]
    split <;> exact ih _ _

end Dialogue

end RuleCanon
