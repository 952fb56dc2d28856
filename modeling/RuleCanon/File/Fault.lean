/-!
# Faults of files

Why a path does not give a text, or does not take one, in the words of the operating system.

## Main Definitions

* `FileFault` — the causes, with `FileFault.message` for their wording
-/

namespace RuleCanon

/-- Why a file could not be read or written. -/
inductive FileFault where
  /-- There is no such file. -/
  | notFound
  /-- The path goes on past something that is not a directory. -/
  | notDirectory
  /-- The path leads to a directory. -/
  | isDirectory
  /-- A name on the path is too long. -/
  | nameTooLong
  /-- The file does not hold a text. -/
  | notText
  /-- The path leads somewhere where the program may not read or write. -/
  | denied
  /-- The system gives another reason for not getting there. -/
  | other (reason : String)
deriving DecidableEq, Repr

namespace FileFault

/-- The wording of a fault. -/
def message : FileFault → String
  | notFound => "No such file or directory (os error 2)"
  | notDirectory => "Not a directory (os error 20)"
  | isDirectory => "Is a directory (os error 21)"
  | nameTooLong => "File name too long (os error 36)"
  | notText => "stream did not contain valid UTF-8"
  | denied => "Permission denied (os error 13)"
  | other reason => reason

/-- Whether the path leads somewhere, so that only what stands there is at fault. -/
def isReached : FileFault → Bool
  | isDirectory | notText | denied => true
  | _ => false

end FileFault

end RuleCanon
