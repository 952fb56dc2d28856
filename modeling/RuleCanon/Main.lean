import RuleCanon.CommandLine.Run

/-!
# The program

Holds the dialogue of a run with the real files, prints its outcome and exits.
-/

namespace RuleCanon

/-- The number of an error of the system, which may come with its sign changed. -/
def errorNumber (code : UInt32) : UInt32 := if code < 0x80000000 then code else 0 - code

/-- The fault behind an error of the system. -/
def faultOf (e : IO.Error) : FileFault :=
  match e with
  | .noFileOrDirectory .. => .notFound
  | .inappropriateType _ code _ | .invalidArgument _ code _ | .resourceExhausted _ code _ =>
    if errorNumber code = 20 then .notDirectory
    else if errorNumber code = 21 then .isDirectory
    else if errorNumber code = 36 then .nameTooLong
    else .other (toString e)
  | .permissionDenied _ code _ => if errorNumber code = 13 then .denied else .other (toString e)
  | e => .other (toString e)

/-- The text that bytes stand for. -/
def decodeBytes (bytes : ByteArray) : Except FileFault (List Char) := (Entry.ofBytes bytes).read

/-- All bytes of the standard input. -/
partial def readAll (stream : IO.FS.Stream) (bytes : ByteArray) : IO ByteArray := do
  let chunk ← stream.read 65536
  if chunk.isEmpty then return bytes else readAll stream (bytes ++ chunk)

/-- An answer of the system. -/
def attempt {α : Type} (action : IO α) : IO (Except FileFault α) := do
  try return .ok (← action) catch e => return .error (faultOf e)

/-- Holds a dialogue with the system. -/
def hold {α : Type} : Dialogue α → IO α
  | .done a => return a
  | .readFile path next => do
    let answer ← attempt (IO.FS.readBinFile path)
    hold (next (answer.bind decodeBytes))
  | .readInput next => do
    let answer ← attempt (do readAll (← IO.getStdin) .empty)
    hold (next (answer.bind decodeBytes))
  | .writeFile path content next => do
    let answer ← attempt (IO.FS.writeFile path (String.ofList content))
    hold (next answer)

end RuleCanon

/-- Runs the program on its arguments. -/
def main (args : List String) : IO UInt32 := do
  let outcome ← RuleCanon.hold (RuleCanon.respond RuleCanon.Regex.compiler args)
  IO.print (String.ofList outcome.stdout)
  IO.eprint (String.ofList outcome.stderr)
  return outcome.exitCode.toUInt32
