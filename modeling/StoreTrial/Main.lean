import StoreTrial.Command.Run

/-!
# The program

Runs commands on the system that the program runs on. Events that matter to the user go to standard
error.

Some texts are no part of this library: what a TOML reader says of a file that it refuses (`<toml>`
stands for it in `ConfigFault.reason`), and what is said of arguments that are rejected, for which
there is one `usage`. Nor are the limits of memory.
-/

namespace StoreTrial.Command

/-- Actions on the real system, with the lowest level of the events that are shown. -/
abbrev Console := ReaderT Level IO

/-- The cause with a number of the system, which may be negated. -/
def causeOfNumber? (number : UInt32) : Option AccessFault :=
  match if number < 0x80000000 then number else 0 - number with
  | 2 => some .notFound
  | 20 => some .notDirectory
  | 21 => some .isDirectory
  | 22 => some .nullInName
  | 36 => some .nameTooLong
  | _ => none

/-- The cause of a failed access. -/
def causeOf (error : IO.Error) : AccessFault :=
  let number? := match error with
    | .noFileOrDirectory _ number _ => some number
    | .inappropriateType _ number _ => some number
    | .invalidArgument _ number _ => some number
    | _ => none
  (number?.bind causeOfNumber?).getD (.stated error.toString)

/-- The result of an access. -/
def attempt {α : Type} (action : IO α) : IO (Except AccessFault α) := do
  match ← action.toBaseIO with
  | .ok result => return .ok result
  | .error error => return .error (causeOf error)

/-- The bytes that are left of a stream, after `done`. -/
partial def readRest (stream : IO.FS.Stream) (done : ByteArray) : IO ByteArray := do
  let more ← stream.read 65536
  if more.isEmpty then return done else readRest stream (done ++ more)

/-- The bytes of the next line of a stream, after `done`. -/
partial def readLine (stream : IO.FS.Stream) (done : ByteArray) : IO ByteArray := do
  let more ← stream.read 1
  let done := done ++ more
  if more.isEmpty || more.toList = [0x0A] then return done else readLine stream done

/-- `shows lowest level` is true when events of `level` are shown from `lowest` on. -/
def shows : (lowest level : Level) → Bool
  | .debug, _ => true
  | .info, level => level != .debug
  | .warn, level => level == .warn

/-- The line of an event. -/
def eventLine (event : Event) : String :=
  let fields := event.fields.map fun field =>
    match field.2 with
    | .number n => s!" {field.1}={n}"
    | .text s => s!" {field.1}={s}"
  s!"{event.level.name} {event.target}: {event.message}" ++ String.join fields

instance : Host Console where
  readFile path := do return (← attempt (IO.FS.readBinFile path)).bind textOf
  writeFile path content := attempt (IO.FS.writeFile path content)
  readInput := do return (← attempt (do readRest (← IO.getStdin) .empty)).bind textOf
  readInputLine := do return (← attempt (do readLine (← IO.getStdin) .empty)).bind textOf
  writeOutput content := do
    let output ← IO.getStdout
    output.putStr content
    output.flush
  writeError content := do (← IO.getStderr).putStr content
  freshSeed := do
    let bytes ← IO.getRandomBytes 8
    return bytes.toList.foldl (fun seed byte => seed * 256 + byte.toUInt64) 0
  keep events := do
    let lowest ← read
    for event in events do
      if shows lowest event.level then IO.eprintln (eventLine event)

/-- How the program is used. -/
def usage : String :=
  "Workload generator and reference oracle for key-value stores\n" ++
  "\n" ++
  "Usage: kvharness [-v | --verbose] COMMAND\n" ++
  "\n" ++
  "  generate [-n | --count N] [-l | --length L] [--seed S] [--config PATH]\n" ++
  "           [-o | --output PATH]\n" ++
  "  oracle [-i | --input PATH] [-o | --output PATH]\n" ++
  "  check --stream PATH --actual PATH [--json]\n"

end StoreTrial.Command

open StoreTrial StoreTrial.Command in
/-- Runs the command that the arguments name. -/
def main (arguments : List String) : IO UInt32 := do
  match Invocation.ofArguments arguments with
  | .ok invocation =>
    let lowest := if invocation.verbose then Level.info else Level.warn
    let ending ← (run (m := Console) invocation.request).run lowest
    return ending.code
  | .error .helpAsked =>
    IO.print usage
    return Ending.success.code
  | .error _ =>
    IO.eprint usage
    return Ending.fault.code
