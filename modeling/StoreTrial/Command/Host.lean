import StoreTrial.Event

/-!
# The host of a command

What a command needs of the system that it runs on: files, the standard streams, random numbers and
a place for events.
-/

namespace StoreTrial.Command

/-- The system that a command runs on, as actions of a monad. -/
class Host (m : Type → Type) where
  /-- The text of a file. -/
  readFile (path : String) : m (Except AccessFault String)
  /-- Replaces the content of a file, or makes the file. -/
  writeFile (path content : String) : m (Except AccessFault Unit)
  /-- The whole standard input. -/
  readInput : m (Except AccessFault String)
  /-- The next line of standard input. -/
  readInputLine : m (Except AccessFault String)
  /-- Writes to standard output. -/
  writeOutput (content : String) : m Unit
  /-- Writes to standard error. -/
  writeError (content : String) : m Unit
  /-- A seed that nobody chose. -/
  freshSeed : m UInt64
  /-- Keeps events for who may want to see them. -/
  keep (events : List Event) : m Unit

/-- The number of bytes of the first line, with its line feed. -/
def lineSize (bytes : ByteArray) : Nat :=
  match bytes.toList.findIdx? (· == 0x0A) with
  | some i => i + 1
  | none => bytes.size

/-- The first line, with its line feed. -/
def firstLine (bytes : ByteArray) : ByteArray := bytes.extract 0 (lineSize bytes)

/-- What is left after the first line. -/
def afterFirstLine (bytes : ByteArray) : ByteArray := bytes.extract (lineSize bytes) bytes.size

/-- The text with the bytes `bytes`. -/
def textOf (bytes : ByteArray) : Except AccessFault String :=
  match String.fromUTF8? bytes with
  | some text => .ok text
  | none => .error .notText

end StoreTrial.Command
