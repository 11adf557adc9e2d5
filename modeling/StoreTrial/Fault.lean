import StoreTrial.Operation

/-!
# Faults

What can go wrong in a trial, kept as causes. The wording of a cause is in one function beside it,
and `Fault.message` is the whole text that a user sees. A key that a store does not have is no
fault but an outcome.
-/

namespace StoreTrial

/-- The two streams of a trial: what the store is asked, and what it answers. -/
inductive Stream where
  /-- The stream of operations. -/
  | operations
  /-- The stream of outcomes. -/
  | outcomes
deriving DecidableEq

namespace Stream

/-- The name of one entry of the stream. -/
def entryName : Stream → String
  | operations => "operation"
  | outcomes => "result"

end Stream

/-- Why a line of a stream is refused. -/
inductive LineFault where
  /-- The stream has no line at all. -/
  | missingCount
  /-- The first line is `found`, which is no count. -/
  | badCount (found : String)
  /-- The stream announces `expected` entries and ends after `found` of them. -/
  | truncated (expected found : Nat)
  /-- The line has no field. -/
  | empty
  /-- The first field is `tag`, which is the tag of no kind. -/
  | unknownTag (tag : String)
  /-- The tag of `kind` is followed by `found` fields. -/
  | wrongFieldCount (kind : Kind) (found : Nat)
  /-- A reason in words. -/
  | stated (reason : String)
deriving DecidableEq

/-- The wording of a fault in a line of `stream`. -/
def LineFault.reason (stream : Stream) : LineFault → String
  | missingCount => "missing count line"
  | badCount found => s!"expected a non-negative count, found '{found}'"
  | truncated expected found =>
    match stream with
    | .operations => s!"stream truncated: expected {expected} operations, found {found}"
    | .outcomes => s!"output truncated: expected {expected} results, found {found}"
  | empty => "empty line"
  | unknownTag tag => s!"unknown operation tag '{tag}'"
  | wrongFieldCount kind found =>
    s!"{kind.name} expects {kind.fieldCount - 1} argument(s), found {found}"
  | stated reason => reason

/-- The fields of an operation beside its tag. -/
inductive Field where
  /-- The key. -/
  | key
  /-- The value. -/
  | value
deriving DecidableEq

/-- The name of a field in reports. -/
def Field.name : Field → String
  | key => "key"
  | value => "value"

/-- Why a text cannot be a field of a line. -/
inductive FieldFault where
  /-- The text is empty. -/
  | empty
  /-- The text is `text`, which has a blank in it. -/
  | blank (text : String)
  /-- A reason in words. -/
  | stated (reason : String)
deriving DecidableEq

/-- The wording of a fault in a field. -/
def FieldFault.reason : FieldFault → String
  | empty => "must not be empty"
  | blank text => s!"'{text}' contains whitespace"
  | stated reason => reason

/-- Why a file or stream of the system cannot be read or written. -/
inductive AccessFault where
  /-- No file has the name. -/
  | notFound
  /-- The name is that of a directory. -/
  | isDirectory
  /-- The name goes through a file as if it were a directory. -/
  | notDirectory
  /-- The name, or the path to it, is too long. -/
  | nameTooLong
  /-- The name has a null character in it. -/
  | nullInName
  /-- The content is not UTF-8. -/
  | notText
  /-- A reason in words. -/
  | stated (reason : String)
deriving DecidableEq

/-- The wording of a fault of access. -/
def AccessFault.reason : AccessFault → String
  | notFound => "No such file or directory (os error 2)"
  | isDirectory => "Is a directory (os error 21)"
  | notDirectory => "Not a directory (os error 20)"
  | nameTooLong => "File name too long (os error 36)"
  | nullInName => "file name contained an unexpected NUL byte"
  | notText => "stream did not contain valid UTF-8"
  | stated reason => reason

/-- Why a configuration is refused. -/
inductive ConfigFault where
  /-- The request count is given as `found`, which is no count. -/
  | badCount (found : String)
  /-- The length is given as `found`, which is no positive number. -/
  | badLength (found : String)
  /-- The seed is given as `found`, which is no number. -/
  | badSeed (found : String)
  /-- The length is zero. -/
  | zeroLength
  /-- The configuration file is no document of the expected form. -/
  | unparsable
  /-- The configuration file at `path` cannot be read. -/
  | unreadable (path : String) (cause : AccessFault)
  /-- The fault `cause` is in the file at `path`. -/
  | inFile (path : String) (cause : ConfigFault)
  /-- A reason in words. -/
  | stated (reason : String)
deriving DecidableEq

/-- The wording of a fault in a configuration. -/
def ConfigFault.reason : ConfigFault → String
  | badCount found => s!"request count must be a non-negative integer, got '{found}'"
  | badLength found => s!"key/value length must be a positive integer, got '{found}'"
  | badSeed found => s!"seed must be an unsigned 64-bit integer, got '{found}'"
  | zeroLength => "key_value_length must be a positive integer"
  | unparsable => "failed to parse config: <toml>"
  | unreadable path cause => s!"failed to read config file '{path}': {cause.reason}"
  | inFile path cause => s!"{cause.reason} ({path})"
  | stated reason => reason

/-- What ends a trial before its result. -/
inductive Fault where
  /-- A count, length, seed or configuration file is refused. -/
  | invalidConfiguration (cause : ConfigFault)
  /-- The line numbered `line`, counted from 1, of a stream is refused. -/
  | malformedLine (stream : Stream) (line : Nat) (cause : LineFault)
  /-- A key or value cannot be written on a line. -/
  | invalidField (field : Field) (cause : FieldFault)
  /-- A file or stream of the system cannot be read or written. -/
  | access (cause : AccessFault)
deriving DecidableEq

namespace Fault

/-- The text of a fault. -/
def message : Fault → String
  | invalidConfiguration cause => s!"invalid configuration: {cause.reason}"
  | malformedLine stream line cause =>
    s!"malformed {stream.entryName} on line {line}: {cause.reason stream}"
  | invalidField field cause => s!"invalid {field.name}: {cause.reason}"
  | access cause => s!"I/O error: {cause.reason}"

/-- `isConfiguration` is true of the faults in what the user configured. -/
def isConfiguration : Fault → Bool
  | invalidConfiguration _ => true
  | _ => false

/-- The text of a fault as a report for people. -/
def report (fault : Fault) : String := s!"(error) {fault.message}"

end Fault

end StoreTrial
