import StoreTrial.Toml
import StoreTrial.Workload.Config

/-!
# Configuration files

A configuration file is a flat TOML document that assigns the number of operations and, if it does
not leave them to the default, the length and the seed. A document of another form is refused
before the values are looked at.
-/

namespace StoreTrial.Workload.Config

/-- The names that a configuration file may assign. -/
def fileNames : List String := ["request_count", "key_value_length", "seed"]

/-- The number of 64 bits that an integer is, if it is one. -/
def word? : Int → Option UInt64
  | .ofNat n => if h : n < UInt64.size then some (.ofNatLT n h) else none
  | .negSucc _ => none

/-- The configuration that the assignments of a file make. -/
def ofAssignments? (assignments : List (String × Int)) : Option Config := do
  if assignments.all fun assignment => fileNames.contains assignment.1 then
    let requestCount ← assignments.lookup "request_count"
    let length ← (assignments.lookup "key_value_length").mapM word?
    let seed ← (assignments.lookup "seed").mapM word?
    return ⟨← word? requestCount, length.getD defaultLength, seed⟩
  else none

/-- The configuration in the text of a file. -/
def ofText (text : String) : Except Fault Config :=
  match Toml.parse? text >>= ofAssignments? with
  | some config => config.validate
  | none => .error (.invalidConfiguration .unparsable)

/-- The configuration in the file at `path`, whose content was read as `content`. -/
def ofFile (path : String) (content : Except AccessFault String) : Except Fault Config :=
  match content with
  | .error cause => .error (.invalidConfiguration (.unreadable path cause))
  | .ok text =>
    match ofText text with
    | .error (.invalidConfiguration cause) => .error (.invalidConfiguration (.inFile path cause))
    | result => result

end StoreTrial.Workload.Config
