import StoreTrial.Command.Request
import StoreTrial.Text.Blank
import StoreTrial.Text.Decimal
import StoreTrial.Workload.ConfigFile

/-!
# Plans of a workload

The configuration of a workload is put together from options, a configuration file, a question to
the user, and defaults. An option wins over the file and the file over the default; the user is
asked for the number of operations only if neither an option nor a file gives it.
-/

namespace StoreTrial.Command

open Text Workload

/-- The number in a text, without the blanks around it, or the fault of that text. -/
def readNumber (fault : String → ConfigFault) (text : String) : Except Fault UInt64 :=
  let word := trim text.toList
  match Decimal.read? word with
  | some n => .ok n
  | none => .error (.invalidConfiguration (fault (String.ofList word)))

/-- The number of operations in a text. -/
def readCount (text : String) : Except Fault UInt64 := readNumber .badCount text

/-- The length of keys and values in a text, which is not zero. -/
def readLength (text : String) : Except Fault UInt64 := do
  let length ← readNumber .badLength text
  if length = 0 then
    .error (.invalidConfiguration (.badLength (String.ofList (trim text.toList))))
  else .ok length

/-- The seed in a text. -/
def readSeed (text : String) : Except Fault UInt64 := readNumber .badSeed text

/-- What is known of a workload before the user is asked. -/
structure Plan where
  /-- The content of the configuration file. -/
  file : Option Config
  /-- The number of operations that an option gives. -/
  count : Option UInt64
  /-- The length that an option gives. -/
  length : Option UInt64
  /-- The seed that an option gives. -/
  seed : Option UInt64
  /-- The file that the workload is written to. -/
  output : Option String
deriving DecidableEq

namespace Plan

/-- The plan of options and a configuration file that is read already. -/
def ofOptions (options : WorkloadOptions) (file : Option Config) : Except Fault Plan := do
  let count ← options.count.mapM readCount
  let length ← options.length.mapM readLength
  let seed ← options.seed.mapM readSeed
  return ⟨file, count, length, seed, options.output⟩

/-- `needsCount` is true when neither an option nor a file gives the number of operations. -/
def needsCount (plan : Plan) : Bool := plan.count.isNone && plan.file.isNone

/-- The configuration of a plan. `ask` asks the user for the number of operations. -/
def resolve {m : Type → Type} [Monad m] (plan : Plan) (ask : ExceptT Fault m UInt64) :
    ExceptT Fault m Config := do
  let config ←
    match plan.file, plan.count with
    | some file, some count => pure { file with requestCount := count }
    | some file, none => pure file
    | none, some count => pure (Config.ofCount count)
    | none, none => Config.ofCount <$> ask
  let config := { config with
    length := plan.length.getD config.length
    seed := plan.seed.or config.seed }
  ExceptT.mk (pure config.validate)

end Plan

end StoreTrial.Command
