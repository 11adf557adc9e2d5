import StoreTrial.Command.Arguments

/-!
# Requests

What a command line asks for: a workload, the outcomes that a stream of operations must have, or the
verdict on actual outcomes. Files and numbers are kept as they are given.
-/

namespace StoreTrial.Command

/-- The options of a request for a workload. -/
structure WorkloadOptions where
  /-- The number of operations. -/
  count : Option String
  /-- The length of keys and values. -/
  length : Option String
  /-- The seed. -/
  seed : Option String
  /-- The configuration file. -/
  config : Option String
  /-- The file that the workload is written to. -/
  output : Option String
deriving DecidableEq

/-- What is asked for. -/
inductive Request where
  /-- A workload. -/
  | workload (options : WorkloadOptions)
  /-- The outcomes that the operations in the file `input` must have, in the file `output`. -/
  | expected (input output : Option String)
  /-- The verdict on the outcomes in the file `actual` of the operations in the file `stream`. -/
  | check (stream actual : String) (json : Bool)
deriving DecidableEq

/-- What is asked for and how much of it is to be reported. -/
structure Invocation where
  /-- What is asked for. -/
  request : Request
  /-- Whether events for the user are reported. -/
  verbose : Bool
deriving DecidableEq

/-- The commands. -/
inductive CommandName where
  /-- The command for a workload. -/
  | generate
  /-- The command for expected outcomes. -/
  | oracle
  /-- The command for a verdict. -/
  | check
deriving DecidableEq

namespace CommandName

/-- The command of a name. -/
def ofName? : String → Option CommandName
  | "generate" => some generate
  | "oracle" => some oracle
  | "check" => some check
  | _ => none

/-- The options of a command. -/
def options : CommandName → List CommandOption
  | generate =>
    [⟨"count", 'n', .number⟩, ⟨"length", 'l', .number⟩, ⟨"seed", none, .number⟩,
      ⟨"config", none, .value⟩, ⟨"output", 'o', .value⟩, .verbose, .help]
  | oracle => [⟨"input", 'i', .value⟩, ⟨"output", 'o', .value⟩, .verbose, .help]
  | check =>
    [⟨"stream", none, .value⟩, ⟨"actual", none, .value⟩, ⟨"json", none, .nothing⟩, .verbose, .help]

/-- The request of a command with the options that were given. -/
def request (given : Given) : CommandName → Except Rejection Request
  | generate =>
    .ok (.workload ⟨given.value? "count", given.value? "length", given.value? "seed",
      given.value? "config", given.value? "output"⟩)
  | oracle => .ok (.expected (given.value? "input") (given.value? "output"))
  | check =>
    match given.value? "stream", given.value? "actual" with
    | some stream, some actual => .ok (.check stream actual (given.has "json"))
    | _, _ => .error .missingOption

end CommandName

namespace Invocation

/-- The invocation that the arguments of a command ask for. -/
def ofCommand (given : Given) (command : CommandName) (arguments : List String) :
    Except Rejection Invocation := do
  let options ← readOptions command.options .empty arguments
  let request ← command.request options
  return ⟨request, given.has "verbose" || options.has "verbose"⟩

/-- What asking for help on the command named by `names` comes to. -/
def help : (names : List String) → Rejection
  | [] => .helpAsked
  | name :: names =>
    if (name == "help" || (CommandName.ofName? name).isSome) && names.isEmpty then .helpAsked
    else .unknownCommand

/-- Reads arguments up to the name of the command, and the command. -/
def read (given : Given) : (arguments : List String) → Except Rejection Invocation
  | [] => .error (if given.values.isEmpty then .noArguments else .missingCommand)
  | argument :: rest =>
    match CommandName.ofName? argument with
    | some command => ofCommand given command rest
    | none => do
      match argument.toList with
      | ['-', '-'] =>
        match rest with
        | [] => read given []
        | name :: _ =>
          if name == "help" || (CommandName.ofName? name).isSome then .error .unknownArgument
          else .error .unknownCommand
      | '-' :: '-' :: text => read (← readLong [.verbose, .help] text given) rest
      | '-' :: letter :: letters =>
        read (← readShort [.verbose, .help] given (letter :: letters)) rest
      | _ => .error (if argument == "help" then help rest else .unknownCommand)

/-- The invocation that a list of arguments is. -/
def ofArguments (arguments : List String) : Except Rejection Invocation := read .empty arguments

end Invocation

end StoreTrial.Command
