/-!
# Command line arguments

The reading of a command's arguments against the list of its options. An option has a long name,
and it may have a short one; it is a flag, or it takes a value. The value of an option follows the
name in the next argument, or in the same one after `=`, or directly after a short name. Short names
can share one argument. An option is given once at most. A command takes nothing but options.
-/

namespace StoreTrial.Command

/-- Why arguments are rejected. -/
inductive Rejection where
  /-- There is no argument at all. -/
  | noArguments
  /-- Help is asked for. -/
  | helpAsked
  /-- No command is named. -/
  | missingCommand
  /-- The name of the command is not known. -/
  | unknownCommand
  /-- An argument is not known, or stands where none may. -/
  | unknownArgument
  /-- An option is given twice. -/
  | repeatedOption
  /-- An option is given without its value. -/
  | missingValue
  /-- A flag is given a value. -/
  | unexpectedValue
  /-- An option that must be given is missing. -/
  | missingOption
deriving DecidableEq

/-- What an option takes. -/
inductive Taking where
  /-- Nothing: the option is a flag. -/
  | nothing
  /-- A value, which does not start with `-` if it is an argument of its own. -/
  | value
  /-- A value, which may be an argument of its own even if it is a negative number. -/
  | number
deriving DecidableEq

/-- An option of a command. -/
structure CommandOption where
  /-- The long name. -/
  name : String
  /-- The short name. -/
  letter : Option Char
  /-- What the option takes. -/
  taking : Taking
deriving DecidableEq

/-- The flag that asks for help. -/
def CommandOption.help : CommandOption := ⟨"help", 'h', .nothing⟩

/-- The flag that asks for more reports. Every command has it. -/
def CommandOption.verbose : CommandOption := ⟨"verbose", 'v', .nothing⟩

/-- The options given so far. -/
structure Given where
  /-- The names of the options that were given, and their values; a flag has the value `""`. -/
  values : List (String × String)
  /-- The option that was named last in an argument without a value, until it is taken up. -/
  pending : Option (CommandOption × Option String)

namespace Given

/-- No options. -/
def empty : Given := ⟨[], none⟩

/-- The value of an option. -/
def value? (given : Given) (name : String) : Option String := given.values.lookup name

/-- `has name` is true when the option is given. -/
def has (given : Given) (name : String) : Bool := (given.value? name).isSome

/-- Takes up an option with its value. -/
def add (given : Given) (name value : String) : Except Rejection Given :=
  if given.has name then .error .repeatedOption
  else .ok { given with values := given.values ++ [(name, value)] }

/-- Takes up the option that is pending. -/
def settle (given : Given) : Except Rejection Given :=
  match given.pending with
  | none => .ok given
  | some (_, none) => .error .missingValue
  | some (option, some value) => add { given with pending := none } option.name value

/-- Takes up an option with a value in the same argument. -/
def addNow (given : Given) (option : CommandOption) (value : String) : Except Rejection Given := do
  (← given.settle).add option.name value

/-- Takes up a flag. -/
def addFlag (given : Given) (flag : CommandOption) : Except Rejection Given := do
  let given ← given.addNow flag ""
  if flag = .help then .error .helpAsked else .ok given

/-- Names an option whose value is the next argument. -/
def await (given : Given) (option : CommandOption) : Except Rejection Given := do
  let given ← given.settle
  return { given with pending := some (option, none) }

/-- The option that the next argument is the value of. -/
def awaited (given : Given) : Option CommandOption :=
  match given.pending with
  | some (option, none) => some option
  | _ => none

end Given

/-- `isNegativeNumber text` is true when `text`, after a `-`, makes a negative number: digits, one
point after the first of them, and one mark of an exponent that is not the last character. -/
def isNegativeNumber (text : List Char) : Bool :=
  let isMark := fun c => c == 'e' || c == 'E'
  let mantissa := text.takeWhile fun c => !isMark c
  let exponent := text.dropWhile fun c => !isMark c
  let isMantissa :=
    mantissa.all (fun c => c.isDigit || c == '.') && mantissa.count '.' ≤ 1 &&
      mantissa.head? != some '.'
  let isExponent :=
    match exponent with
    | [] => true
    | _ :: digits => !mantissa.isEmpty && !digits.isEmpty && digits.all Char.isDigit
  isMantissa && isExponent

/-- Reads an argument with a long name, which is `text` without its dashes. -/
def readLong (options : List CommandOption) (text : List Char) (given : Given) :
    Except Rejection Given :=
  let name := String.ofList (text.takeWhile (· != '='))
  let value :=
    match text.dropWhile (· != '=') with
    | _ :: value => some (String.ofList value)
    | [] => none
  match options.find? fun option => option.name == name, value with
  | none, _ => .error .unknownArgument
  | some ⟨name, letter, .nothing⟩, none => given.addFlag ⟨name, letter, .nothing⟩
  | some ⟨_, _, .nothing⟩, some _ => .error .unexpectedValue
  | some option, some value => given.addNow option value
  | some option, none => given.await option

/-- Reads the short names of an argument, which is `letters` without its dash. -/
def readShort (options : List CommandOption) (given : Given) :
    (letters : List Char) → Except Rejection Given
  | [] => .ok given
  | letter :: rest =>
    match options.find? fun option => option.letter == some letter with
    | none => .error .unknownArgument
    | some ⟨name, letter, .nothing⟩ => do
      readShort options (← given.addFlag ⟨name, letter, .nothing⟩) rest
    | some option =>
      match rest with
      | [] => given.await option
      | '=' :: value => given.addNow option (String.ofList value)
      | value => given.addNow option (String.ofList value)

/-- Reads the arguments of a command. After the argument `--`, none may follow. -/
def readOptions (options : List CommandOption) (given : Given) :
    List String → Except Rejection Given
  | [] => given.settle
  | argument :: rest => do
    match argument.toList with
    | ['-', '-'] => if rest.isEmpty then given.settle else .error .unknownArgument
    | '-' :: '-' :: text => readOptions options (← readLong options text given) rest
    | '-' :: letter :: letters =>
      let isValue : Bool :=
        match given.awaited with
        | some option => option.taking == .number && isNegativeNumber (letter :: letters)
        | none => false
      if isValue then readOptions options (answer given argument) rest
      else readOptions options (← readShort options given (letter :: letters)) rest
    | _ =>
      if given.awaited.isSome then readOptions options (answer given argument) rest
      else .error .unknownArgument
where
  /-- The options after the pending one is given its value. -/
  answer (given : Given) (value : String) : Given :=
    { given with pending := given.pending.map fun pending => (pending.1, some value) }

end StoreTrial.Command
