import StoreTrial.Command.Host
import StoreTrial.Command.Plan
import StoreTrial.Json.Record
import StoreTrial.Trial
import StoreTrial.Workload

/-!
# Running a command

What each request does on a host. All results are complete before any of them is written, so a
command that ends with a fault has written nothing but the fault.
-/

namespace StoreTrial.Command

open Workload

/-- How a command ends. -/
inductive Ending where
  /-- The command did what was asked, and a check passed. -/
  | success
  /-- A check failed. -/
  | failedCheck
  /-- There was a fault, or the arguments were rejected. -/
  | fault
deriving DecidableEq

/-- The exit code of an ending. -/
def Ending.code : Ending → UInt32
  | success => 0
  | failedCheck => 1
  | fault => 2

/-- The question for the number of operations. -/
def countQuestion : String := "Enter the number of requests to generate: "

variable {m : Type → Type} [Monad m] [Host m]

/-- An action on the host that may end with a fault. -/
abbrev Action (m : Type → Type) (α : Type) := ExceptT Fault m α

/-- An action of the host whose access may fail. -/
def access {α : Type} (action : m (Except AccessFault α)) : Action m α :=
  ExceptT.mk do return (← action).mapError .access

/-- A part of a trial, whose events are kept. -/
def trial {α : Type} (part : Trial α) : Action m α := do
  Host.keep (m := m) part.run.events
  ExceptT.mk (pure part.run.value)

/-- Asks the user for the number of operations. -/
def askCount : Action m UInt64 := do
  Host.writeError (m := m) (countQuestion ++ "\n")
  let line ← access Host.readInputLine
  ExceptT.mk (pure (readCount line))

/-- The plan of options, with the configuration file that they name. -/
def gather (options : WorkloadOptions) : Action m Plan := do
  let file ←
    match options.config with
    | some path => do
      let content ← (Host.readFile path : m _)
      some <$> ExceptT.mk (pure (Config.ofFile path content))
    | none => pure none
  ExceptT.mk (pure (Plan.ofOptions options file))

/-- The text of a file, or of standard input if no file is named. -/
def readFrom (path : Option String) : Action m String :=
  match path with
  | some path => access (Host.readFile path)
  | none => access Host.readInput

/-- Writes a text to a file, or to standard output if no file is named. -/
def writeTo (path : Option String) (content : String) : Action m Unit :=
  match path with
  | some path => access (Host.writeFile path content)
  | none => Host.writeOutput (m := m) content

/-- The configuration of a plan. That the user will be asked is reported first. -/
def configure (plan : Plan) : Action m Config := do
  if plan.needsCount then Host.keep (m := m) [.countAsked]
  plan.resolve askCount

/-- Makes a workload and writes it. -/
def runWorkload (plan : Plan) : Action m Ending := do
  let config ← configure plan
  let workload ← trial (generate config (← (Host.freshSeed : m UInt64)))
  Host.keep (m := m) [.seedUsed workload.seed.toNat]
  writeTo plan.output (← ExceptT.mk (pure workload.encode))
  return .success

/-- Writes the outcomes that a stream of operations must have. -/
def runExpected (input output : Option String) : Action m Ending := do
  let stream ← readFrom input
  writeTo output (← trial (Trial.expectedText stream))
  return .success

/-- Writes the verdict on actual outcomes. -/
def runCheck (stream actual : String) (json : Bool) : Action m Ending := do
  let operations ← trial (Trial.operations (← access (Host.readFile stream)))
  let actual ← trial (Trial.outcomes (← access (Host.readFile actual)))
  let verdict ← trial (Trial.score operations actual)
  let report := if json then verdict.jsonReport else verdict.report
  Host.writeOutput (m := m) (report ++ "\n")
  return if verdict.passed then .success else .failedCheck

/-- Does what a request asks for. -/
def perform : Request → Action m Ending
  | .workload options => do runWorkload (← gather options)
  | .expected input output => runExpected input output
  | .check stream actual json => runCheck stream actual json

/-- The report on the fault of a request: for programs if the request asks for that. -/
def faultReport : Request → Fault → String
  | .check _ _ true, fault => fault.jsonReport
  | _, fault => fault.report

/-- Runs a request. A fault is reported on standard error. -/
def run (request : Request) : m Ending := do
  match ← (perform request).run with
  | .ok ending => return ending
  | .error fault => do
    Host.writeError (faultReport request fault ++ "\n")
    return .fault

end StoreTrial.Command
