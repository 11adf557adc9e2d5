import StoreTrial.Fault
import StoreTrial.Workload.Stats

/-!
# Events

What a trial reports while it runs, beside its result. An event has a level, the part of the
program that it comes from, a message and named fields, all of which follow from what happened.
-/

namespace StoreTrial

/-- How much an event matters. -/
inductive Level where
  /-- An event for the developer. -/
  | debug
  /-- An event for the user who asks for it. -/
  | info
  /-- An event for every user. -/
  | warn
deriving DecidableEq

/-- The name of a level. -/
def Level.name : Level → String
  | debug => "DEBUG"
  | info => "INFO"
  | warn => "WARN"

/-- The content of a field of an event. -/
inductive Datum where
  /-- A number. -/
  | number (n : Nat)
  /-- A text. -/
  | text (s : String)
deriving DecidableEq

/-- Something that happened in a trial. -/
inductive Event where
  /-- After the `count` entries of a stream, `extra` lines that are not blank were ignored. -/
  | linesIgnored (stream : Stream) (count extra : Nat)
  /-- A replay of that many operations started. -/
  | replayStarted (operations : Nat)
  /-- A replay ended with that many outcomes and that many keys in the store. -/
  | replayFinished (operations liveKeys : Nat)
  /-- The outcomes at `index` are the first that differ. -/
  | firstMismatch (index : Nat) (expected actual : String)
  /-- The fresh writes at the start of a workload are done. -/
  | seedingComplete (seeded remaining : Nat)
  /-- The whole workload of a seed was generated. -/
  | workloadGenerated (seed operations : Nat) (stats : Workload.Stats)
  /-- The user is asked for the number of operations. -/
  | countAsked
  /-- A workload was made from a seed. -/
  | seedUsed (seed : Nat)
deriving DecidableEq

namespace Event

/-- How much an event matters. -/
def level : Event → Level
  | linesIgnored .. => .warn
  | replayStarted .. => .debug
  | replayFinished .. => .debug
  | firstMismatch .. => .warn
  | seedingComplete .. => .debug
  | workloadGenerated .. => .info
  | countAsked => .info
  | seedUsed _ => .info

/-- The part of the program that an event comes from. -/
def target : Event → String
  | linesIgnored .. => "kvharness::codec"
  | replayStarted .. => "kvharness::oracle"
  | replayFinished .. => "kvharness::oracle"
  | firstMismatch .. => "kvharness::verify"
  | seedingComplete .. => "kvharness::workload"
  | workloadGenerated .. => "kvharness::workload"
  | countAsked => "kvharness::cli"
  | seedUsed _ => "kvharness::cli"

/-- What an event says. -/
def message : Event → String
  | linesIgnored stream .. =>
    s!"Ignoring lines after the last entry of the {stream.entryName} stream"
  | replayStarted .. => "Replay started"
  | replayFinished .. => "Replay finished"
  | firstMismatch .. => "First mismatch against oracle"
  | seedingComplete .. => "Seeding phase complete"
  | workloadGenerated .. => "Workload generated"
  | countAsked => "No --count or --config given, reading count from stdin"
  | seedUsed seed => s!"Re-run with --seed {seed} to reproduce this stream"

/-- The named fields of an event. -/
def fields : Event → List (String × Datum)
  | linesIgnored _ count extra => [("count", .number count), ("extra", .number extra)]
  | replayStarted operations => [("operations", .number operations)]
  | replayFinished operations liveKeys =>
    [("operations", .number operations), ("live_keys", .number liveKeys)]
  | firstMismatch index expected actual =>
    [("index", .number index), ("expected", .text expected), ("actual", .text actual)]
  | seedingComplete seeded remaining =>
    [("seeded", .number seeded), ("remaining", .number remaining)]
  | workloadGenerated seed operations stats =>
    [("seed", .number seed), ("operations", .number operations), ("reads", .number stats.reads),
      ("fresh_writes", .number stats.freshWrites), ("reused_writes", .number stats.reusedWrites),
      ("deletes", .number stats.deletes)]
  | countAsked => []
  | seedUsed seed => [("seed", .number seed)]

end Event

end StoreTrial
