import StoreTrial.Logged
import StoreTrial.Random.Draws
import StoreTrial.Workload.Config

/-!
# The generator

A generator makes the operations of a workload one at a time. The first fifth of them are fresh
writes, whose keys and values are drawn. Each later one is a read, a write or a deletion. A read or
a deletion is of the key of an earlier write; a write is fresh or repeats an earlier write, value
included. Earlier writes are picked from the history, which holds every write of the workload, so a
key that was written more often is picked more often. Deletions leave the history alone, and reads
of deleted keys are how a workload asks for keys that are not there. A workload of fewer than five
operations starts without a history, and its first operation is a fresh write.
-/

namespace StoreTrial.Workload

/-- A key and the value written under it. -/
structure Entry where
  /-- The key. -/
  key : String
  /-- The value. -/
  value : String
deriving DecidableEq

/-- The number of fresh writes that a workload of `total` operations starts with: a fifth of them,
rounded down. -/
def seedingCount (total : Nat) : Nat := total / 5

/-- A workload in the making, with choices from a source of type `σ`. -/
structure Generator (σ : Type) where
  /-- The seed of the workload. -/
  seed : UInt64
  /-- The length of every key and value. -/
  length : Nat
  /-- The number of operations of the whole workload. -/
  total : Nat
  /-- The source of choices. -/
  source : σ
  /-- The number of operations made so far. -/
  emitted : Nat
  /-- The writes made so far, in order. -/
  history : Array Entry
  /-- The operations made so far, by kind. -/
  stats : Stats

/-- What a generator makes when it is asked for an operation. -/
structure Step (σ : Type) where
  /-- The operation, or nothing at the end of the workload. -/
  operation? : Option Operation
  /-- The events on the way. -/
  events : List Event
  /-- The generator from here on. -/
  rest : Generator σ

/-- What a generator makes when it is asked for several operations. -/
structure Batch (σ : Type) where
  /-- The operations, in order. -/
  operations : Array Operation
  /-- The events on the way. -/
  events : List Event
  /-- The generator from here on. -/
  rest : Generator σ

namespace Generator

/-- The generator of the workload of `config`, with choices from `source`. -/
def ofSource {σ : Type} (config : Config) (seed : UInt64) (source : σ) : Generator σ :=
  ⟨seed, config.length.toNat, config.requestCount.toNat, source, 0, #[], .zero⟩

/-- The generator of the workload of a configuration. The seed is `entropy` if none is fixed. -/
def ofConfig (config : Config) (entropy : UInt64) : Except Fault (Generator Keystream) := do
  let config ← config.validate
  let seed := config.seed.getD entropy
  return ofSource config seed (.ofSeed seed)

variable {σ : Type}

/-- The number of operations still to come. -/
def remaining (generator : Generator σ) : Nat := generator.total - generator.emitted

/-- The least and the most operations that may still come: there are as many as remain. -/
def sizeHint (generator : Generator σ) : Nat × Option Nat :=
  (generator.remaining, some generator.remaining)

/-- The number of fresh writes at the start of the workload. -/
def seeding (generator : Generator σ) : Nat := seedingCount generator.total

variable [Draws σ]

/-- A write of a key and a value that are drawn for it, the key first. -/
def freshWrite (generator : Generator σ) : Operation × Generator σ :=
  let (key, source) := Draws.token generator.length generator.source
  let (value, source) := Draws.token generator.length source
  (.write key value,
    { generator with
      source
      history := generator.history.push ⟨key, value⟩
      stats.freshWrites := generator.stats.freshWrites + 1 })

/-- A member of the history. -/
def pick (generator : Generator σ) (h : 0 < generator.history.size) : Entry × σ :=
  let (index, source) := Draws.index generator.history.size h generator.source
  (generator.history[index], source)

/-- A write that repeats a member of the history. -/
def reusedWrite (generator : Generator σ) (h : 0 < generator.history.size) :
    Operation × Generator σ :=
  let (entry, source) := generator.pick h
  (.write entry.key entry.value,
    { generator with
      source
      history := generator.history.push entry
      stats.reusedWrites := generator.stats.reusedWrites + 1 })

/-- A read of a key of the history. -/
def read (generator : Generator σ) (h : 0 < generator.history.size) : Operation × Generator σ :=
  let (entry, source) := generator.pick h
  (.read entry.key, { generator with source, stats.reads := generator.stats.reads + 1 })

/-- A deletion of a key of the history. -/
def delete (generator : Generator σ) (h : 0 < generator.history.size) : Operation × Generator σ :=
  let (entry, source) := generator.pick h
  (.delete entry.key, { generator with source, stats.deletes := generator.stats.deletes + 1 })

/-- An operation of a kind that is drawn, or a fresh write while there is no history. -/
def mixed (generator : Generator σ) : Operation × Generator σ :=
  if h : 0 < generator.history.size then
    let (kind, source) := Draws.kind generator.source
    match kind with
    | .read => read { generator with source } h
    | .write =>
      let (fresh, source) := Draws.coin source
      if fresh then freshWrite { generator with source }
      else reusedWrite { generator with source } h
    | .delete => delete { generator with source } h
  else generator.freshWrite

/-- The next operation. The one after the last fresh write of the start reports that they are
done. -/
def next (generator : Generator σ) : Step σ :=
  if generator.emitted < generator.total then
    let events :=
      if generator.emitted = generator.seeding then
        [.seedingComplete generator.seeding generator.remaining]
      else []
    let (operation, rest) :=
      if generator.emitted < generator.seeding then generator.freshWrite else generator.mixed
    ⟨some operation, events, { rest with emitted := rest.emitted + 1 }⟩
  else ⟨none, [], generator⟩

/-- A batch with up to `count` more operations. -/
def extend (batch : Batch σ) (count : Nat) : Batch σ :=
  match count, batch with
  | 0, batch => batch
  | count + 1, ⟨operations, events, generator⟩ =>
    match generator.next with
    | ⟨none, _, rest⟩ => ⟨operations, events, rest⟩
    | ⟨some operation, more, rest⟩ =>
      extend ⟨operations.push operation, events ++ more, rest⟩ count

/-- Up to `count` operations. -/
def take (count : Nat) (generator : Generator σ) : Batch σ := extend ⟨#[], [], generator⟩ count

end Generator

end StoreTrial.Workload
