import StoreTrial.Wire.OperationStream
import StoreTrial.Workload.Generator

/-!
# Workloads

A workload is what a generator makes from start to end: the operations, their counts by kind and
the seed from which they can be made again.
-/

namespace StoreTrial

/-- The operations made from a seed. -/
structure Workload where
  /-- The seed. -/
  seed : UInt64
  /-- The operations, in order. -/
  operations : List Operation
  /-- The operations, counted by kind. -/
  stats : Workload.Stats

namespace Workload

/-- The text of a workload as a stream of operations. -/
def encode (workload : Workload) : Except Fault String :=
  OperationStream.encode workload.operations

/-- All operations that a generator still makes, with an event at the end. -/
def collect {σ : Type} [Draws σ] (generator : Generator σ) : Logged Workload :=
  let batch := generator.take generator.remaining
  let seed := generator.seed
  let operations := batch.operations.toList
  let stats := batch.rest.stats
  ⟨⟨seed, operations, stats⟩,
    batch.events ++ [.workloadGenerated seed.toNat operations.length stats]⟩

/-- The workload of a configuration. The seed is `entropy` if none is fixed. -/
def generate (config : Config) (entropy : UInt64) : Trial Workload := do
  let generator ← Trial.ofExcept (Generator.ofConfig config entropy)
  collect generator

end Workload

end StoreTrial
