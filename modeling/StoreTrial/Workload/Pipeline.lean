import StoreTrial.Store
import StoreTrial.Workload.Generator

/-!
# Pipelines

A generator that feeds a store: each operation is answered as soon as it is made, and none is made
before it is asked for.
-/

namespace StoreTrial.Workload

/-- A generator and the store that answers its operations. -/
structure Pipeline (σ : Type) where
  /-- The generator. -/
  generator : Generator σ
  /-- The store. -/
  store : Store

namespace Pipeline

/-- What a pipeline answers when it is asked for several outcomes. -/
structure Answers (σ : Type) where
  /-- The outcomes, in order. -/
  outcomes : Array Outcome
  /-- The events on the way. -/
  events : List Event
  /-- The pipeline from here on. -/
  rest : Pipeline σ

variable {σ : Type} [Draws σ]

/-- Answers with up to `count` more outcomes. -/
def extend (answers : Answers σ) (count : Nat) : Answers σ :=
  match count, answers with
  | 0, answers => answers
  | count + 1, ⟨outcomes, events, ⟨generator, store⟩⟩ =>
    match generator.next with
    | ⟨none, _, generator⟩ => ⟨outcomes, events, ⟨generator, store⟩⟩
    | ⟨some operation, more, generator⟩ =>
      let (outcome, store) := store.apply operation
      extend ⟨outcomes.push outcome, events ++ more, ⟨generator, store⟩⟩ count

/-- Up to `count` outcomes. -/
def take (count : Nat) (pipeline : Pipeline σ) : Answers σ := extend ⟨#[], [], pipeline⟩ count

end Pipeline

end StoreTrial.Workload
