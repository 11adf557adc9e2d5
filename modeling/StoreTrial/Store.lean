import Std.Data.HashMap
import StoreTrial.Logged
import StoreTrial.Outcome

/-!
# The model store

The store whose answers are right by definition: a mapping from keys to values, which starts empty.
A write always succeeds and replaces the value under its key. A read or a deletion of a key that is
not there answers so and changes nothing. `replay` gives the outcomes of a whole stream of
operations on a new store.
-/

namespace StoreTrial

/-- A key-value store and the number of operations that it has answered. -/
structure Store where
  /-- The value under each key. -/
  entries : Std.HashMap String String
  /-- The operations answered so far. -/
  applied : Nat

namespace Store

/-- A store without keys. -/
def empty : Store := ⟨∅, 0⟩

/-- The value under a key, if the key is there. -/
def get? (store : Store) (key : String) : Option String := store.entries[key]?

/-- The number of keys. -/
def size (store : Store) : Nat := store.entries.size

/-- `isEmpty` is true of a store without keys. -/
def isEmpty (store : Store) : Bool := store.entries.isEmpty

/-- The answer to one operation and the store after it. -/
def apply (operation : Operation) (store : Store) : Outcome × Store :=
  let applied := store.applied + 1
  match operation with
  | .read key =>
    match store.entries[key]? with
    | some value => (.value value, { store with applied })
    | none => (.notFound, { store with applied })
  | .write key value => (.success, ⟨store.entries.insert key value, applied⟩)
  | .delete key =>
    if key ∈ store.entries then (.success, ⟨store.entries.erase key, applied⟩)
    else (.notFound, { store with applied })

/-- The answers to operations in order and the store after all of them. -/
def run (operations : List Operation) (store : Store) : List Outcome × Store :=
  StateT.run (m := Id) (operations.mapM apply) store

/-- No operations have no answers and leave the store as it is. -/
@[simp]
theorem run_nil (store : Store) : run [] store = ([], store) := rfl

/-- The first operation is answered before the others. -/
@[simp]
theorem run_cons (operation : Operation) (operations : List Operation) (store : Store) :
    run (operation :: operations) store =
      ((apply operation store).1 :: (run operations (apply operation store).2).1,
        (run operations (apply operation store).2).2) := by
  simp only [run, List.mapM_cons]
  rfl

/-- The answers to up to `count` of the operations, each of which is answered when its answer is
asked for; the operations that are left, and the store after the answered ones. -/
def pull (count : Nat) (operations : List Operation) (store : Store) :
    List Outcome × List Operation × Store :=
  match count, operations with
  | 0, operations => ([], operations, store)
  | _ + 1, [] => ([], [], store)
  | count + 1, operation :: operations =>
    let (outcome, store) := store.apply operation
    let (outcomes, rest) := pull count operations store
    (outcome :: outcomes, rest)

end Store

/-- The outcomes of operations on a new store. -/
def replay (operations : List Operation) : Logged (List Outcome) :=
  let (outcomes, store) := Store.empty.run operations
  ⟨outcomes, [.replayStarted operations.length, .replayFinished outcomes.length store.size]⟩

end StoreTrial
