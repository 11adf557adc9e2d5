import StoreTrial.Random.Words
import StoreTrial.Workload.Generator

/-!
# A generator in words

The counts of a generator are natural numbers, and it picks from its history by an index that is in
range by its type. On a machine, the counts are words of 64 bits, and the index is a number that is
computed from a word that is drawn. There a sum can be too great for a word, a difference can be
below zero, and a member can be asked for where there is none. The generator of this module makes
the same operations with a check before each such step, and ends in a `Trap` where a check fails.
Memory is taken for granted: there is no check that a text or a history has room.
-/

namespace StoreTrial

/-- What a computation in words can be trapped by. -/
inductive Trap where
  /-- A choice from nothing. -/
  | noMembers
  /-- An index that is not below the number of members. -/
  | indexOutOfRange
  /-- A difference below zero. -/
  | underflow
  /-- A sum that does not fit in a word. -/
  | overflow
deriving DecidableEq

namespace Word

/-- The sum of two words, if it is a word. -/
def add (m n : Nat) : Except Trap Nat :=
  if m + n < UInt64.size then .ok (m + n) else .error .overflow

/-- The difference of two words, if it is not below zero. -/
def sub (m n : Nat) : Except Trap Nat :=
  if n ≤ m then .ok (m - n) else .error .underflow

end Word

namespace Workload

namespace Guarded

/-- All writes. -/
def writes (stats : Stats) : Except Trap Nat := Word.add stats.freshWrites stats.reusedWrites

/-- All operations. -/
def total (stats : Stats) : Except Trap Nat := do
  let sum ← Word.add stats.reads (← writes stats)
  Word.add sum stats.deletes

section

variable {σ : Type}

/-- The least and the most operations that may still come. -/
def sizeHint (generator : Generator σ) : Except Trap (Nat × Option Nat) := do
  let remaining ← Word.sub generator.total generator.emitted
  return (remaining, some remaining)

variable [Draws σ]

/-- A write of a key and a value that are drawn for it. -/
def freshWrite (generator : Generator σ) : Except Trap (Operation × Generator σ) := do
  let (key, source) := Draws.token generator.length generator.source
  let (value, source) := Draws.token generator.length source
  let freshWrites ← Word.add generator.stats.freshWrites 1
  return (.write key value,
    { generator with
      source
      history := generator.history.push ⟨key, value⟩
      stats.freshWrites := freshWrites })

variable [IndexedByWord σ]

/-- What stands in the history at an index that is drawn. -/
def pick (generator : Generator σ) : Except Trap (Entry × σ) :=
  let size := generator.history.size
  if size = 0 then .error .noMembers
  else
    let (word, source) := IndexedByWord.word size generator.source
    -- Nothing but its value says here that the index is in range.
    match generator.history[highHalf word size]? with
    | some entry => .ok (entry, source)
    | none => .error .indexOutOfRange

/-- A write that repeats a member of the history. -/
def reusedWrite (generator : Generator σ) : Except Trap (Operation × Generator σ) := do
  let (entry, source) ← pick generator
  let reusedWrites ← Word.add generator.stats.reusedWrites 1
  return (.write entry.key entry.value,
    { generator with
      source
      history := generator.history.push entry
      stats.reusedWrites := reusedWrites })

/-- A read of a key of the history. -/
def read (generator : Generator σ) : Except Trap (Operation × Generator σ) := do
  let (entry, source) ← pick generator
  let reads ← Word.add generator.stats.reads 1
  return (.read entry.key, { generator with source, stats.reads := reads })

/-- A deletion of a key of the history. -/
def delete (generator : Generator σ) : Except Trap (Operation × Generator σ) := do
  let (entry, source) ← pick generator
  let deletes ← Word.add generator.stats.deletes 1
  return (.delete entry.key, { generator with source, stats.deletes := deletes })

/-- An operation of a kind that is drawn, or a fresh write while there is no history. -/
def mixed (generator : Generator σ) : Except Trap (Operation × Generator σ) :=
  if generator.history.size = 0 then freshWrite generator
  else
    let (kind, source) := Draws.kind generator.source
    match kind with
    | .read => read { generator with source }
    | .write =>
      let (fresh, source) := Draws.coin source
      if fresh then freshWrite { generator with source } else reusedWrite { generator with source }
    | .delete => delete { generator with source }

/-- The events of a call that makes an operation. -/
def events (generator : Generator σ) : Except Trap (List Event) :=
  if generator.emitted = generator.seeding then do
    let remaining ← Word.sub generator.total generator.emitted
    return [.seedingComplete generator.seeding remaining]
  else return []

/-- What a call makes while operations are to come, before it counts the operation. -/
def choose (generator : Generator σ) : Except Trap (Operation × Generator σ) :=
  if generator.emitted < generator.seeding then freshWrite generator else mixed generator

/-- The next operation. -/
def next (generator : Generator σ) : Except Trap (Step σ) :=
  if generator.emitted < generator.total then do
    let events ← events generator
    let (operation, rest) ← choose generator
    let emitted ← Word.add rest.emitted 1
    return ⟨some operation, events, { rest with emitted }⟩
  else return ⟨none, [], generator⟩

/-- The operations that `count` calls make, in order, and the generator after them. -/
def calls (generator : Generator σ) : (count : Nat) → Except Trap (List Operation × Generator σ)
  | 0 => return ([], generator)
  | count + 1 => do
    let (made, rest) ← calls generator count
    let step ← next rest
    return (made ++ step.operation?.toList, step.rest)

end

end Guarded

end Workload

end StoreTrial
