import StoreTrial.Store
import StoreTrial.Verdict
import StoreTrial.Wire.OperationStream
import StoreTrial.Wire.OutcomeStream

/-!
# Trials

The two runs that a trial is made of, from text to text: `expectedText` gives the outcomes that a
stream of operations must have, and `check` compares what a store answered with them. Both stop at
the first fault and report the events up to it.
-/

namespace StoreTrial

namespace Trial

/-- The entries of a stream that was read, with the warning about lines that were not read. -/
def entries {α : Type} (stream : Stream) (decoded : Except Fault (Decoded α)) : Trial (List α) := do
  let decoded ← ofExcept decoded
  tell (decoded.events stream)
  return decoded.entries

/-- The operations of a stream. -/
def operations (text : String) : Trial (List Operation) :=
  entries .operations (OperationStream.decode text)

/-- The outcomes of a stream. -/
def outcomes (text : String) : Trial (List Outcome) :=
  entries .outcomes (OutcomeStream.decode text)

/-- The stream of the outcomes that a stream of operations has on a new store. -/
def expectedText (stream : String) : Trial String := do
  let operations ← operations stream
  return OutcomeStream.encode (← replay operations)

/-- The verdict on the outcomes `actual` of operations. -/
def score (operations : List Operation) (actual : List Outcome) : Trial Verdict := do
  verify (← replay operations) actual

/-- The verdict on the outcomes `actual` of the operations in `stream`, both as texts. -/
def check (stream actual : String) : Trial Verdict := do
  let operations ← operations stream
  score operations (← outcomes actual)

end Trial

end StoreTrial
