import StoreTrial.Logged
import StoreTrial.Outcome

/-!
# Verdicts

Expected outcomes are compared with actual ones position by position and by their lines. Positions
that only one side has show in the two lengths and are no mismatches. All mismatches are counted,
and the first hundred are kept for the report. The first one is reported as soon as it is found.
-/

namespace StoreTrial

/-- A position at which two lists of outcomes differ. -/
structure Mismatch where
  /-- The position, counted from 0. -/
  index : Nat
  /-- What the model store answers. -/
  expected : Outcome
  /-- What the store under trial answered. -/
  actual : Outcome
deriving DecidableEq

/-- The result of comparing two lists of outcomes. -/
structure Verdict where
  /-- The length of the expected list. -/
  expectedCount : Nat
  /-- The length of the actual list. -/
  actualCount : Nat
  /-- The number of positions at which the lists agree. -/
  matched : Nat
  /-- The number of positions at which the lists differ. -/
  mismatchCount : Nat
  /-- The first positions at which the lists differ. -/
  mismatches : List Mismatch
deriving DecidableEq

namespace Verdict

/-- The number of mismatches that a verdict keeps. -/
def mismatchLimit : Nat := 100

/-- `passed` is true when the lists have one length and agree everywhere. -/
def passed (verdict : Verdict) : Bool :=
  verdict.expectedCount == verdict.actualCount && verdict.mismatchCount == 0

/-- The verdict with the outcomes at one more position taken into account. The first mismatch is
reported. -/
def note (verdict : Verdict) (index : Nat) (expected actual : Outcome) : Logged Verdict :=
  if expected.line = actual.line then pure { verdict with matched := verdict.matched + 1 }
  else do
    if verdict.mismatchCount = 0 then
      Logged.tell [.firstMismatch index expected.line actual.line]
    let mismatches :=
      if verdict.mismatches.length < mismatchLimit then
        verdict.mismatches ++ [⟨index, expected, actual⟩]
      else verdict.mismatches
    return { verdict with mismatchCount := verdict.mismatchCount + 1, mismatches }

/-- The lines of the report on a verdict. A trial that passed has one line. -/
def reportLines (verdict : Verdict) : List String :=
  let agreement := s!"{verdict.matched} of {verdict.expectedCount} results match"
  if verdict.passed then [s!"PASS: {agreement}"]
  else
    let counts :=
      if verdict.expectedCount = verdict.actualCount then []
      else [s!"  count mismatch: expected {verdict.expectedCount}, got {verdict.actualCount}"]
    let listed := verdict.mismatches.map fun mismatch =>
      s!"  operation {mismatch.index + 1}: expected {mismatch.expected.line}, " ++
        s!"got {mismatch.actual.line}"
    let unlisted := verdict.mismatchCount - verdict.mismatches.length
    let more := if unlisted = 0 then [] else [s!"  ... {unlisted} more mismatches"]
    s!"FAIL: {agreement}" :: counts ++ listed ++ more

/-- The report on a verdict, for people. -/
def report (verdict : Verdict) : String := "\n".intercalate verdict.reportLines

end Verdict

/-- The verdict on actual outcomes. -/
def verify (expected actual : List Outcome) : Logged Verdict :=
  (expected.zip actual).zipIdx.foldl
    (fun verdict pair => do (← verdict).note pair.2 pair.1.1 pair.1.2)
    (pure ⟨expected.length, actual.length, 0, 0, []⟩)

end StoreTrial
