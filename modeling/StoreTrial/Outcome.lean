/-!
# Outcomes

What a store answers to an operation. An outcome stands on one line: the value that was read, or
one of two markers. A value that is spelled like a marker has the same line as the marker, so
outcomes are compared by their lines.
-/

namespace StoreTrial

/-- The answer of a store to one operation. -/
inductive Outcome where
  /-- The value that a read found. -/
  | value (text : String)
  /-- A write, or the deletion of a key that was there. -/
  | success
  /-- A read or a deletion of a key that was not there. -/
  | notFound
deriving DecidableEq

namespace Outcome

/-- The line of a success. -/
def successMarker : String := "-SUCCESS-"

/-- The line of a key that was not there. -/
def notFoundMarker : String := "-ERROR-"

/-- The line of an outcome. -/
def line : Outcome → String
  | value text => text
  | success => successMarker
  | notFound => notFoundMarker

/-- The outcome that a line stands for: a marker's, or else the line as a value. -/
def ofLine (line : String) : Outcome :=
  if line = successMarker then success
  else if line = notFoundMarker then notFound
  else value line

/-- The outcome of a line has that line. -/
@[simp]
theorem line_ofLine (line : String) : (ofLine line).line = line := by
  unfold ofLine
  split
  · simp_all [Outcome.line]
  · split <;> simp_all [Outcome.line]

end Outcome

end StoreTrial
