import StoreTrial.Outcome
import StoreTrial.Wire.Frame

/-!
# Streams of outcomes

The line of an outcome is its own line, whatever it holds. Blanks around it are not part of it when
it is read, so no line of outcomes is ever refused.
-/

namespace StoreTrial.OutcomeStream

open Text

/-- The text of a stream of outcomes. -/
def encode (outcomes : List Outcome) : String := Frame.encode (outcomes.map Outcome.line)

/-- The outcomes of a stream. -/
def decode (text : String) : Except Fault (Decoded Outcome) :=
  Frame.decode .outcomes (fun _ line => .ok (Outcome.ofLine (String.ofList (trim line)))) text

end StoreTrial.OutcomeStream
