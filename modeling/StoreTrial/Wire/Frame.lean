import StoreTrial.Event
import StoreTrial.Text.Blank
import StoreTrial.Text.Decimal
import StoreTrial.Text.Lines

/-!
# Framed streams

Both streams of a trial have the same frame: a line with the number of entries, and then one entry
a line. A stream is read as a whole or not at all, since leaving out a bad line would set every
later outcome against the wrong operation. Lines after the announced entries are not read; those
among them that are not blank are counted.
-/

namespace StoreTrial

/-- The content of a stream. -/
structure Decoded (α : Type) where
  /-- The entries, in order. -/
  entries : List α
  /-- The number of lines after the last entry that are not blank. -/
  extra : Nat

/-- The warning about the lines that were not read, if there were any. -/
def Decoded.events {α : Type} (stream : Stream) (decoded : Decoded α) : List Event :=
  if decoded.extra = 0 then []
  else [.linesIgnored stream decoded.entries.length decoded.extra]

namespace Frame

open Text

/-- The text of a stream whose entries have the lines `entries`. -/
def encode (entries : List String) : String :=
  String.join ((entries.length.repr :: entries).map (· ++ "\n"))

/-- The number of entries that the first line of a stream announces. -/
def readCount (stream : Stream) (header : List Char) : Except Fault Nat :=
  match Decimal.read? (trim header) with
  | some count => .ok count.toNat
  | none => .error (.malformedLine stream 1 (.badCount (String.ofList (trim header))))

/-- Reads a stream whose entries are read by `entry` from the number of their line and the line.
The first line that is refused decides the fault, and a missing line comes after all others. -/
def decode {α : Type} (stream : Stream) (entry : Nat → List Char → Except Fault α)
    (text : String) : Except Fault (Decoded α) :=
  match lines text.toList with
  | [] => .error (.malformedLine stream 1 .missingCount)
  | header :: body => do
    let count ← readCount stream header
    let entries ← ((body.take count).zipIdx 2).mapM fun line => entry line.2 line.1
    if entries.length < count then
      .error (.malformedLine stream (entries.length + 2) (.truncated count entries.length))
    else
      .ok ⟨entries, (body.drop count).countP fun line => !line.all isBlank⟩

end Frame

end StoreTrial
