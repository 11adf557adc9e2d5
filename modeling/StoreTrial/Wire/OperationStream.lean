import StoreTrial.Wire.Frame

/-!
# Streams of operations

The line of an operation holds the tag of its kind, its key and, for a write, its value, with blanks
between them. An operation is written only if it can be read back: its key and value are not empty
and hold no blank.
-/

namespace StoreTrial

open Text

namespace Operation

/-- Refuses a text that cannot be the field `field` of a line. -/
def checkField (field : Field) (text : String) : Except Fault Unit :=
  if text.isEmpty then .error (.invalidField field .empty)
  else if text.toList.any isBlank then .error (.invalidField field (.blank text))
  else .ok ()

/-- The line of an operation, whether or not the operation can be read back from it. -/
def render (operation : Operation) : String :=
  match operation with
  | read key => s!"{Kind.read.tag} {key}"
  | write key value => s!"{Kind.write.tag} {key} {value}"
  | delete key => s!"{Kind.delete.tag} {key}"

/-- The line of an operation that can be read back from it. The key is checked before the value. -/
def encode (operation : Operation) : Except Fault String := do
  checkField .key operation.key
  if let write _ value := operation then checkField .value value
  return operation.render

/-- The operation on a line, which is line number `number` of its stream. -/
def decode (number : Nat) (line : List Char) : Except Fault Operation :=
  match (fields line).map String.ofList with
  | [] => refuse .empty
  | tag :: arguments =>
    match Kind.ofTag? tag, arguments with
    | none, _ => refuse (.unknownTag tag)
    | some .read, [key] => .ok (read key)
    | some .write, [key, value] => .ok (write key value)
    | some .delete, [key] => .ok (delete key)
    | some kind, arguments => refuse (.wrongFieldCount kind arguments.length)
where
  /-- The fault of the line. -/
  refuse (cause : LineFault) : Except Fault Operation :=
    .error (.malformedLine .operations number cause)

end Operation

namespace OperationStream

/-- The text of a stream of operations. The first operation that cannot be written decides the
fault. -/
def encode (operations : List Operation) : Except Fault String :=
  return Frame.encode (← operations.mapM Operation.encode)

/-- The operations of a stream. -/
def decode (text : String) : Except Fault (Decoded Operation) :=
  Frame.decode .operations Operation.decode text

end OperationStream

end StoreTrial
