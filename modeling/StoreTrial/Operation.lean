/-!
# Operations

A trial exercises a key-value store with operations of three kinds. On a line, a kind stands as a
one-digit tag in front of the operation's key and, for a write, its value.
-/

namespace StoreTrial

/-- The kinds of operation. -/
inductive Kind where
  /-- A read of the value under a key. -/
  | read
  /-- A write of a value under a key. -/
  | write
  /-- A deletion of a key. -/
  | delete
deriving DecidableEq

namespace Kind

/-- The kinds in the order of their tags. -/
def all : List Kind := [read, write, delete]

/-- The tag that stands for the kind on a line. -/
def tag : Kind → String
  | read => "1"
  | write => "2"
  | delete => "3"

/-- The kind that a tag stands for, if it stands for one. -/
def ofTag? (tag : String) : Option Kind := all.find? fun kind => kind.tag == tag

/-- The name of the kind in reports. -/
def name : Kind → String
  | read => "read"
  | write => "write"
  | delete => "delete"

/-- The number of fields on a line of the kind, the tag among them. -/
def fieldCount : Kind → Nat
  | read => 2
  | write => 3
  | delete => 2

/-- The kind of a tag is the only one that the tag stands for. -/
theorem ofTag?_eq_some_iff {tag : String} {kind : Kind} :
    ofTag? tag = some kind ↔ kind.tag = tag := by
  constructor
  · intro h
    simpa using List.find?_some h
  · rintro rfl
    cases kind <;> decide

end Kind

/-- An operation on a key-value store. -/
inductive Operation where
  /-- Reads the value under `key`. -/
  | read (key : String)
  /-- Puts `value` under `key`, in place of any value there. -/
  | write (key value : String)
  /-- Removes `key` and its value. -/
  | delete (key : String)
deriving DecidableEq

namespace Operation

/-- The kind of an operation. -/
def kind : Operation → Kind
  | read _ => .read
  | write _ _ => .write
  | delete _ => .delete

/-- The key that an operation is about. -/
def key : Operation → String
  | read key => key
  | write key _ => key
  | delete key => key

end Operation

end StoreTrial
