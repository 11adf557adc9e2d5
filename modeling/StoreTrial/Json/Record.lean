import StoreTrial.Json.Parser
import StoreTrial.Json.Printer
import StoreTrial.Verdict
import StoreTrial.Workload.Config

/-!
# Records in JSON

How the types of a trial stand in JSON. A structure is an object with its fields by name; it is
also read from an array of them in order. A constructor without fields is its name; one with fields
is an object whose only member has the name of the constructor and holds the fields. A name without
fields is also read from such an object that holds `null`.
-/

namespace StoreTrial

/-- The types whose values stand in JSON. -/
class InJson (α : Type) where
  /-- The JSON value of a value. -/
  toJson : α → Json
  /-- The value that a JSON value stands for, if it stands for one. -/
  ofJson? : Json → Option α

export InJson (toJson ofJson?)

namespace Json

/-- The text of a value in JSON, without blank space. -/
def write {α : Type} [InJson α] (a : α) : String := (toJson a).compact

/-- The value of a text in JSON. -/
def read? {α : Type} [InJson α] (text : String) : Option α := parse? text >>= ofJson?

/-- A structure as it is read: the value of each field, if it is there. -/
abbrev FieldValues := List (Option Json)

/-- The values of the members with one of the names `names`, in the order of `names`. No name may
stand twice, and `closed` is true when no other name may stand at all. -/
def membersNamed (names : List String) (closed : Bool) (members : List (String × Json)) :
    Option FieldValues :=
  let values := names.map fun name => (members.filter fun member => member.1 == name).map (·.2)
  if values.any fun values => 1 < values.length then none
  else if closed && members.any fun member => !names.contains member.1 then none
  else some (values.map List.head?)

/-- The fields of a structure whose fields have the names `names`. -/
def fields? (names : List String) (closed : Bool) : Json → Option FieldValues
  | object members => membersNamed names closed members
  | array items =>
    if items.length ≤ names.length then
      some (items.map some ++ List.replicate (names.length - items.length) none)
    else none
  | _ => none

/-- A constructor as it is read: its name, and what it holds, if it holds something. -/
def constructor? : Json → Option (String × Option Json)
  | string name => some (name, none)
  | object [(name, content)] => some (name, some content)
  | _ => none

/-- `holdsNothing content` is true of the content of a constructor without fields. -/
def holdsNothing : Option Json → Bool
  | none => true
  | some null => true
  | _ => false

end Json

open Json

instance : InJson String where
  toJson := string
  ofJson?
    | string s => some s
    | _ => none

instance : InJson UInt64 where
  toJson n := number n.toNat
  ofJson?
    | number n => if h : n < UInt64.size then some (.ofNatLT n h) else none
    | _ => none

instance : InJson Nat where
  toJson := number
  ofJson?
    | number n => if n < UInt64.size then some n else none
    | _ => none

instance {α : Type} [InJson α] : InJson (List α) where
  toJson items := array (items.map toJson)
  ofJson?
    | array items => items.mapM ofJson?
    | _ => none

/-- The JSON name of a kind. -/
def Kind.jsonName : Kind → String
  | .read => "Read"
  | .write => "Write"
  | .delete => "Delete"

instance : InJson Kind where
  toJson kind := string kind.jsonName
  ofJson? json := do
    let (name, content) ← constructor? json
    if holdsNothing content then Kind.all.find? fun kind => kind.jsonName == name else none

instance : InJson Operation where
  toJson operation :=
    let value : List (String × Json) :=
      match operation with
      | .write _ value => [("value", toJson value)]
      | _ => []
    object [(operation.kind.jsonName, object (("key", toJson operation.key) :: value))]
  ofJson? json :=
    match constructor? json with
    | some ("Read", some content) => do
      let [some key] ← fields? ["key"] false content | none
      return .read (← ofJson? key)
    | some ("Write", some content) => do
      let [some key, some value] ← fields? ["key", "value"] false content | none
      return .write (← ofJson? key) (← ofJson? value)
    | some ("Delete", some content) => do
      let [some key] ← fields? ["key"] false content | none
      return .delete (← ofJson? key)
    | _ => none

instance : InJson Outcome where
  toJson
    | .value text => object [("Value", toJson text)]
    | .success => string "Success"
    | .notFound => string "NotFound"
  ofJson? json :=
    match constructor? json with
    | some ("Value", some content) => do return .value (← ofJson? content)
    | some ("Success", content) => if holdsNothing content then some .success else none
    | some ("NotFound", content) => if holdsNothing content then some .notFound else none
    | _ => none

instance : InJson Workload.Stats where
  toJson stats :=
    object [("reads", toJson stats.reads), ("fresh_writes", toJson stats.freshWrites),
      ("reused_writes", toJson stats.reusedWrites), ("deletes", toJson stats.deletes)]
  ofJson? json := do
    let names := ["reads", "fresh_writes", "reused_writes", "deletes"]
    let [some reads, some freshWrites, some reusedWrites, some deletes] ← fields? names false json
      | none
    return ⟨← ofJson? reads, ← ofJson? freshWrites, ← ofJson? reusedWrites, ← ofJson? deletes⟩

/-- The seed of a configuration as it is read: `null` is no seed. -/
def Json.seed? : Option Json → Option (Option UInt64)
  | none => some none
  | some null => some none
  | some json => (ofJson? json).map some

instance : InJson Workload.Config where
  toJson config :=
    let seed : List (String × Json) :=
      match config.seed with
      | some seed => [("seed", toJson seed)]
      | none => []
    object (("request_count", toJson config.requestCount) ::
      ("key_value_length", toJson config.length) :: seed)
  ofJson? json := do
    let names := ["request_count", "key_value_length", "seed"]
    let [some requestCount, length, seed] ← fields? names true json | none
    let length ←
      match length with
      | some length => ofJson? length
      | none => some Workload.Config.defaultLength
    return ⟨← ofJson? requestCount, length, ← seed? seed⟩

instance : InJson Mismatch where
  toJson mismatch :=
    object [("index", toJson mismatch.index), ("expected", toJson mismatch.expected),
      ("actual", toJson mismatch.actual)]
  ofJson? json := do
    let names := ["index", "expected", "actual"]
    let [some index, some expected, some actual] ← fields? names false json | none
    return ⟨← ofJson? index, ← ofJson? expected, ← ofJson? actual⟩

instance : InJson Verdict where
  toJson verdict :=
    object [("expected_count", toJson verdict.expectedCount),
      ("actual_count", toJson verdict.actualCount), ("matched", toJson verdict.matched),
      ("mismatch_count", toJson verdict.mismatchCount),
      ("mismatches", toJson verdict.mismatches)]
  ofJson? json := do
    let names := ["expected_count", "actual_count", "matched", "mismatch_count", "mismatches"]
    let [some expectedCount, some actualCount, some matched, some mismatchCount, some mismatches]
      ← fields? names false json | none
    return ⟨← ofJson? expectedCount, ← ofJson? actualCount, ← ofJson? matched,
      ← ofJson? mismatchCount, ← ofJson? mismatches⟩

/-- The report on a verdict, for programs. -/
def Verdict.jsonReport (verdict : Verdict) : String := (toJson verdict).pretty

/-- The report on a fault, for programs. -/
def Fault.jsonReport (fault : Fault) : String := (object [("error", toJson fault.message)]).pretty

end StoreTrial
