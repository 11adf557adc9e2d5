/-!
# JSON values

The JSON values that records are made of. Their numbers are naturals. Every other value that JSON
has, such as a fraction or a string with half of a surrogate pair in it, is `foreign`: it may stand
where a record's reader looks at nothing, and no record holds it.
-/

namespace StoreTrial

/-- A JSON value. -/
inductive Json where
  /-- The value `null`. -/
  | null
  /-- A truth value. -/
  | bool (b : Bool)
  /-- A natural number. -/
  | number (n : Nat)
  /-- A string. -/
  | string (s : String)
  /-- An array. -/
  | array (items : List Json)
  /-- An object: its names and values in order, with repetition. -/
  | object (members : List (String × Json))
  /-- A value that no record holds. -/
  | foreign

end StoreTrial
