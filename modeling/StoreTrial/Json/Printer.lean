import StoreTrial.Json

/-!
# Printing JSON

A JSON value is printed in a layout, which is the blank space between its parts. `Json.compact`
leaves none, and `Json.pretty` gives every member of an array or object its own line. In a string,
only the quotation mark, the backslash and the control characters below the space are escaped.
-/

namespace StoreTrial.Json

/-- The blank space of a printed value. -/
structure Layout where
  /-- What stands before each member at a depth, and before the bracket that ends the members of
  the depth below it. -/
  lineBreak : Nat → List Char
  /-- What stands between the colon of a member and its value. -/
  gap : List Char

/-- The layout without blank space. -/
def Layout.compact : Layout := ⟨fun _ => [], []⟩

/-- The layout with a line for each member, indented by two spaces for each depth. -/
def Layout.pretty : Layout := ⟨fun depth => '\n' :: List.replicate (2 * depth) ' ', [' ']⟩

/-- The hexadecimal digit of a number below 16, in small letters. -/
def hexDigit (n : Nat) : Char := Nat.digitChar n

/-- The characters that stand for a character in a string. -/
def escape (c : Char) : List Char :=
  if c = '"' then ['\\', '"']
  else if c = '\\' then ['\\', '\\']
  else if 0x20 ≤ c.toNat then [c]
  else if c = '\x08' then ['\\', 'b']
  else if c = '\t' then ['\\', 't']
  else if c = '\n' then ['\\', 'n']
  else if c = '\x0c' then ['\\', 'f']
  else if c = '\r' then ['\\', 'r']
  else ['\\', 'u', '0', '0', hexDigit (c.toNat / 16), hexDigit (c.toNat % 16)]

/-- A string between its quotation marks. -/
def quote (s : String) : List Char := '"' :: s.toList.flatMap escape ++ ['"']

mutual

/-- A value at a depth. A foreign value is printed as a number that is not natural. -/
def render (layout : Layout) (depth : Nat) : Json → List Char
  | null => ['n', 'u', 'l', 'l']
  | bool true => ['t', 'r', 'u', 'e']
  | bool false => ['f', 'a', 'l', 's', 'e']
  | number n => Nat.toDigits 10 n
  | string s => quote s
  | array [] => ['[', ']']
  | array (item :: items) =>
    '[' :: layout.lineBreak (depth + 1) ++ render layout (depth + 1) item ++
      renderItems layout depth items ++ layout.lineBreak depth ++ [']']
  | object [] => ['{', '}']
  | object (member :: members) =>
    '{' :: layout.lineBreak (depth + 1) ++ renderMember layout depth member ++
      renderMembers layout depth members ++ layout.lineBreak depth ++ ['}']
  | foreign => ['-', '0']

/-- The items of an array after its first, for an array at a depth. -/
def renderItems (layout : Layout) (depth : Nat) : List Json → List Char
  | [] => []
  | item :: items =>
    ',' :: layout.lineBreak (depth + 1) ++ render layout (depth + 1) item ++
      renderItems layout depth items

/-- A member of an object at a depth. -/
def renderMember (layout : Layout) (depth : Nat) : String × Json → List Char
  | (name, value) => quote name ++ ':' :: layout.gap ++ render layout (depth + 1) value

/-- The members of an object after its first, for an object at a depth. -/
def renderMembers (layout : Layout) (depth : Nat) : List (String × Json) → List Char
  | [] => []
  | member :: members =>
    ',' :: layout.lineBreak (depth + 1) ++ renderMember layout depth member ++
      renderMembers layout depth members

end

/-- A value without blank space. -/
def compact (json : Json) : String := String.ofList (render .compact 0 json)

/-- A value with a line for each member. -/
def pretty (json : Json) : String := String.ofList (render .pretty 0 json)

end StoreTrial.Json
