import StoreTrial.Json

/-!
# Reading JSON

The grammar of JSON, read by recursive descent. The depth of the recursion is bounded by twice the
length of the text, since of two steps down at least one reads a character. A natural number is read
as a number, and every other number as a foreign value. A string in which half of a surrogate pair
stands alone is foreign, and so is an object with such a name.
-/

namespace StoreTrial.Json

/-- A part of a string as it is written: a character, or the number of an escape with `u`. -/
inductive Part where
  /-- A character, or the escape of one letter that stands for it. -/
  | char (c : Char)
  /-- The escape with `u` of a 16-bit number. -/
  | unit (n : Nat)

/-- The value of a hexadecimal digit. -/
def hexValue? (c : Char) : Option Nat :=
  if '0' ≤ c ∧ c ≤ '9' then some (c.toNat - '0'.toNat)
  else if 'a' ≤ c ∧ c ≤ 'f' then some (c.toNat - 'a'.toNat + 10)
  else if 'A' ≤ c ∧ c ≤ 'F' then some (c.toNat - 'A'.toNat + 10)
  else none

/-- The value of four hexadecimal digits. -/
def unit? (a b c d : Char) : Option Nat := do
  let a ← hexValue? a
  let b ← hexValue? b
  let c ← hexValue? c
  let d ← hexValue? d
  return ((a * 16 + b) * 16 + c) * 16 + d

/-- The character that a backslash and a letter stand for. -/
def unescape? : Char → Option Char
  | '"' => some '"'
  | '\\' => some '\\'
  | '/' => some '/'
  | 'b' => some '\x08'
  | 'f' => some '\x0c'
  | 'n' => some '\n'
  | 'r' => some '\r'
  | 't' => some '\t'
  | _ => none

/-- The parts of a string up to its closing quotation mark, and the text after it. -/
def readParts : List Char → Option (List Part × List Char)
  | [] => none
  | '"' :: rest => some ([], rest)
  | '\\' :: 'u' :: a :: b :: c :: d :: rest => do
    let unit ← unit? a b c d
    let (parts, rest) ← readParts rest
    return (.unit unit :: parts, rest)
  | '\\' :: letter :: rest => do
    let c ← unescape? letter
    let (parts, rest) ← readParts rest
    return (.char c :: parts, rest)
  | c :: rest =>
    if c.toNat < 0x20 then none
    else do
      let (parts, rest) ← readParts rest
      return (.char c :: parts, rest)

/-- The characters of a string, unless half of a surrogate pair stands alone in it. -/
def assemble : List Part → Option (List Char)
  | [] => some []
  | .char c :: parts => (assemble parts).map (c :: ·)
  | .unit n :: parts =>
    if n < 0xD800 ∨ 0xDFFF < n then (assemble parts).map (Char.ofNat n :: ·)
    else if n < 0xDC00 then
      match parts with
      | .unit low :: parts =>
        if 0xDC00 ≤ low ∧ low ≤ 0xDFFF then
          (assemble parts).map
            (Char.ofNat (0x10000 + (n - 0xD800) * 0x400 + (low - 0xDC00)) :: ·)
        else none
      | _ => none
    else none

/-- `isSpace c` is true of the characters that may stand between the parts of a value. -/
def isSpace (c : Char) : Bool := c == ' ' || c == '\n' || c == '\t' || c == '\r'

/-- The text without the blank space at its start. -/
def skipSpace (text : List Char) : List Char := text.dropWhile isSpace

/-- Reads one or more digits, and gives back the text after them. -/
def skipDigits? (text : List Char) : Option (List Char) :=
  match text with
  | c :: rest => if c.isDigit then some (rest.dropWhile Char.isDigit) else none
  | [] => none

/-- The fraction of a number, if the text starts with one: whether it does, and the text after
it. -/
def readFraction : List Char → Option (Bool × List Char)
  | '.' :: rest => (skipDigits? rest).map (true, ·)
  | text => some (false, text)

/-- The exponent of a number, if the text starts with one: whether it does, and the text after
it. -/
def readExponent (text : List Char) : Option (Bool × List Char) :=
  let afterSign : List Char → List Char
    | '+' :: rest => rest
    | '-' :: rest => rest
    | rest => rest
  match text with
  | 'e' :: rest => (skipDigits? (afterSign rest)).map (true, ·)
  | 'E' :: rest => (skipDigits? (afterSign rest)).map (true, ·)
  | text => some (false, text)

/-- A number without its sign and the text after it. It does not start with a zero unless its
integral part is zero. -/
def readUnsigned (text : List Char) : Option (Json × List Char) := do
  let digits := text.takeWhile Char.isDigit
  if digits.isEmpty ∨ (digits.head? = some '0' ∧ digits ≠ ['0']) then none
  else
    let (fraction, rest) ← readFraction (text.dropWhile Char.isDigit)
    let (exponent, rest) ← readExponent rest
    let value := if fraction || exponent then foreign else number (Nat.ofDigitChars 10 digits 0)
    return (value, rest)

/-- A number and the text after it. -/
def readNumber : List Char → Option (Json × List Char)
  | '-' :: rest => (readUnsigned rest).map fun result => (foreign, result.2)
  | text => readUnsigned text

/-- A string without its opening quotation mark, and the text after it. The string is missing if
it is foreign. -/
def readString (text : List Char) : Option (Option String × List Char) := do
  let (parts, rest) ← readParts text
  return ((assemble parts).map String.ofList, rest)

/-- The object of members of which some may have a foreign name. -/
def ofMembers (members : List (Option String × Json)) : Json :=
  match members.mapM fun member => member.1.map fun name => (name, member.2) with
  | some members => object members
  | none => foreign

mutual

/-- The value that a text starts with and the text after it. -/
def readValue : (fuel : Nat) → List Char → Option (Json × List Char)
  | 0, _ => none
  | fuel + 1, text =>
    match skipSpace text with
    | 'n' :: 'u' :: 'l' :: 'l' :: rest => some (null, rest)
    | 't' :: 'r' :: 'u' :: 'e' :: rest => some (bool true, rest)
    | 'f' :: 'a' :: 'l' :: 's' :: 'e' :: rest => some (bool false, rest)
    | '"' :: rest => (readString rest).map fun result =>
      ((result.1.map string).getD foreign, result.2)
    | '[' :: rest =>
      match skipSpace rest with
      | ']' :: rest => some (array [], rest)
      | rest => (readItems fuel rest).map fun result => (array result.1, result.2)
    | '{' :: rest =>
      match skipSpace rest with
      | '}' :: rest => some (object [], rest)
      | rest => (readMembers fuel rest).map fun result => (ofMembers result.1, result.2)
    | text => readNumber text

/-- The items of an array up to its closing bracket, of which there is at least one, and the text
after the bracket. -/
def readItems : (fuel : Nat) → List Char → Option (List Json × List Char)
  | 0, _ => none
  | fuel + 1, text => do
    let (item, rest) ← readValue fuel text
    match skipSpace rest with
    | ',' :: rest =>
      let (items, rest) ← readItems fuel rest
      return (item :: items, rest)
    | ']' :: rest => return ([item], rest)
    | _ => none

/-- The members of an object up to its closing bracket, of which there is at least one, and the
text after the bracket. -/
def readMembers : (fuel : Nat) → List Char → Option (List (Option String × Json) × List Char)
  | 0, _ => none
  | fuel + 1, text => do
    match skipSpace text with
    | '"' :: rest =>
      let (name, rest) ← readString rest
      match skipSpace rest with
      | ':' :: rest =>
        let (value, rest) ← readValue fuel rest
        match skipSpace rest with
        | ',' :: rest =>
          let (members, rest) ← readMembers fuel rest
          return ((name, value) :: members, rest)
        | '}' :: rest => return ([(name, value)], rest)
        | _ => none
      | _ => none
    | _ => none

end

/-- The value that a text denotes, if the whole text denotes one. -/
def parse? (text : String) : Option Json :=
  let text := text.toList
  match readValue (2 * text.length + 1) text with
  | some (json, rest) => if (skipSpace rest).isEmpty then some json else none
  | none => none

end StoreTrial.Json
