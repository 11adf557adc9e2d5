import StoreTrial.Text.Lines

/-!
# Flat TOML documents

The TOML documents in which every line assigns an integer to a name. A configuration file is such a
document, so every document with a table or another value is refused, whatever it holds. Integers
are those of 64 signed bits, in base ten with an optional sign, or in base sixteen, eight or two
with a base mark. An underscore may stand between two digits. A name is bare or in quotation marks.
-/

namespace StoreTrial.Toml

open Text

/-- The blank characters within a line. -/
def isGap (c : Char) : Bool := c == ' ' || c == '\t'

/-- The text without the blank characters at its start. -/
def skipGap (text : List Char) : List Char := text.dropWhile isGap

/-- `isPrintable c` is true of the characters that may stand in a comment or a quoted name: all but
the control characters, of which only the tab is allowed. -/
def isPrintable (c : Char) : Bool := c == '\t' || (0x20 ≤ c.toNat && c.toNat != 0x7F)

/-- `isBare c` is true of the characters of a bare name. -/
def isBare (c : Char) : Bool := c.isAlphanum || c == '_' || c == '-'

/-- The value of a digit in a base up to sixteen. -/
def digitValue? (base : Nat) (c : Char) : Option Nat :=
  let value :=
    if '0' ≤ c ∧ c ≤ '9' then c.toNat - '0'.toNat
    else if 'a' ≤ c ∧ c ≤ 'f' then c.toNat - 'a'.toNat + 10
    else if 'A' ≤ c ∧ c ≤ 'F' then c.toNat - 'A'.toNat + 10
    else base
  if value < base then some value else none

/-- The number with the digits `digits` in a base. -/
def ofDigits? (base : Nat) (digits : List Char) : Option Nat :=
  digits.foldlM (fun value c => (digitValue? base c).map (base * value + ·)) 0

/-- The digits of a number, in which single underscores may stand between two digits. -/
def withoutUnderscores? (text : List Char) : Option (List Char) :=
  let groups := text.splitOn '_'
  if groups.any List.isEmpty then none else some groups.flatten

/-- The natural number in a base, without a base mark. -/
def natural? (base : Nat) (text : List Char) : Option Nat :=
  withoutUnderscores? text >>= ofDigits? base

/-- The natural number in base ten, which starts with a zero only if it is zero. -/
def decimal? (text : List Char) : Option Nat :=
  if text.head? = some '0' ∧ text ≠ ['0'] then none else natural? 10 text

/-- The integer that a word denotes, if it denotes one of 64 signed bits. -/
def integer? (word : List Char) : Option Int := do
  let value : Int ←
    match word with
    | '0' :: 'x' :: digits => natural? 16 digits
    | '0' :: 'o' :: digits => natural? 8 digits
    | '0' :: 'b' :: digits => natural? 2 digits
    | '-' :: digits => (decimal? digits).map fun n => -(n : Int)
    | '+' :: digits => decimal? digits
    | digits => decimal? digits
  if Int64.minValue.toInt ≤ value ∧ value ≤ Int64.maxValue.toInt then some value else none

/-- The character that an escape with `u` or `U` and the digits `digits` stands for. -/
def codePoint? (digits : List Char) : Option Char := do
  let value ← ofDigits? 16 digits
  if value.isValidChar then some (Char.ofNat value) else none

/-- The character that a backslash and a letter stand for. -/
def unescape? : Char → Option Char
  | 'b' => some '\x08'
  | 't' => some '\t'
  | 'n' => some '\n'
  | 'f' => some '\x0c'
  | 'r' => some '\r'
  | '"' => some '"'
  | '\\' => some '\\'
  | _ => none

/-- The characters of a name up to its closing quotation mark `"`, and the text after it. -/
def readQuoted : List Char → Option (List Char × List Char)
  | [] => none
  | '"' :: rest => some ([], rest)
  | '\\' :: 'u' :: a :: b :: c :: d :: rest => do
    let first ← codePoint? [a, b, c, d]
    let (name, rest) ← readQuoted rest
    return (first :: name, rest)
  | '\\' :: 'U' :: a :: b :: c :: d :: e :: f :: g :: h :: rest => do
    let first ← codePoint? [a, b, c, d, e, f, g, h]
    let (name, rest) ← readQuoted rest
    return (first :: name, rest)
  | '\\' :: letter :: rest => do
    let first ← unescape? letter
    let (name, rest) ← readQuoted rest
    return (first :: name, rest)
  | c :: rest =>
    if isPrintable c && c != '\\' then do
      let (name, rest) ← readQuoted rest
      return (c :: name, rest)
    else none

/-- The name that a text starts with, and the text after it. -/
def readName (text : List Char) : Option (String × List Char) :=
  match text with
  | '"' :: rest => (readQuoted rest).map fun result => (String.ofList result.1, result.2)
  | '\'' :: rest =>
    let name := rest.takeWhile (· != '\'')
    match rest.dropWhile (· != '\'') with
    | _ :: rest => if name.all isPrintable then some (String.ofList name, rest) else none
    | [] => none
  | text =>
    let name := text.takeWhile isBare
    if name.isEmpty then none else some (String.ofList name, text.dropWhile isBare)

/-- `isComment text` is true of the end of a line after its assignment: nothing, or a comment. -/
def isComment : List Char → Bool
  | [] => true
  | '#' :: comment => comment.all isPrintable
  | _ => false

/-- The assignment on a line, or nothing if the line has none; no result if the line is refused. -/
def readLine (line : List Char) : Option (Option (String × Int)) := do
  let line := skipGap line
  if isComment line then return none
  let (name, rest) ← readName line
  let '=' :: rest := skipGap rest | none
  let rest := skipGap rest
  let isWord := fun c => !isGap c && c != '#'
  let value ← integer? (rest.takeWhile isWord)
  if isComment (skipGap (rest.dropWhile isWord)) then return some (name, value) else none

/-- The text without the byte order mark that starts it, if one does. -/
def skipMark : List Char → List Char
  | '\uFEFF' :: rest => rest
  | text => text

/-- The assignments of a document, in order, unless a line is refused or a name is assigned
twice. -/
def parse? (text : String) : Option (List (String × Int)) := do
  let assignments ← (lines (skipMark text.toList)).mapM readLine
  let assignments := assignments.filterMap id
  if (assignments.map (·.1)).Nodup then return assignments else none

end StoreTrial.Toml
