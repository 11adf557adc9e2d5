/-!
# Blank characters

The characters that separate the fields of a line are those with the Unicode property
`White_Space`. This module holds the table of that property and the two ways in which a line is cut
at blanks: `trim` takes them off both ends, and `fields` splits at every run of them.
-/

namespace StoreTrial.Text

/-- The code points with the property `White_Space`, as inclusive ranges in ascending order. -/
def blankRanges : List (Nat × Nat) :=
  [(0x0009, 0x000D), (0x0020, 0x0020), (0x0085, 0x0085), (0x00A0, 0x00A0), (0x1680, 0x1680),
    (0x2000, 0x200A), (0x2028, 0x2029), (0x202F, 0x202F), (0x205F, 0x205F), (0x3000, 0x3000)]

/-- `isBlank c` is true when `c` has the property `White_Space`. -/
def isBlank (c : Char) : Bool :=
  blankRanges.any fun range => range.1 ≤ c.toNat && c.toNat ≤ range.2

/-- The text without the blanks at its start. -/
def trimStart (text : List Char) : List Char := text.dropWhile isBlank

/-- The text without the blanks at its end. -/
def trimEnd (text : List Char) : List Char := (text.reverse.dropWhile isBlank).reverse

/-- The text without the blanks at either end. -/
def trim (text : List Char) : List Char := trimEnd (trimStart text)

/-- The fields of a text: its longest runs of characters that are not blank, in order. -/
def fields (text : List Char) : List (List Char) :=
  (text.splitOnP isBlank).filter fun field => !field.isEmpty

/-- A line feed is blank. -/
theorem isBlank_lineFeed : isBlank '\n' = true := by decide

/-- A space is blank. -/
theorem isBlank_space : isBlank ' ' = true := by decide

end StoreTrial.Text
