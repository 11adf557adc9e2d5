/-!
# Decimal numbers

The numbers of this library's texts are decimal and below `2 ^ 64`. A number is read from an
optional single `+` and one or more ASCII digits, with any number of leading zeros, and written
without either.
-/

namespace StoreTrial.Text.Decimal

/-- The text without the sign `+` that starts it, if one does. -/
def unsigned : List Char → List Char
  | '+' :: digits => digits
  | digits => digits

/-- The number that `text` denotes, if `text` is a decimal number below `2 ^ 64`. -/
def read? (text : List Char) : Option UInt64 :=
  let digits := unsigned text
  let value := Nat.ofDigitChars 10 digits 0
  if digits.isEmpty || !digits.all Char.isDigit then none
  else if h : value < UInt64.size then some (.ofNatLT value h)
  else none

/-- The digits of a number, without leading zeros. -/
def write (n : Nat) : String := n.repr

end StoreTrial.Text.Decimal
