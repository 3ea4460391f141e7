/-!
# Decimal numerals

The texts that denote integers: ASCII digits, with a sign where one is allowed.
There is no limit on the number of digits; ranges are the business of whoever
uses the number.
-/

namespace QueryGate.Text

/-- The number that a non-empty run of ASCII digits denotes. -/
def natOfDigits? (digits : List Char) : Option Nat :=
  if !digits.isEmpty && digits.all Char.isDigit then some (Nat.ofDigitChars 10 digits 0)
  else none

/-- The number that digits with an optional plus sign denote. -/
def natOfText? : List Char → Option Nat
  | '+' :: digits => natOfDigits? digits
  | digits => natOfDigits? digits

/-- The integer that digits with an optional sign denote. -/
def intOfText? : List Char → Option Int
  | '-' :: digits => (natOfDigits? digits).map fun magnitude => -(magnitude : Int)
  | '+' :: digits => (natOfDigits? digits).map Int.ofNat
  | digits => (natOfDigits? digits).map Int.ofNat

/-- The digits of a number, without leading zeros. -/
def digitsOf (value : Nat) : List Char := Nat.toDigits 10 value

/-- The shortest text of an integer. -/
def textOfInt : Int → List Char
  | .ofNat magnitude => digitsOf magnitude
  | .negSucc predecessor => '-' :: digitsOf (predecessor + 1)

/-- The least integer of 64 bits with a sign. -/
def leastInt64 : Int := -9223372036854775808

/-- The greatest integer of 64 bits with a sign. -/
def greatestInt64 : Int := 9223372036854775807

/-- The greatest integer of 64 bits without a sign. -/
def greatestNat64 : Nat := 18446744073709551615

/-- Whether an integer fits into 64 bits with a sign. -/
def fitsInt64 (value : Int) : Bool :=
  leastInt64 ≤ value && value ≤ greatestInt64

/-- Whether a number fits into 64 bits without a sign. -/
def fitsNat64 (value : Nat) : Bool :=
  value ≤ greatestNat64

end QueryGate.Text
