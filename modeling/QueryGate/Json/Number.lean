import QueryGate.Number.Reader
import QueryGate.Number.Shortest

/-!
# Numbers of JSON texts

A numeral without fraction and exponent that fits into 64 bits is an integer; any
other is a double. A double is read with two roundings: the leading digits that
fit into 64 bits are rounded, and the result is multiplied or divided by the
rounded power of ten. That is the nearest double whenever both are exact.
-/

namespace QueryGate

open Text

/-- A number of a JSON value. Integers lie between `-2 ^ 63` and `2 ^ 64 - 1`. -/
inductive Number where
  | int (value : Int)
  | double (value : Double)
  deriving DecidableEq, Repr

namespace Number

/-- The text of a number. -/
def text : Number → List Char
  | int value => textOfInt value
  | double value => value.text

/-- A numeral as it stands in a JSON text. The fraction and the exponent are
absent when their marks are. -/
structure Numeral where
  negative : Bool
  whole : List Char
  fraction : Option (List Char)
  exponent : Option Int
  deriving DecidableEq, Repr

/-- Takes the leading digits that fit into 64 bits, after a number that is already
read, and counts the digits that are left. -/
def leadingDigits (significand : Nat) : List Char → Nat × Nat
  | [] => (significand, 0)
  | digit :: rest =>
      let longer := significand * 10 + (digit.toNat - 48)
      if fitsNat64 longer then leadingDigits longer rest
      else (significand, rest.length + 1)

/-- The power of ten rounded to a double, for a power up to 308. -/
def powerOfTen? (power : Nat) : Option Double :=
  Double.ofNat? (Nat.pow 10 power)

/-- The quotient `number / 10 ^ power`, in two divisions when the power of ten is no double. -/
def divideByPower (number : Double) (power : Nat) : Option Double := do
  if power ≤ 308 then number.div? (← powerOfTen? power)
  else if power ≤ 616 then
    (← number.div? (← powerOfTen? 308)).div? (← powerOfTen? (power - 308))
  else some (Double.zero false)

/-- The product `significand * 10 ^ power` with the two roundings, `none` when it is not finite. -/
def scaled? (significand : Nat) (power : Int) : Option Double := do
  let number ← Double.ofNat? significand
  match power with
  | .ofNat power =>
      if number.isZero then some number
      else if power ≤ 308 then number.mul? (← powerOfTen? power)
      else none
  | .negSucc predecessor => divideByPower number (predecessor + 1)

/-- The double that a numeral denotes, `none` when it is not finite. -/
def Numeral.double? (numeral : Numeral) : Option Double := do
  let fraction := numeral.fraction.getD []
  let (whole, skippedWhole) := leadingDigits 0 numeral.whole
  let (significand, skippedFraction) := leadingDigits whole fraction
  let taken : Nat := fraction.length - skippedFraction
  let power : Int := skippedWhole - taken + numeral.exponent.getD 0
  let magnitude ← scaled? significand power
  some (if numeral.negative then magnitude.neg else magnitude)

/-- The integer that a numeral denotes, `none` when it is a double. Minus zero is a double. -/
def Numeral.int? (numeral : Numeral) : Option Int :=
  match numeral.fraction, numeral.exponent with
  | none, none =>
      let magnitude := Nat.ofDigitChars 10 numeral.whole 0
      if numeral.negative then
        if 0 < magnitude ∧ fitsInt64 (-(magnitude : Int)) then some (-(magnitude : Int)) else none
      else if fitsNat64 magnitude then some magnitude
      else none
  | _, _ => none

/-- The number that a numeral denotes, `none` when it is not finite. -/
def ofNumeral? (numeral : Numeral) : Option Number :=
  match numeral.int? with
  | some value => some (int value)
  | none => numeral.double?.map double

/-- Cuts one or more digits off a text. -/
def cutDigits? (text : List Char) : Option (List Char × List Char) :=
  match text.takeWhile Char.isDigit with
  | [] => none
  | digits => some (digits, text.dropWhile Char.isDigit)

/-- Cuts the whole part off a text: a single zero, or digits that do not start with zero. -/
def cutWhole? : List Char → Option (List Char × List Char)
  | '0' :: rest =>
      match rest with
      | digit :: _ => if digit.isDigit then none else some (['0'], rest)
      | [] => some (['0'], [])
  | text => cutDigits? text

/-- Cuts a fraction off a text, if there is one. -/
def cutFraction? : List Char → Option (Option (List Char) × List Char)
  | '.' :: rest => (cutDigits? rest).map fun (digits, rest) => (some digits, rest)
  | text => some (none, text)

/-- Cuts an exponent off a text, if there is one. -/
def cutExponent? : List Char → Option (Option Int × List Char)
  | [] => some (none, [])
  | mark :: rest =>
      if mark = 'e' ∨ mark = 'E' then do
        let (negative, rest) := Double.cutSign rest
        let (digits, rest) ← cutDigits? rest
        let magnitude : Int := Nat.ofDigitChars 10 digits 0
        some (some (if negative then -magnitude else magnitude), rest)
      else some (none, mark :: rest)

/-- Cuts a numeral off a text. -/
def Numeral.read? (text : List Char) : Option (Numeral × List Char) := do
  let (negative, rest) :=
    match text with
    | '-' :: rest => (true, rest)
    | rest => (false, rest)
  let (whole, rest) ← cutWhole? rest
  let (fraction, rest) ← cutFraction? rest
  let (exponent, rest) ← cutExponent? rest
  some (⟨negative, whole, fraction, exponent⟩, rest)

end Number

end QueryGate
