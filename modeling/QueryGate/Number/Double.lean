/-!
# Finite doubles

The finite numbers of the IEEE 754 format binary64, kept as sign, mantissa and
binary exponent. All arithmetic is exact arithmetic on natural numbers followed
by one rounding, to nearest and with ties to the even mantissa.
-/

namespace QueryGate

/-- The number `±mantissa * 2 ^ exponent`. The mantissa has 53 bits, or fewer
when the exponent is the least one. -/
structure Double where
  negative : Bool
  mantissa : Nat
  exponent : Int
  deriving DecidableEq, Repr

namespace Double

/-- The exponent of the numbers below which mantissas get shorter. -/
def leastExponent : Int := -1074

/-- The exponent of the greatest finite number. -/
def greatestExponent : Int := 971

/-- The first mantissa that needs 53 bits. -/
def fullMantissa : Nat := 4503599627370496

/-- Zero of the given sign. -/
def zero (negative : Bool) : Double := ⟨negative, 0, leastExponent⟩

/-- Whether the number is zero of either sign. -/
def isZero (number : Double) : Bool := number.mantissa == 0

/-- The number with the other sign. -/
def neg (number : Double) : Double := { number with negative := !number.negative }

/-- A ratio's numerator and denominator after multiplying it by `2 ^ power`. -/
def scaleRatio (numerator denominator : Nat) (power : Int) : Nat × Nat :=
  match power with
  | .ofNat power => (numerator * Nat.pow 2 power, denominator)
  | .negSucc predecessor => (numerator, denominator * Nat.pow 2 (predecessor + 1))

/-- The natural number nearest to a ratio, the even one of two equally near. -/
def roundRatio (numerator denominator : Nat) : Nat :=
  let quotient := numerator / denominator
  let twice := 2 * (numerator % denominator)
  if twice < denominator then quotient
  else if denominator < twice then quotient + 1
  else if quotient % 2 = 0 then quotient
  else quotient + 1

/-- The exponent at which a positive ratio is rounded: the one that gives the
mantissa 53 bits, unless that lies below the least exponent. -/
def exponentFor (numerator denominator : Nat) : Int :=
  let guess : Int := (Nat.log2 numerator : Int) - (Nat.log2 denominator : Int) - 53
  let (above, below) := scaleRatio numerator denominator (-guess)
  let exponent := if above < 2 * fullMantissa * below then guess else guess + 1
  max leastExponent exponent

/-- The double nearest to `±numerator / denominator`, `none` when the ratio is
too great for a finite one. The denominator is positive. -/
def ofRatio? (negative : Bool) (numerator denominator : Nat) : Option Double :=
  if numerator = 0 then some (zero negative)
  else
    let exponent := exponentFor numerator denominator
    let (above, below) := scaleRatio numerator denominator (-exponent)
    let mantissa := roundRatio above below
    let rounded : Double :=
      if mantissa = 2 * fullMantissa then ⟨negative, fullMantissa, exponent + 1⟩
      else ⟨negative, mantissa, exponent⟩
    if rounded.exponent ≤ greatestExponent then some rounded else none

/-- The absolute value as a ratio. -/
def ratio (number : Double) : Nat × Nat :=
  scaleRatio number.mantissa 1 number.exponent

/-- The rounded product, `none` when it is not finite. -/
def mul? (left right : Double) : Option Double :=
  let (leftAbove, leftBelow) := left.ratio
  let (rightAbove, rightBelow) := right.ratio
  ofRatio? (left.negative != right.negative) (leftAbove * rightAbove) (leftBelow * rightBelow)

/-- The rounded quotient by a divisor that is not zero, `none` when it is not finite. -/
def div? (left right : Double) : Option Double :=
  let (leftAbove, leftBelow) := left.ratio
  let (rightAbove, rightBelow) := right.ratio
  ofRatio? (left.negative != right.negative) (leftAbove * rightBelow) (leftBelow * rightAbove)

/-- The double nearest to a natural number. -/
def ofNat? (value : Nat) : Option Double :=
  ofRatio? false value 1

/-- The double nearest to an integer. -/
def ofInt? : Int → Option Double
  | .ofNat magnitude => ofRatio? false magnitude 1
  | .negSucc predecessor => ofRatio? true (predecessor + 1) 1

/-- The value with its sign, as numerator and denominator. -/
def signedRatio (number : Double) : Int × Nat :=
  let (above, below) := number.ratio
  (if number.negative then -(above : Int) else above, below)

/-- Whether one number is less than another; the two zeros are equal. -/
def lt (left right : Double) : Bool :=
  let (leftAbove, leftBelow) := left.signedRatio
  let (rightAbove, rightBelow) := right.signedRatio
  leftAbove * rightBelow < rightAbove * leftBelow

/-- The double nearest to `±digits * 10 ^ power`, `none` when that is too great
for a finite one. -/
def ofDecimal? (negative : Bool) (digits : Nat) (power : Int) : Option Double :=
  let length : Int := (Nat.toDigits 10 digits).length
  if digits = 0 then some (zero negative)
  else if 400 < length + power then none
  else if length + power < -400 then some (zero negative)
  else
    match power with
    | .ofNat power => ofRatio? negative (digits * Nat.pow 10 power) 1
    | .negSucc predecessor => ofRatio? negative digits (Nat.pow 10 (predecessor + 1))

end Double

end QueryGate
