import QueryGate.Number.Double

/-!
# The shortest text of a double

A double is written with the fewest significant digits that read back to it, and
of those with the ones nearest to it. The digits are found by trying one digit,
two digits and so on: on each decimal grid only the two neighbours of the value
can be hit.
-/

namespace QueryGate.Double

/-- Significant digits, the first and last of them not zero, with the decimal
point `point` places after the start: `0.digits * 10 ^ point`. -/
structure Decimal where
  digits : List Char
  point : Int
  deriving DecidableEq, Repr

/-- The ratios, over four times the value's denominator, between which decimals
read back to a positive double: its own value and half a step to either side. The
step below the first full mantissa is half as wide. -/
structure Interval where
  low : Nat
  value : Nat
  high : Nat
  denominator : Nat
  closed : Bool
  deriving Repr

/-- The interval of a positive double; its ends belong to it when the mantissa is even. -/
def interval (number : Double) : Interval :=
  let (step, denominator) := scaleRatio 1 1 number.exponent
  let below :=
    if number.mantissa = fullMantissa ∧ leastExponent < number.exponent then 1 else 2
  { low := (4 * number.mantissa - below) * step
    value := 4 * number.mantissa * step
    high := (4 * number.mantissa + 2) * step
    denominator := 4 * denominator
    closed := number.mantissa % 2 == 0 }

/-- Whether a ratio lies in the interval. -/
def Interval.covers (interval : Interval) (numerator denominator : Nat) : Bool :=
  let above := numerator * interval.denominator
  let low := interval.low * denominator
  let high := interval.high * denominator
  if interval.closed then low ≤ above && above ≤ high
  else low < above && above < high

/-- The least `point` with `numerator / denominator < 10 ^ point`. -/
def pointOf (numerator denominator : Nat) : Int :=
  if denominator ≤ numerator then (Nat.toDigits 10 (numerator / denominator)).length
  else
    let zeros := (Nat.toDigits 10 (denominator / numerator)).length - 1
    if numerator * Nat.pow 10 zeros < denominator then -(zeros : Int) else -(zeros : Int) + 1

/-- The power of ten as a ratio. -/
def powerOfTen : Int → Nat × Nat
  | .ofNat power => (Nat.pow 10 power, 1)
  | .negSucc predecessor => (1, Nat.pow 10 (predecessor + 1))

/-- The number of times that `10 ^ power` goes into the interval's value, rounded
to the nearest and with ties to even. -/
def Interval.nearestMultiple (interval : Interval) (power : Int) : Nat :=
  let (above, below) := powerOfTen power
  roundRatio (interval.value * below) (interval.denominator * above)

/-- The multiple of `10 ^ power` nearest to the interval's value that lies in the
interval, if either neighbour of the value does. -/
def Interval.multiple? (interval : Interval) (power : Int) : Option Nat :=
  let (above, below) := powerOfTen power
  let covered (count : Nat) := interval.covers (count * above) below
  let lower := interval.value * below / (interval.denominator * above)
  let nearest := interval.nearestMultiple power
  let other := if nearest = lower then lower + 1 else lower
  if covered nearest then some nearest
  else if covered other then some other
  else none

/-- A multiple of a power of ten as significant digits. -/
def Decimal.ofMultiple (count : Nat) (power : Int) : Decimal :=
  let digits := Nat.toDigits 10 count
  { digits := (digits.reverse.dropWhile (· == '0')).reverse
    point := digits.length + power }

/-- The first decimal that lies in the interval, trying `count` digits and then up
to `trials` more of them. The last count is taken without a test. -/
def Interval.shortest (interval : Interval) (point : Int) : (trials count : Nat) → Decimal
  | 0, count => Decimal.ofMultiple (interval.nearestMultiple (point - count)) (point - count)
  | trials + 1, count =>
      match interval.multiple? (point - count) with
      | some multiple => Decimal.ofMultiple multiple (point - count)
      | none => interval.shortest point trials (count + 1)

/-- The shortest decimal that reads back to the double. Seventeen digits always do. -/
def shortest (number : Double) : Decimal :=
  let interval := number.interval
  interval.shortest (pointOf interval.value interval.denominator) 16 1

/-- How decimals are laid out as text. -/
structure Layout where
  /-- The point positions that are written without an exponent lie above this one. -/
  abovePoint : Int
  /-- The last point position that is written without an exponent. -/
  lastPoint : Int

/-- Doubles are written without an exponent from `0.00001` to below `10 ^ 16`. -/
def layout : Layout := ⟨-5, 16⟩

/-- Digits with a point in the place, and a digit on either side of it. -/
def plainText (digits : List Char) (point : Int) : List Char :=
  match point with
  | .ofNat 0 => '0' :: '.' :: digits
  | .ofNat whole =>
      if digits.length ≤ whole then
        digits ++ List.replicate (whole - digits.length) '0' ++ ['.', '0']
      else digits.take whole ++ '.' :: digits.drop whole
  | .negSucc predecessor =>
      '0' :: '.' :: (List.replicate (predecessor + 1) '0' ++ digits)

/-- Digits with a point after the first of them, if there are more, and an
exponent that always has a sign. -/
def scientificText (digits : List Char) (point : Int) : List Char :=
  let fraction :=
    match digits.drop 1 with
    | [] => []
    | rest => '.' :: rest
  let exponent :=
    match point - 1 with
    | .ofNat exponent => 'e' :: '+' :: Nat.toDigits 10 exponent
    | .negSucc predecessor => 'e' :: '-' :: Nat.toDigits 10 (predecessor + 1)
  digits.take 1 ++ fraction ++ exponent

/-- The text of a decimal in a layout. -/
def Decimal.text (decimal : Decimal) (layout : Layout) : List Char :=
  if layout.abovePoint < decimal.point ∧ decimal.point ≤ layout.lastPoint then
    plainText decimal.digits decimal.point
  else scientificText decimal.digits decimal.point

/-- The text of a double. -/
def text (number : Double) : List Char :=
  let magnitude :=
    if number.isZero then ['0', '.', '0'] else number.shortest.text layout
  if number.negative then '-' :: magnitude else magnitude

end QueryGate.Double
