/-!
# Hexadecimal digits

Digits are read in either case. Which case is written depends on the format.
-/

namespace QueryGate.Text

/-- The value of a hexadecimal digit of either case. -/
def hexValue? (char : Char) : Option Nat :=
  if '0' ≤ char ∧ char ≤ '9' then some (char.toNat - 48)
  else if 'a' ≤ char ∧ char ≤ 'f' then some (char.toNat - 87)
  else if 'A' ≤ char ∧ char ≤ 'F' then some (char.toNat - 55)
  else none

/-- The upper-case digit of a value below sixteen. -/
def upperHexDigit (value : Nat) : Char :=
  if value < 10 then Char.ofNat (48 + value) else Char.ofNat (55 + value)

/-- The lower-case digit of a value below sixteen. -/
def lowerHexDigit (value : Nat) : Char :=
  if value < 10 then Char.ofNat (48 + value) else Char.ofNat (87 + value)

theorem hexValue?_upperHexDigit {value : Nat} (small : value < 16) :
    hexValue? (upperHexDigit value) = some value := by
  revert value
  decide

theorem hexValue?_lowerHexDigit {value : Nat} (small : value < 16) :
    hexValue? (lowerHexDigit value) = some value := by
  revert value
  decide

end QueryGate.Text
