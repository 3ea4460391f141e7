/-!
# Blank characters

Trimming removes the characters that have the Unicode property `White_Space`,
not only the ASCII ones.
-/

namespace QueryGate.Text

/-- The characters with the Unicode property `White_Space`. -/
def isBlank (char : Char) : Bool :=
  let code := char.toNat
  (0x09 ≤ code && code ≤ 0x0d) || code == 0x20 || code == 0x85 || code == 0xa0 ||
    code == 0x1680 || (0x2000 ≤ code && code ≤ 0x200a) || code == 0x2028 ||
    code == 0x2029 || code == 0x202f || code == 0x205f || code == 0x3000

/-- Every character that core counts as white space is blank. -/
theorem isBlank_of_isWhitespace (char : Char) (white : char.isWhitespace = true) :
    isBlank char = true := by
  simp only [Char.isWhitespace, Bool.or_eq_true, decide_eq_true_eq] at white
  rcases white with ((equal | equal) | equal) | equal <;> subst equal <;> decide

/-- Removes the blanks at both ends. -/
def trim (text : List Char) : List Char :=
  ((text.dropWhile isBlank).reverse.dropWhile isBlank).reverse

end QueryGate.Text
