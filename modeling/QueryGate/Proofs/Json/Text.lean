import QueryGate.Json.Printer
import QueryGate.Json.Written
import QueryGate.Proofs.Json.Every
import QueryGate.Proofs.Text.Canonical

/-!
# Reading what has been printed

The compact text of a value whose numbers are integers reads as the value is written: a string with
its escapes, a numeral up to the first character that cannot belong to it, and arrays and objects
with the values in them.
-/

namespace QueryGate

open Text

/-! ### Strings -/

namespace Written

variable {char : Char} {piece : Piece} {pieces : List Piece}

/-- The piece stands for the character, which is given by its number only if it is a control
character. -/
def Piece.StandsFor (char : Char) (piece : Piece) : Prop :=
  piece = .char char ∨ piece = .unit char.toNat ∧ char.toNat < 32

theorem charsOf?_cons (stands : piece.StandsFor char) (pieces : List Piece) :
    charsOf? (piece :: pieces) = (charsOf? pieces).map (char :: ·) := by
  obtain rfl | ⟨rfl, control⟩ := stands
  · rw [charsOf?]
  · have notHigh : isHighSurrogate char.toNat = false := by
      simp only [isHighSurrogate, Bool.and_eq_false_iff, decide_eq_false_iff_not]
      omega
    have notLow : isLowSurrogate char.toNat = false := by
      simp only [isLowSurrogate, Bool.and_eq_false_iff, decide_eq_false_iff_not]
      omega
    cases pieces with
    | nil => simp [charsOf?, notHigh, notLow]
    | cons next later => cases next <;> simp [charsOf?, notHigh, notLow]

theorem readPieces_escaped {letter : Char} (known : escaped? letter = some char)
    (notUnit : letter ≠ 'u') (rest : List Char) :
    readPieces ('\\' :: letter :: rest) =
      (readPieces rest).map fun (pieces, after) => (.char char :: pieces, after) := by
  rw [readPieces, known, Option.map_eq_bind]
  · rfl
  · intro _ _ _ _ _ same
    exact absurd same notUnit

theorem readPieces_unit {first second third fourth : Char} {value : Nat}
    (known : unit? first second third fourth = some value) (rest : List Char) :
    readPieces ('\\' :: 'u' :: first :: second :: third :: fourth :: rest) =
      (readPieces rest).map fun (pieces, after) => (.unit value :: pieces, after) := by
  rw [readPieces, known, Option.map_eq_bind]
  rfl

theorem readPieces_plain (printed : ¬ char.toNat < 32) (notQuote : char ≠ '"')
    (notEscape : char ≠ '\\') (rest : List Char) :
    readPieces (char :: rest) =
      (readPieces rest).map fun (pieces, after) => (.char char :: pieces, after) := by
  rw [readPieces, if_neg printed, Option.map_eq_bind]
  · rfl
  · exact notQuote
  · intro _ _ _ _ _ same
    exact absurd same notEscape
  · intro _ _ same
    exact absurd same notEscape

/-- Two digits are enough for a control character. -/
theorem unit?_control (control : char.toNat < 32) :
    unit? '0' '0' (lowerHexDigit (char.toNat / 16)) (lowerHexDigit (char.toNat % 16)) =
      some char.toNat := by
  have zero : hexValue? '0' = some 0 := rfl
  have digits : 16 * (char.toNat / 16) + char.toNat % 16 = char.toNat := Nat.div_add_mod ..
  rw [unit?, zero, hexValue?_lowerHexDigit (by omega), hexValue?_lowerHexDigit (by omega)]
  simp
  omega

/-- A character that is printed is read as one piece. -/
theorem exists_piece_of_escapeChar (char : Char) :
    ∃ piece : Piece, piece.StandsFor char ∧ ∀ rest,
      readPieces (Json.escapeChar char ++ rest) =
        (readPieces rest).map fun (pieces, after) => (piece :: pieces, after) := by
  unfold Json.escapeChar
  -- Seven characters have a letter of their own; of the others, those that control have a number.
  iterate 7
    split
    · rename_i same
      subst same
      exact ⟨.char _, .inl rfl, readPieces_escaped rfl (by decide)⟩
  split
  · rename_i control
    exact ⟨.unit char.toNat, .inr ⟨rfl, control⟩, readPieces_unit (unit?_control control)⟩
  · rename_i notQuote notEscape _ _ _ _ _ printed
    exact ⟨.char char, .inl rfl, readPieces_plain printed notQuote notEscape⟩

/-- A text that is printed with its escapes reads as it was. -/
theorem exists_pieces_of_escaped (chars rest : List Char) :
    ∃ pieces, readPieces (chars.flatMap Json.escapeChar ++ '"' :: rest) = some (pieces, rest) ∧
      charsOf? pieces = some chars := by
  induction chars with
  | nil => exact ⟨[], by simp [readPieces], rfl⟩
  | cons char later hypothesis =>
      obtain ⟨piece, stands, read⟩ := exists_piece_of_escapeChar char
      obtain ⟨pieces, readLater, denotes⟩ := hypothesis
      refine ⟨piece :: pieces, ?_, ?_⟩
      · rw [List.flatMap_cons, List.append_assoc, read, readLater]
        rfl
      · rw [charsOf?_cons stands, denotes]
        rfl

theorem readString_quoted (value : String) (rest : List Char) :
    readString (value.toList.flatMap Json.escapeChar ++ '"' :: rest) =
      some (some value, rest) := by
  obtain ⟨pieces, read, denotes⟩ := exists_pieces_of_escaped value.toList rest
  rw [readString, read]
  simp [denotes]

end Written

/-! ### Numerals -/

/-- No numeral goes on into the text. -/
def StopsNumeral (rest : List Char) : Prop :=
  ∀ char ∈ rest.head?, char.isDigit = false ∧ char ≠ '.' ∧ char ≠ 'e' ∧ char ≠ 'E'

namespace Number

variable {digits rest : List Char} {value : Nat}

theorem cutDigits?_append (written : digits ≠ []) (all : ∀ char ∈ digits, char.isDigit = true)
    (stops : StopsNumeral rest) : cutDigits? (digits ++ rest) = some (digits, rest) := by
  have taken : rest.takeWhile Char.isDigit = [] := by
    cases rest with
    | nil => rfl
    | cons char later => simp [(stops char rfl).1]
  have dropped : rest.dropWhile Char.isDigit = rest := by
    cases rest with
    | nil => rfl
    | cons char later => simp [(stops char rfl).1]
  rw [cutDigits?, List.takeWhile_append_of_pos all, List.dropWhile_append_of_pos all, taken,
    dropped, List.append_nil]
  cases digits with
  | nil => exact absurd rfl written
  | cons => rfl

theorem cutWhole?_append (canonical : IsCanonical digits value) (stops : StopsNumeral rest) :
    cutWhole? (digits ++ rest) = some (digits, rest) := by
  by_cases zero : digits.head? = some '0'
  · rw [canonical.unpadded zero]
    cases rest with
    | nil => rfl
    | cons char later => simp [cutWhole?, (stops char rfl).1]
  · have cut := cutDigits?_append canonical.ne_nil canonical.digits stops
    rw [cutWhole?.eq_def]
    split
    · rename_i same
      have headed := congrArg List.head? same
      rw [List.head?_append_of_ne_nil _ canonical.ne_nil] at headed
      exact absurd headed zero
    · exact cut

theorem cutFraction?_of_stops (stops : StopsNumeral rest) :
    cutFraction? rest = some (none, rest) := by
  rw [cutFraction?.eq_def]
  split
  · exact absurd rfl (stops '.' rfl).2.1
  · rfl

theorem cutExponent?_of_stops (stops : StopsNumeral rest) :
    cutExponent? rest = some (none, rest) := by
  cases rest with
  | nil => rfl
  | cons char later => simp [cutExponent?, (stops char rfl).2.2]

/-- The text of an integer is cut off as its digits, with its sign. -/
theorem read?_textOfInt (integer : Int) (stops : StopsNumeral rest) :
    Numeral.read? (textOfInt integer ++ rest) =
      some (⟨integer < 0, digitsOf integer.natAbs, none, none⟩, rest) := by
  have canonical := isCanonical_digitsOf integer.natAbs
  have whole := cutWhole?_append canonical stops
  cases integer with
  | negSucc predecessor =>
      have negative : Int.negSucc predecessor < 0 := Int.negSucc_lt_zero predecessor
      rw [textOfInt, List.cons_append, Numeral.read?]
      change (cutWhole? (digitsOf (Int.negSucc predecessor).natAbs ++ rest) >>= _) = _
      rw [whole]
      simp [cutFraction?_of_stops stops, cutExponent?_of_stops stops, negative]
  | ofNat magnitude =>
      rw [textOfInt, Numeral.read?]
      · change (cutWhole? (digitsOf (Int.ofNat magnitude).natAbs ++ rest) >>= _) = _
        rw [whole]
        simp [cutFraction?_of_stops stops, cutExponent?_of_stops stops]
      · intro later same
        obtain ⟨first, others, digits⟩ := List.exists_cons_of_ne_nil canonical.ne_nil
        have digit := canonical.digits first (by rw [digits]; exact List.mem_cons_self)
        change digitsOf magnitude = _ at digits
        rw [digits, List.cons_append] at same
        rw [List.head_eq_of_cons_eq same] at digit
        cases digit

/-- An integer of 64 bits is read as what it is. -/
theorem ofNumeral?_integer {integer : Int} (least : leastInt64 ≤ integer)
    (greatest : integer ≤ greatestNat64) :
    ofNumeral? ⟨integer < 0, digitsOf integer.natAbs, none, none⟩ = some (.int integer) := by
  have denoted := (isDigits_digitsOf integer.natAbs).value_eq
  have int? : (⟨integer < 0, digitsOf integer.natAbs, none, none⟩ : Numeral).int? =
      some integer := by
    simp only [leastInt64, greatestNat64] at least greatest
    simp only [Numeral.int?, denoted, decide_eq_true_eq, fitsInt64, fitsNat64, leastInt64,
      greatestInt64, greatestNat64, Bool.and_eq_true]
    by_cases negative : integer < 0
    · rw [if_pos negative, if_pos (by omega)]
      congr
      omega
    · rw [if_neg negative, if_pos (by omega)]
      congr
      omega
  rw [ofNumeral?, int?]

/-- The text of an integer starts with a digit or with the sign. -/
theorem exists_first_textOfInt (integer : Int) :
    ∃ first later, textOfInt integer = first :: later ∧ (first = '-' ∨ first.isDigit = true) := by
  cases integer with
  | negSucc predecessor => exact ⟨_, _, rfl, .inl rfl⟩
  | ofNat magnitude =>
      have digits := isDigits_digitsOf magnitude
      obtain ⟨first, later, split⟩ := List.exists_cons_of_ne_nil digits.ne_nil
      exact ⟨first, later, split, .inr (digits.digits first (by simp [split]))⟩

end Number

/-! ### Values -/

namespace Written

open Json

variable {rest : List Char}

theorem skipSpace_cons {char : Char} (visible : isSpace char = false) (rest : List Char) :
    skipSpace (char :: rest) = char :: rest := by
  rw [skipSpace, List.dropWhile_cons, if_neg (by simp [visible])]

/-- The characters behind a value that is in a value. -/
theorem stopsNumeral_cons {char : Char} (ends : char = ',' ∨ char = ']' ∨ char = '}') :
    StopsNumeral (char :: rest) := by
  intro first found
  cases found
  rcases ends with rfl | rfl | rfl <;> decide

theorem isSpace_of_isDigit {char : Char} (digit : char = '-' ∨ char.isDigit = true) :
    isSpace char = false ∧ char ≠ ']' := by
  obtain rfl | digit := digit
  · decide
  · have plain : ∀ other : Char, other.isDigit = false → char ≠ other := by
      rintro other notDigit rfl
      rw [digit] at notDigit
      cases notDigit
    simp [isSpace, plain ' ' rfl, plain '\n' rfl, plain '\t' rfl, plain '\r' rfl, plain ']' rfl]

/-- What a value is printed as starts with a character that is no blank and closes nothing. -/
theorem exists_first_compactChars {value : Json} (legible : value.Legible) :
    ∃ first later, value.compactChars = first :: later ∧ isSpace first = false ∧ first ≠ ']' := by
  cases value with
  | null | string | array | object => exact ⟨_, _, rfl, by decide, by decide⟩
  | bool value => cases value <;> exact ⟨_, _, rfl, by decide, by decide⟩
  | number value =>
      cases value with
      | double => exact legible.elim
      | int integer =>
          obtain ⟨first, later, split, signs⟩ := Number.exists_first_textOfInt integer
          exact ⟨first, later, split, isSpace_of_isDigit signs⟩

theorem compactItems_cons_cons (item next : Json) (rest : List Json) :
    compactItems (item :: next :: rest) = item.compactChars ++ ',' :: compactItems (next :: rest) :=
  rfl

theorem compactMembers_cons_cons (name : String) (value : Json) (next : String × Json)
    (rest : List (String × Json)) :
    compactMembers ((name, value) :: next :: rest) =
      quoted name ++ ':' :: (value.compactChars ++ ',' :: compactMembers (next :: rest)) :=
  rfl

theorem exists_first_compactItems {item : Json} (items : List Json) (legible : item.Legible) :
    ∃ first later, compactItems (item :: items) = first :: later ∧ isSpace first = false ∧
      first ≠ ']' := by
  obtain ⟨first, later, split, visible, opened⟩ := exists_first_compactChars legible
  cases items with
  | nil => exact ⟨first, later, split, visible, opened⟩
  | cons next items =>
      refine ⟨first, later ++ ',' :: compactItems (next :: items), ?_, visible, opened⟩
      rw [compactItems_cons_cons, split, List.cons_append]

theorem exists_first_compactMembers (member : String × Json) (members : List (String × Json)) :
    ∃ later, compactMembers (member :: members) = '"' :: later := by
  cases members <;> exact ⟨_, rfl⟩

theorem readValue_string (fuel : Nat) (value : String) (rest : List Char) :
    readValue (fuel + 1) (quoted value ++ rest) = some (.string (some value), rest) := by
  have read := readString_quoted value rest
  rw [quoted, List.cons_append, List.append_assoc]
  change (readString (_ ++ '"' :: rest) >>= _) = _
  rw [read]
  rfl

theorem readValue_number (fuel : Nat) {integer : Int} (least : leastInt64 ≤ integer)
    (greatest : integer ≤ greatestNat64) (stops : StopsNumeral rest) :
    readValue (fuel + 1) (textOfInt integer ++ rest) =
      some (.number (some (.int integer)), rest) := by
  have read := Number.read?_textOfInt integer stops
  have denoted := Number.ofNumeral?_integer least greatest
  obtain ⟨first, later, split, signs⟩ := Number.exists_first_textOfInt integer
  obtain ⟨visible, -⟩ := isSpace_of_isDigit signs
  rw [split, List.cons_append] at read ⊢
  rw [readValue, skipSpace_cons visible]
  split
  iterate 6
    · rename_i same
      cases same
      exact absurd signs (by decide)
  · change (Number.Numeral.read? _ >>= _) = _
    rw [read]
    simp only [Option.bind_eq_bind, Option.bind_some, denoted]

theorem readValue_array (fuel : Nat) {first : Char} (visible : isSpace first = false)
    (opened : first ≠ ']') (later : List Char) :
    readValue (fuel + 1) ('[' :: first :: later) =
      (readItems fuel (first :: later)).map fun (items, rest) => (.array items, rest) := by
  have bracket : skipSpace ('[' :: first :: later) = '[' :: first :: later := rfl
  rw [readValue, bracket, Option.map_eq_bind]
  simp only [skipSpace_cons visible]
  split
  · rename_i same
    cases same
    exact absurd rfl opened
  · rfl

theorem readValue_object (fuel : Nat) (later : List Char) :
    readValue (fuel + 1) ('{' :: '"' :: later) =
      (readMembers fuel ('"' :: later)).map fun (members, rest) => (.object members, rest) := by
  rw [Option.map_eq_bind]
  rfl

/-! An item or a member that is read is the last one or not, as the character behind it says. -/

section Parts

variable {fuel : Nat} {text later : List Char} {part : Written}

theorem readItems_last (read : readValue fuel text = some (part, ']' :: rest)) :
    readItems (fuel + 1) text = some ([part], rest) := by
  rw [readItems, read]
  rfl

theorem readItems_next (read : readValue fuel text = some (part, ',' :: later)) :
    readItems (fuel + 1) text =
      (readItems fuel later).map fun (items, rest) => (part :: items, rest) := by
  rw [readItems, read, Option.map_eq_bind]
  rfl

theorem readMembers_quoted (name : String) (text : List Char) :
    readMembers (fuel + 1) (quoted name ++ ':' :: text) =
      (readValue fuel text >>= fun (value, rest) =>
        match skipSpace rest with
        | ',' :: rest => do
            let (members, rest) ← readMembers fuel rest
            some ((some name, value) :: members, rest)
        | '}' :: rest => some ([(some name, value)], rest)
        | _ => none) := by
  have read := readString_quoted name (':' :: text)
  rw [quoted, List.cons_append, List.append_assoc]
  change (readString (_ ++ '"' :: ':' :: text) >>= _) = _
  rw [read]
  rfl

theorem readMembers_last (name : String) (read : readValue fuel text = some (part, '}' :: rest)) :
    readMembers (fuel + 1) (quoted name ++ ':' :: text) = some ([(some name, part)], rest) := by
  rw [readMembers_quoted, read]
  rfl

theorem readMembers_next (name : String) (read : readValue fuel text = some (part, ',' :: later)) :
    readMembers (fuel + 1) (quoted name ++ ':' :: text) =
      (readMembers fuel later).map fun (members, rest) => ((some name, part) :: members, rest) := by
  rw [readMembers_quoted, read, Option.map_eq_bind]
  rfl

end Parts

mutual

/-- Fuel for a value is fuel for its parts, since it has more characters than they have. -/
theorem readValue_compactChars : ∀ {value : Json} {fuel : Nat} {rest : List Char},
    value.Legible → 2 * value.compactChars.length ≤ fuel + 1 → StopsNumeral rest →
      readValue fuel (value.compactChars ++ rest) = some (ofJson value, rest)
  | value, 0, _, legible, enough, _ => by
      obtain ⟨first, later, split, -⟩ := exists_first_compactChars legible
      rw [split, List.length_cons] at enough
      omega
  | .null, _ + 1, _, _, _, _ | .bool true, _ + 1, _, _, _, _ | .bool false, _ + 1, _, _, _, _
  | .array [], _ + 1, _, _, _, _ | .object [], _ + 1, _, _, _, _ => rfl
  | .number (.double _), _ + 1, _, legible, _, _ => legible.elim
  | .number (.int _), fuel + 1, _, legible, _, stops =>
      readValue_number fuel legible.1 legible.2 stops
  | .string value, fuel + 1, rest, _, _, _ => readValue_string fuel value rest
  | .array (item :: items), fuel + 1, rest, legible, enough, _ => by
      have shorter : 2 * (compactItems (item :: items)).length ≤ fuel := by
        simp only [compactChars, List.length_cons, List.length_append] at enough
        omega
      have read : readItems fuel (compactItems (item :: items) ++ ']' :: rest) = _ :=
        readItems_compactItems legible.2 shorter
      obtain ⟨first, later, split, visible, opened⟩ := exists_first_compactItems items legible.2.1
      rw [compactChars, List.cons_append, List.append_assoc, List.singleton_append]
      rw [split, List.cons_append] at read ⊢
      rw [readValue_array fuel visible opened, read]
      rfl
  | .object (member :: members), fuel + 1, rest, legible, enough, _ => by
      have shorter : 2 * (compactMembers (member :: members)).length ≤ fuel := by
        simp only [compactChars, List.length_cons, List.length_append] at enough
        omega
      have read : readMembers fuel (compactMembers (member :: members) ++ '}' :: rest) = _ :=
        readMembers_compactMembers legible.2 shorter
      obtain ⟨later, split⟩ := exists_first_compactMembers member members
      rw [compactChars, List.cons_append, List.append_assoc, List.singleton_append]
      rw [split, List.cons_append] at read ⊢
      rw [readValue_object fuel, read]
      rfl

theorem readItems_compactItems : ∀ {item : Json} {items : List Json} {fuel : Nat}
    {rest : List Char}, EveryItem IsLegible (item :: items) →
      2 * (compactItems (item :: items)).length ≤ fuel →
      readItems fuel (compactItems (item :: items) ++ ']' :: rest) =
        some (ofItems (item :: items), rest)
  | item, items, 0, _, legible, enough => by
      obtain ⟨first, later, split, -⟩ := exists_first_compactItems items legible.1
      rw [split, List.length_cons] at enough
      omega
  | item, [], fuel + 1, rest, legible, enough => by
      rw [compactItems] at enough ⊢
      apply readItems_last
      exact readValue_compactChars legible.1 (by omega) (stopsNumeral_cons (by simp))
  | item, next :: items, fuel + 1, rest, legible, enough => by
      rw [compactItems_cons_cons, List.length_append, List.length_cons] at enough
      have first : readValue fuel
          (item.compactChars ++ ',' :: (compactItems (next :: items) ++ ']' :: rest)) = _ :=
        readValue_compactChars legible.1 (by omega) (stopsNumeral_cons (by simp))
      have later : readItems fuel (compactItems (next :: items) ++ ']' :: rest) = _ :=
        readItems_compactItems legible.2 (by omega)
      rw [compactItems_cons_cons, List.append_assoc, List.cons_append, readItems_next first, later]
      rfl

theorem readMembers_compactMembers : ∀ {member : String × Json} {members : List (String × Json)}
    {fuel : Nat} {rest : List Char}, EveryMember IsLegible (member :: members) →
      2 * (compactMembers (member :: members)).length ≤ fuel →
      readMembers fuel (compactMembers (member :: members) ++ '}' :: rest) =
        some (ofMembers (member :: members), rest)
  | member, members, 0, _, legible, enough => by
      obtain ⟨later, split⟩ := exists_first_compactMembers member members
      rw [split, List.length_cons] at enough
      omega
  | (name, value), [], fuel + 1, rest, legible, enough => by
      rw [compactMembers, List.length_append, List.length_cons] at enough
      rw [compactMembers, List.append_assoc, List.cons_append]
      apply readMembers_last
      exact readValue_compactChars legible.1 (by omega) (stopsNumeral_cons (by simp))
  | (name, value), next :: members, fuel + 1, rest, legible, enough => by
      rw [compactMembers_cons_cons, List.length_append, List.length_cons, List.length_append,
        List.length_cons] at enough
      have first : readValue fuel
          (value.compactChars ++ ',' :: (compactMembers (next :: members) ++ '}' :: rest)) = _ :=
        readValue_compactChars legible.1 (by omega) (stopsNumeral_cons (by simp))
      have later : readMembers fuel (compactMembers (next :: members) ++ '}' :: rest) = _ :=
        readMembers_compactMembers legible.2 (by omega)
      rw [compactMembers_cons_cons, List.append_assoc, List.cons_append, List.append_assoc,
        List.cons_append, readMembers_next name first, later]
      rfl

end

/-- The compact text of a value reads as the value is written. -/
theorem read?_compact {value : Json} (legible : value.Legible) :
    read? value.compact = some (ofJson value) := by
  have enough : 2 * value.compactChars.length ≤ 2 * value.compactChars.length + 2 + 1 := by omega
  have read : readValue _ (value.compactChars ++ []) = _ :=
    readValue_compactChars legible enough nofun
  rw [List.append_nil] at read
  rw [read?, compact, String.toList_ofList, String.length_ofList, read]
  rfl

end Written

end QueryGate
