import Mathlib
import QueryGate.Gate
import QueryGate.Proofs.Result

/-!
# Percent coding and UTF-8

What a coded text stands for is said of the text as a whole: a group stands for its byte,
any other character for its bytes in UTF-8. Decoding looks at one run of neighbouring groups
after the other. That comes to the same, since no byte of a character but the first can begin
one: a character that stands for itself cuts the bytes around it into two valid parts.
-/

namespace QueryGate

namespace Text.Percent

/-- A hexadecimal digit of either case, and its value. -/
def IsDigit (char : Char) (value : Nat) : Prop :=
  value < 16 ∧ char.toLower = Nat.digitChar value

/-- The bytes that a coded text stands for, read from left to right. There are none if two
hexadecimal digits are missing after a `%`. -/
inductive Denotes : List Char → ByteArray → Prop where
  | nil : Denotes [] .empty
  | group {high low : Char} {upper lower : Nat} {rest : List Char} {bytes : ByteArray} :
      IsDigit high upper → IsDigit low lower → Denotes rest bytes →
      Denotes ('%' :: high :: low :: rest) ([UInt8.ofNat (16 * upper + lower)].toByteArray ++ bytes)
  | literal {char : Char} {rest : List Char} {bytes : ByteArray} :
      char ≠ '%' → Denotes rest bytes → Denotes (char :: rest) ([char].utf8Encode ++ bytes)

/-! ## Groups -/

theorem hexValue?_ofNat : ∀ code < 128, (∀ value ∈ hexValue? (Char.ofNat code), value < 16) ∧
    ∀ value < 16, hexValue? (Char.ofNat code) = some value ↔
      (Char.ofNat code).toLower = Nat.digitChar value := by
  decide +kernel

theorem hexValue?_eq_none_of_le {char : Char} (wide : 128 ≤ char.toNat) :
    hexValue? char = none := by
  have beyond : ∀ limit : Char, limit.toNat < 128 → ¬ char ≤ limit := by
    intro limit small below
    have order := UInt32.le_iff_toNat_le.mp below
    simp only [Char.toNat] at *
    omega
  simp [hexValue?, beyond]

theorem toLower_eq_self_of_le {char : Char} (wide : 128 ≤ char.toNat) : char.toLower = char := by
  rw [Char.toLower, dif_neg]
  rintro ⟨_, below⟩
  exact absurd (Nat.le_trans wide (UInt32.le_iff_toNat_le.mp below)) (by decide)

theorem hexValue?_eq_some_iff {char : Char} {value : Nat} :
    hexValue? char = some value ↔ IsDigit char value := by
  by_cases wide : 128 ≤ char.toNat
  · have digits : ∀ value < 16, (Nat.digitChar value).toNat < 128 := by decide
    simp only [hexValue?_eq_none_of_le wide, IsDigit, toLower_eq_self_of_le wide, reduceCtorEq,
      false_iff, not_and]
    rintro small rfl
    exact absurd wide (Nat.not_le.mpr (digits value small))
  · rcases hexValue?_ofNat char.toNat (Nat.lt_of_not_le wide) with ⟨bounded, same⟩
    rw [Char.ofNat_toNat] at bounded same
    constructor
    · intro read
      exact ⟨bounded value read, (same value (bounded value read)).mp read⟩
    · rintro ⟨small, equal⟩
      exact (same value small).mpr equal

theorem byte?_eq_some_iff {high low : Char} {byte : UInt8} :
    byte? high low = some byte ↔ ∃ upper lower, IsDigit high upper ∧ IsDigit low lower ∧
      UInt8.ofNat (16 * upper + lower) = byte := by
  simp only [byte?, Option.bind_eq_bind, Option.bind_eq_some_iff, Option.some.injEq,
    hexValue?_eq_some_iff]
  constructor
  · rintro ⟨upper, first, lower, second, equal⟩
    exact ⟨upper, lower, first, second, equal⟩
  · rintro ⟨upper, lower, first, second, equal⟩
    exact ⟨upper, first, lower, second, equal⟩

variable {rest : List Char} {bytes : ByteArray}

theorem denotes_group_iff {high low : Char} :
    Denotes ('%' :: high :: low :: rest) bytes ↔ ∃ byte later, byte? high low = some byte ∧
      Denotes rest later ∧ bytes = [byte].toByteArray ++ later := by
  simp only [byte?_eq_some_iff]
  constructor
  · intro denotes
    cases denotes with
    | group first second denotes => exact ⟨_, _, ⟨_, _, first, second, rfl⟩, denotes, rfl⟩
    | literal other _ => exact absurd rfl other
  · rintro ⟨_, later, ⟨upper, lower, first, second, rfl⟩, denotes, rfl⟩
    exact .group first second denotes

theorem denotes_literal_iff {char : Char} (other : char ≠ '%') :
    Denotes (char :: rest) bytes ↔
      ∃ later, Denotes rest later ∧ bytes = [char].utf8Encode ++ later := by
  constructor
  · intro denotes
    cases denotes with
    | group => exact absurd rfl other
    | literal _ denotes => exact ⟨_, denotes, rfl⟩
  · rintro ⟨later, denotes, rfl⟩
    exact .literal other denotes

/-! ## Runs -/

theorem utf8Encode_injective {first second : List Char}
    (equal : first.utf8Encode = second.utf8Encode) : first = second := by
  have same := congrArg ByteArray.utf8Decode? equal
  simpa using same

theorem size_utf8Encode_pos (char : Char) : 0 < [char].utf8Encode.size := by
  rw [List.utf8Encode_singleton, List.size_toByteArray, String.length_utf8EncodeChar]
  exact char.utf8Size_pos

/-- A character between bytes that are UTF-8 together has valid parts on both sides. -/
theorem exists_split_utf8Encode {run bytes : ByteArray} {char : Char} {text : List Char}
    (whole : run ++ ([char].utf8Encode ++ bytes) = text.utf8Encode) :
    ∃ before after, before.utf8Encode = run ∧ after.utf8Encode = bytes ∧
      before ++ char :: after = text := by
  let joined : String := .ofByteArray (run ++ ([char].utf8Encode ++ bytes)) ⟨text, whole⟩
  have content : joined.toByteArray = run ++ ([char].utf8Encode ++ bytes) := rfl
  have size : joined.utf8ByteSize = run.size + ([char].utf8Encode ++ bytes).size := by
    rw [← String.size_toByteArray, content, ByteArray.size_append]
  let place : String.Pos.Raw := ⟨run.size⟩
  -- The byte at which the character begins can begin one, so there is a boundary of the text.
  have boundary : place.IsValid joined := by
    have positive := size_utf8Encode_pos char
    rw [String.Pos.Raw.isValid_iff_isUTF8FirstByte]
    refine .inr ⟨?_, ?_⟩
    · rw [String.Pos.Raw.lt_iff, String.byteIdx_rawEndPos, size, ByteArray.size_append]
      exact Nat.lt_add_of_pos_right (Nat.add_pos_left positive _)
    · simp only [String.getUTF8Byte, content, place]
      rw [ByteArray.getElem_append_right (Nat.le_refl _),
        ByteArray.getElem_append_left (by simpa using positive),
        List.isUTF8FirstByte_getElem_utf8Encode_singleton, Nat.sub_self]
  have left := boundary.isValidUTF8_extract_zero
  have right := boundary.isValidUTF8_extract_utf8ByteSize
  rw [content, ByteArray.extract_append_eq_left rfl] at left
  rw [content, ByteArray.extract_append_eq_right rfl size,
    ByteArray.isValidUTF8_utf8Encode_singleton_append_iff] at right
  rcases left with ⟨before, rfl⟩
  rcases right with ⟨after, rfl⟩
  refine ⟨before, after, rfl, rfl, utf8Encode_injective ?_⟩
  rw [← whole, List.utf8Encode_append, List.utf8Encode_cons (l := after)]

theorem runText_eq_ok_iff {start : Nat} {run : ByteArray} {text : List Char} :
    runText start run = .ok text ↔ run = text.utf8Encode := by
  constructor
  · intro read
    rw [runText] at read
    split at read
    · rename_i chars decoded
      cases read
      have encoded := ByteArray.utf8Encode_get_utf8Decode? (b := run) (h := by simp [decoded])
      simpa [decoded] using encoded.symm
    · cases read
  · rintro rfl
    simp [runText]

theorem runText_eq_error {start : Nat} {run : ByteArray} {error : DecodeError}
    (failed : runText start run = .error error) :
    error = .invalidUtf8 start ∧ run.isEmpty = false := by
  rw [runText] at failed
  split at failed
  · cases failed
  · rename_i invalid
    cases failed
    refine ⟨rfl, Bool.eq_false_iff.mpr ?_⟩
    intro none
    rw [ByteArray.size_eq_zero_iff.mp (eq_of_beq none)] at invalid
    simp at invalid

/-! ## Decoding -/

/-- Decoding from some place on gives the text whose bytes are those of the run and those
that the rest stands for. -/
theorem decodeRest_eq_ok_iff (start : Nat) (run : ByteArray) (position : Nat)
    (chars text : List Char) :
    decodeRest start run position chars = .ok text ↔
      ∃ bytes, Denotes chars bytes ∧ run ++ bytes = text.utf8Encode := by
  fun_induction decodeRest start run position chars generalizing text with
  | case1 start run =>
      rw [runText_eq_ok_iff]
      constructor
      · rintro equal
        exact ⟨.empty, .nil, by rw [ByteArray.append_empty, equal]⟩
      · rintro ⟨_, denotes, equal⟩
        cases denotes
        rw [← equal, ByteArray.append_empty]
  | case2 start run position high low rest none =>
      simp [denotes_group_iff, none]
  | case3 start run position high low rest byte some _ hypothesis =>
      rw [hypothesis]
      simp only [denotes_group_iff, some, Option.some.injEq]
      constructor
      · rintro ⟨bytes, denotes, equal⟩
        refine ⟨_, ⟨byte, bytes, rfl, denotes, rfl⟩, ?_⟩
        rw [← equal, ← ByteArray.append_assoc, ByteArray.append_toByteArray_singleton]
      · rintro ⟨_, ⟨_, bytes, rfl, denotes, rfl⟩, equal⟩
        refine ⟨bytes, denotes, ?_⟩
        rw [← equal, ← ByteArray.append_assoc, ByteArray.append_toByteArray_singleton]
  | case4 start run position rest short =>
      simp only [reduceCtorEq, false_iff]
      rintro ⟨_, denotes, _⟩
      cases denotes with
      | group => exact short _ _ _ rfl rfl
      | literal other => exact other rfl
  | case5 start run position char rest _ other hypothesis =>
      simp only [bind_eq_ok_iff, pure_eq_ok_iff, hypothesis, runText_eq_ok_iff,
        denotes_literal_iff other, ByteArray.empty_append]
      constructor
      · rintro ⟨before, rfl, after, ⟨_, denotes, rfl⟩, rfl⟩
        refine ⟨_, ⟨_, denotes, rfl⟩, ?_⟩
        rw [List.utf8Encode_append, List.utf8Encode_cons (l := after)]
      · rintro ⟨_, ⟨bytes, denotes, rfl⟩, equal⟩
        rcases exists_split_utf8Encode equal with ⟨before, after, rfl, rfl, rfl⟩
        exact ⟨before, rfl, after, ⟨_, denotes, rfl⟩, rfl⟩

theorem decode_eq_ok_iff {raw text : String} :
    decode raw = .ok text ↔ Denotes raw.toList text.toUTF8 := by
  rw [decode, map_eq_ok_iff]
  simp only [decodeRest_eq_ok_iff, ByteArray.empty_append, String.toUTF8_eq_toByteArray]
  constructor
  · rintro ⟨chars, ⟨_, denotes, rfl⟩, rfl⟩
    rw [String.toByteArray_ofList]
    exact denotes
  · intro denotes
    refine ⟨text.toList, ⟨_, denotes, ?_⟩, String.ofList_toList⟩
    rw [← String.toByteArray_ofList, String.ofList_toList]

end Text.Percent

/-- There is a `%` of the text where an error points to, and one about a group shows the three
characters that stand there. -/
structure DecodeError.PointsInto (error : DecodeError) (raw : List Char) : Prop where
  percent : raw[error.position]? = some '%'
  group : ∀ {position high low}, error = .invalidGroup position high low →
    (raw.drop position).take 3 = ['%', high, low]

namespace Text.Percent

section Errors

variable {raw : List Char} {position : Nat}

theorem percent_of_drop (standing : raw.drop position = '%' :: rest) :
    raw[position]? = some '%' := by
  rw [← List.head?_drop, standing]
  rfl

/-- An error of decoding points into the text, provided that the run it goes on with began at
a `%`. -/
theorem pointsInto_of_decodeRest {start : Nat} {run : ByteArray} {chars : List Char}
    (standing : raw.drop position = chars) (began : run.isEmpty = false → raw[start]? = some '%')
    {error : DecodeError} (failed : decodeRest start run position chars = .error error) :
    error.PointsInto raw := by
  fun_induction decodeRest start run position chars with
  | case1 start run =>
      rcases runText_eq_error failed with ⟨rfl, occupied⟩
      exact ⟨began occupied, by simp⟩
  | case2 start run position high low rest =>
      cases failed
      refine ⟨percent_of_drop standing, ?_⟩
      rintro _ _ _ ⟨⟩
      rw [standing]
      rfl
  | case3 start run position high low rest byte _ next hypothesis =>
      refine hypothesis ?_ ?_ failed
      · rw [← List.drop_drop, standing]
        rfl
      · intro _
        simp only [next]
        split
        · exact percent_of_drop standing
        · rename_i occupied
          exact began (Bool.eq_false_iff.mpr occupied)
  | case4 start run position rest =>
      cases failed
      exact ⟨percent_of_drop standing, by simp⟩
  | case5 start run position char rest _ _ hypothesis =>
      simp only [bind_eq_error_iff] at failed
      rcases failed with broken | ⟨before, _, later | ⟨after, _, returned⟩⟩
      · rcases runText_eq_error broken with ⟨rfl, occupied⟩
        exact ⟨began occupied, by simp⟩
      · refine hypothesis ?_ ?_ later
        · rw [← List.drop_drop, standing]
          rfl
        · exact fun occupied => absurd occupied (by decide)
      · cases returned

theorem pointsInto_of_decode {raw : String} {error : DecodeError}
    (failed : decode raw = .error error) : error.PointsInto raw.toList := by
  rw [decode] at failed
  cases read : decodeRest 0 .empty 0 raw.toList with
  | ok chars =>
      rw [read] at failed
      cases failed
  | error found =>
      rw [read] at failed
      cases failed
      exact pointsInto_of_decodeRest rfl (fun occupied => absurd occupied (by decide)) read

end Errors

/-- Decoding gives a text exactly when its bytes in UTF-8 are what the coded text stands for.
Where there is no such text it fails, with an error that points into the coded text. -/
theorem decode_eq_ok_iff_denotes (raw : String) :
    (∀ text, decode raw = .ok text ↔ Denotes raw.toList text.toUTF8) ∧
      ((¬ ∃ text : String, Denotes raw.toList text.toUTF8) →
        ∃ error, decode raw = .error error ∧ error.PointsInto raw.toList) := by
  refine ⟨fun _ => decode_eq_ok_iff, ?_⟩
  intro none
  cases decoded : decode raw with
  | ok text => exact absurd ⟨text, decode_eq_ok_iff.mp decoded⟩ none
  | error error => exact ⟨error, rfl, pointsInto_of_decode decoded⟩

/-- A run of groups that lacks its last byte before a character that stands for itself. -/
theorem decode_eq_ok_iff_denotes_broken :
    decode "a%41%C3é" = .error (.invalidUtf8 1) ∧
      (¬ ∃ text : String, Denotes "a%41%C3é".toList text.toUTF8) ∧
      ∃ error, decode "a%41%C3é" = .error error ∧ error.PointsInto "a%41%C3é".toList := by
  have failed : decode "a%41%C3é" = .error (.invalidUtf8 1) := by cbv
  have facts := decode_eq_ok_iff_denotes "a%41%C3é"
  have undenoted : ¬ ∃ text : String, Denotes "a%41%C3é".toList text.toUTF8 := by
    rintro ⟨text, denotes⟩
    rw [← facts.1 text, failed] at denotes
    cases denotes
  exact ⟨failed, undenoted, facts.2 undenoted⟩

/-! ## Encoding -/

/-- A character that may stand in a coded text for itself: an ASCII letter, a digit, or one
of four signs. -/
def IsUnreserved (char : Char) : Prop :=
  char.isAlphanum = true ∨ char ∈ ['-', '_', '.', '~']

/-- A hexadecimal digit that is no lower-case letter. -/
def IsUpperDigit (char : Char) : Prop :=
  char.isDigit = true ∨ 'A' ≤ char ∧ char ≤ 'F'

/-- Unreserved characters and groups with upper-case digits, in any order. -/
inductive IsCoded : List Char → Prop where
  | nil : IsCoded []
  | unreserved {char : Char} {rest : List Char} :
      IsUnreserved char → IsCoded rest → IsCoded (char :: rest)
  | group {high low : Char} {rest : List Char} :
      IsUpperDigit high → IsUpperDigit low → IsCoded rest → IsCoded ('%' :: high :: low :: rest)

theorem isUpperDigit_upperHexDigit {value : Nat} (small : value < 16) :
    IsUpperDigit (upperHexDigit value) := by
  unfold IsUpperDigit
  revert value
  decide

theorem isDigit_upperHexDigit {value : Nat} (small : value < 16) :
    IsDigit (upperHexDigit value) value :=
  hexValue?_eq_some_iff.mp (hexValue?_upperHexDigit small)

instance (char : Char) : Decidable (IsUnreserved char) :=
  inferInstanceAs (Decidable (_ ∨ _))

theorem unreserved_ofNat : ∀ code < 256, isUnreserved (UInt8.ofNat code) = true →
    IsUnreserved (Char.ofNat code) ∧ Char.ofNat code ≠ '%' ∧
      String.utf8EncodeChar (Char.ofNat code) = [UInt8.ofNat code] := by
  decide +kernel

/-- An unreserved byte is the only one of an unreserved character. -/
theorem unreserved_byte {byte : UInt8} (unreserved : isUnreserved byte = true) :
    IsUnreserved (Char.ofNat byte.toNat) ∧ Char.ofNat byte.toNat ≠ '%' ∧
      [Char.ofNat byte.toNat].utf8Encode = [byte].toByteArray := by
  rw [← UInt8.ofNat_toNat (x := byte)] at unreserved
  rcases unreserved_ofNat byte.toNat byte.toNat_lt unreserved with ⟨permitted, other, encoded⟩
  refine ⟨permitted, other, ?_⟩
  rw [List.utf8Encode_singleton, encoded, UInt8.ofNat_toNat]

theorem isCoded_encodeByte (byte : UInt8) (coded : IsCoded rest) :
    IsCoded (encodeByte byte ++ rest) := by
  rw [encodeByte]
  split
  · rename_i unreserved
    exact .unreserved (unreserved_byte unreserved).1 coded
  · have wide := byte.toNat_lt
    exact .group (isUpperDigit_upperHexDigit (by omega)) (isUpperDigit_upperHexDigit (by omega))
      coded

/-- A byte that is written stands for itself, whatever follows it. -/
theorem denotes_encodeByte (byte : UInt8) (denotes : Denotes rest bytes) :
    Denotes (encodeByte byte ++ rest) ([byte].toByteArray ++ bytes) := by
  rw [encodeByte]
  split
  · rename_i unreserved
    rcases unreserved_byte unreserved with ⟨_, other, encoded⟩
    rw [← encoded]
    exact .literal other denotes
  · have wide := byte.toNat_lt
    have upper : IsDigit (upperHexDigit (byte.toNat / 16)) (byte.toNat / 16) :=
      isDigit_upperHexDigit (by omega)
    have lower : IsDigit (upperHexDigit (byte.toNat % 16)) (byte.toNat % 16) :=
      isDigit_upperHexDigit (by omega)
    have group := Denotes.group upper lower denotes
    rw [Nat.div_add_mod, UInt8.ofNat_toNat] at group
    exact group

theorem toList_encode (text : String) :
    (encode text).toList = (text.toList.flatMap String.utf8EncodeChar).flatMap encodeByte := by
  rw [encode, String.toList_ofList, List.flatMap_assoc]

theorem isCoded_encode (text : String) : IsCoded (encode text).toList := by
  rw [toList_encode]
  induction text.toList.flatMap String.utf8EncodeChar with
  | nil => exact .nil
  | cons byte later hypothesis => exact isCoded_encodeByte byte hypothesis

theorem denotes_encode (text : String) : Denotes (encode text).toList text.toUTF8 := by
  have encoded : text.toUTF8 = (text.toList.flatMap String.utf8EncodeChar).toByteArray := by
    rw [String.toUTF8_eq_toByteArray, ← String.ofList_toList (s := text), String.toByteArray_ofList,
      String.toList_ofList, List.utf8Encode]
  rw [toList_encode, encoded]
  induction text.toList.flatMap String.utf8EncodeChar with
  | nil => exact .nil
  | cons byte later hypothesis =>
      rw [← List.singleton_append, List.toByteArray_append]
      exact denotes_encodeByte byte hypothesis

end Text.Percent

open Text.Percent

/-- What is written of a text is coded and decodes to the text, so that every gate takes it
for the query that the text itself is. -/
theorem decode_encode (text : String) :
    decode (encode text) = .ok text ∧ IsCoded (encode text).toList ∧
      ∀ gate : Gate, gate.request (encode text) = (scan gate.scanning text).mapError .query := by
  have decoded := decode_eq_ok_iff.mpr (denotes_encode text)
  refine ⟨decoded, isCoded_encode text, ?_⟩
  intro gate
  rw [Gate.request, decoded]
  rfl

end QueryGate
