import QueryGate.Json.Basic
import QueryGate.Text.Hex

/-!
# JSON as written

A JSON text is first read as it is written: members in their order, repeated or
not. A numeral that is no finite number and a string that is no text (half of a
surrogate pair) are kept as `none`, since they matter only to a reader who asks
for them. What the text means is decided by the decoders.
-/

namespace QueryGate

/-- A JSON text as written. -/
inductive Written where
  | null
  | bool (value : Bool)
  | number (value : Option Number)
  | string (value : Option String)
  | array (items : List Written)
  | object (members : List (Option String × Written))
  deriving Repr, Inhabited

namespace Written

/-- Whether a character may stand between the tokens of a JSON text. -/
def isSpace (char : Char) : Bool :=
  char == ' ' || char == '\n' || char == '\t' || char == '\r'

/-- Drops the blanks in front of the next token. -/
def skipSpace (text : List Char) : List Char := text.dropWhile isSpace

/-- One element of a string as written: a character, or a 16-bit unit given by its number. -/
inductive Piece where
  | char (value : Char)
  | unit (value : Nat)
  deriving DecidableEq, Repr

/-- The 16-bit unit that four hexadecimal digits denote. -/
def unit? (first second third fourth : Char) : Option Nat := do
  let first ← Text.hexValue? first
  let second ← Text.hexValue? second
  let third ← Text.hexValue? third
  let fourth ← Text.hexValue? fourth
  some (((first * 16 + second) * 16 + third) * 16 + fourth)

/-- The character that a backslash and a letter denote. -/
def escaped? : Char → Option Char
  | '"' => some '"'
  | '\\' => some '\\'
  | '/' => some '/'
  | 'b' => some '\x08'
  | 'f' => some '\x0c'
  | 'n' => some '\n'
  | 'r' => some '\r'
  | 't' => some '\t'
  | _ => none

/-- Reads the rest of a string, up to and with its closing quote. -/
def readPieces : List Char → Option (List Piece × List Char)
  | [] => none
  | '"' :: rest => some ([], rest)
  | '\\' :: 'u' :: first :: second :: third :: fourth :: rest => do
      let value ← unit? first second third fourth
      let (pieces, rest) ← readPieces rest
      some (.unit value :: pieces, rest)
  | '\\' :: letter :: rest => do
      let char ← escaped? letter
      let (pieces, rest) ← readPieces rest
      some (.char char :: pieces, rest)
  | char :: rest =>
      if char.toNat < 32 then none
      else do
        let (pieces, rest) ← readPieces rest
        some (.char char :: pieces, rest)

/-- Whether a 16-bit unit is the first half of a surrogate pair. -/
def isHighSurrogate (value : Nat) : Bool := 0xd800 ≤ value && value < 0xdc00

/-- Whether a 16-bit unit is the second half of a surrogate pair. -/
def isLowSurrogate (value : Nat) : Bool := 0xdc00 ≤ value && value < 0xe000

/-- The characters that the pieces of a string denote, `none` when a surrogate stands alone. -/
def charsOf? : List Piece → Option (List Char)
  | [] => some []
  | .char value :: rest => (charsOf? rest).map (value :: ·)
  | .unit high :: .unit low :: rest =>
      if isHighSurrogate high then
        if isLowSurrogate low then
          (charsOf? rest).map (Char.ofNat (0x10000 + (high - 0xd800) * 0x400 + (low - 0xdc00)) :: ·)
        else none
      else if isLowSurrogate high then none
      else (charsOf? (.unit low :: rest)).map (Char.ofNat high :: ·)
  | .unit value :: rest =>
      if isHighSurrogate value || isLowSurrogate value then none
      else (charsOf? rest).map (Char.ofNat value :: ·)

/-- Reads a string after its opening quote. -/
def readString (text : List Char) : Option (Option String × List Char) := do
  let (pieces, rest) ← readPieces text
  some ((charsOf? pieces).map String.ofList, rest)

/-- Drops a fixed word off the front of a text. -/
def dropWord? : (word text : List Char) → Option (List Char)
  | [], text => some text
  | expected :: word, char :: text => if expected = char then dropWord? word text else none
  | _ :: _, [] => none

mutual

/-- Reads a value. The fuel bounds the number of nested calls. -/
def readValue : (fuel : Nat) → List Char → Option (Written × List Char)
  | 0, _ => none
  | fuel + 1, text =>
      match skipSpace text with
      | '"' :: rest => do
          let (value, rest) ← readString rest
          some (.string value, rest)
      | '[' :: rest =>
          match skipSpace rest with
          | ']' :: rest => some (.array [], rest)
          | rest => do
              let (items, rest) ← readItems fuel rest
              some (.array items, rest)
      | '{' :: rest =>
          match skipSpace rest with
          | '}' :: rest => some (.object [], rest)
          | rest => do
              let (members, rest) ← readMembers fuel rest
              some (.object members, rest)
      | 'n' :: rest => (dropWord? ['u', 'l', 'l'] rest).map (.null, ·)
      | 't' :: rest => (dropWord? ['r', 'u', 'e'] rest).map (.bool true, ·)
      | 'f' :: rest => (dropWord? ['a', 'l', 's', 'e'] rest).map (.bool false, ·)
      | rest => do
          let (numeral, rest) ← Number.Numeral.read? rest
          some (.number (Number.ofNumeral? numeral), rest)

/-- Reads the items of an array, up to and with its closing bracket. -/
def readItems : (fuel : Nat) → List Char → Option (List Written × List Char)
  | 0, _ => none
  | fuel + 1, text => do
      let (item, rest) ← readValue fuel text
      match skipSpace rest with
      | ',' :: rest => do
          let (items, rest) ← readItems fuel rest
          some (item :: items, rest)
      | ']' :: rest => some ([item], rest)
      | _ => none

/-- Reads the members of an object, up to and with its closing brace. -/
def readMembers : (fuel : Nat) → List Char → Option (List (Option String × Written) × List Char)
  | 0, _ => none
  | fuel + 1, text =>
      match skipSpace text with
      | '"' :: rest => do
          let (name, rest) ← readString rest
          match skipSpace rest with
          | ':' :: rest => do
              let (value, rest) ← readValue fuel rest
              match skipSpace rest with
              | ',' :: rest => do
                  let (members, rest) ← readMembers fuel rest
                  some ((name, value) :: members, rest)
              | '}' :: rest => some ([(name, value)], rest)
              | _ => none
          | _ => none
      | _ => none

end

/-- Reads a text that holds one value and nothing else. Each nested call but every
second one consumes a character, so twice the length is fuel enough. -/
def read? (text : String) : Option Written := do
  let (written, rest) ← readValue (2 * text.length + 2) text.toList
  if (skipSpace rest).isEmpty then some written else none

mutual

/-- A value as it would be written. -/
def ofJson : Json → Written
  | .null => null
  | .bool value => bool value
  | .number value => number (some value)
  | .string value => string (some value)
  | .array items => array (ofItems items)
  | .object members => object (ofMembers members)

/-- The items of an array as they would be written. -/
def ofItems : List Json → List Written
  | [] => []
  | item :: rest => ofJson item :: ofItems rest

/-- The members of an object as they would be written. -/
def ofMembers : List (String × Json) → List (Option String × Written)
  | [] => []
  | (name, value) :: rest => (some name, ofJson value) :: ofMembers rest

end

end Written

end QueryGate
