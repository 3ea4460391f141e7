import QueryGate.Text.Hex

/-!
# Percent coding

In percent-coded text a byte may be written as a `%` and two hexadecimal digits.
Neighbouring groups are decoded together as UTF-8, so that a character of several
bytes comes back as one character. A plus sign stands for itself.
-/

namespace QueryGate

/-- Why percent-coded text cannot be decoded; positions count characters. -/
inductive DecodeError where
  /-- Fewer than two characters follow a `%`. -/
  | truncated (position : Nat)
  /-- The two characters after a `%` are not both hexadecimal digits. -/
  | invalidGroup (position : Nat) (high low : Char)
  /-- The bytes of neighbouring groups are not UTF-8. -/
  | invalidUtf8 (position : Nat)
  deriving DecidableEq, Repr

namespace DecodeError

/-- Where the `%` at fault stands. -/
def position : DecodeError → Nat
  | truncated position => position
  | invalidGroup position _ _ => position
  | invalidUtf8 position => position

/-- The wording of the error. -/
def message : DecodeError → String
  | truncated position => s!"truncated percent-encoding at position {position}"
  | invalidGroup position high low =>
      s!"invalid percent-encoding '%{high}{low}' at position {position}"
  | invalidUtf8 position =>
      s!"percent-encoded bytes at position {position} are not valid UTF-8"

end DecodeError

namespace Text.Percent

/-- The byte that two hexadecimal digits denote. -/
def byte? (high low : Char) : Option UInt8 := do
  let high ← hexValue? high
  let low ← hexValue? low
  some (UInt8.ofNat (16 * high + low))

/-- The text of a run of bytes that began at `start`. -/
def runText (start : Nat) (run : ByteArray) : Except DecodeError (List Char) :=
  match run.utf8Decode? with
  | some chars => .ok chars.toList
  | none => .error (.invalidUtf8 start)

/-- Decodes the rest of a text that stands at `position`. `run` holds the bytes
of the groups just before it and `start` is where the first of them stands. -/
def decodeRest (start : Nat) (run : ByteArray) (position : Nat) :
    List Char → Except DecodeError (List Char)
  | [] => runText start run
  | '%' :: high :: low :: rest =>
      match byte? high low with
      | none => .error (.invalidGroup position high low)
      | some byte =>
          let start := if run.isEmpty then position else start
          decodeRest start (run.push byte) (position + 3) rest
  | char :: rest =>
      if char = '%' then .error (.truncated position)
      else do
        let before ← runText start run
        let after ← decodeRest position .empty (position + 1) rest
        return before ++ char :: after

/-- Decodes a percent-coded text. -/
def decode (text : String) : Except DecodeError String :=
  (decodeRest 0 .empty 0 text.toList).map String.ofList

/-- Whether a byte stands for itself: ASCII letters, digits, and `-`, `_`, `.`, `~`. -/
def isUnreserved (byte : UInt8) : Bool :=
  (Char.ofNat byte.toNat).isAlphanum || byte == 45 || byte == 95 || byte == 46 || byte == 126

/-- Writes one byte, as itself or as a group. -/
def encodeByte (byte : UInt8) : List Char :=
  if isUnreserved byte then [Char.ofNat byte.toNat]
  else ['%', upperHexDigit (byte.toNat / 16), upperHexDigit (byte.toNat % 16)]

/-- Writes a text byte by byte in percent coding. -/
def encode (text : String) : String :=
  String.ofList (text.toList.flatMap fun char =>
    (String.utf8EncodeChar char).flatMap encodeByte)

end Text.Percent

end QueryGate
