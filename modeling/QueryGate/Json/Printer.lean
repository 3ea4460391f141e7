import QueryGate.Json.Basic
import QueryGate.Text.Hex

/-!
# Printing JSON

Two forms: compact, without any blanks, and indented, with one item or member a
line. Strings escape the quote, the backslash and the control characters, and
nothing else.
-/

namespace QueryGate.Json

open Text

/-- A character as it stands in a JSON string. -/
def escapeChar (char : Char) : List Char :=
  if char = '"' then ['\\', '"']
  else if char = '\\' then ['\\', '\\']
  else if char = '\x08' then ['\\', 'b']
  else if char = '\x0c' then ['\\', 'f']
  else if char = '\n' then ['\\', 'n']
  else if char = '\r' then ['\\', 'r']
  else if char = '\t' then ['\\', 't']
  else if char.toNat < 32 then
    ['\\', 'u', '0', '0', lowerHexDigit (char.toNat / 16), lowerHexDigit (char.toNat % 16)]
  else [char]

/-- A string with its quotes. -/
def quoted (value : String) : List Char :=
  '"' :: (value.toList.flatMap escapeChar ++ ['"'])

mutual

/-- The compact form of a value. -/
def compactChars : Json → List Char
  | null => ['n', 'u', 'l', 'l']
  | bool true => ['t', 'r', 'u', 'e']
  | bool false => ['f', 'a', 'l', 's', 'e']
  | number value => value.text
  | string value => quoted value
  | array items => '[' :: (compactItems items ++ [']'])
  | object members => '{' :: (compactMembers members ++ ['}'])

/-- The items of an array, separated by commas. -/
def compactItems : List Json → List Char
  | [] => []
  | [item] => compactChars item
  | item :: rest => compactChars item ++ ',' :: compactItems rest

/-- The members of an object, separated by commas. -/
def compactMembers : List (String × Json) → List Char
  | [] => []
  | [(name, value)] => quoted name ++ ':' :: compactChars value
  | (name, value) :: rest =>
      quoted name ++ ':' :: (compactChars value ++ ',' :: compactMembers rest)

end

/-- The compact text of a value. -/
def compact (value : Json) : String := String.ofList value.compactChars

/-- The start of a new line at the given depth; each level is two spaces wide. -/
def newLine (depth : Nat) : List Char := '\n' :: List.replicate (2 * depth) ' '

mutual

/-- The indented form of a value that stands at the given depth. -/
def indentedChars (depth : Nat) : Json → List Char
  | array [] => ['[', ']']
  | array items => '[' :: (indentedItems (depth + 1) items ++ newLine depth ++ [']'])
  | object [] => ['{', '}']
  | object members => '{' :: (indentedMembers (depth + 1) members ++ newLine depth ++ ['}'])
  | null => ['n', 'u', 'l', 'l']
  | bool true => ['t', 'r', 'u', 'e']
  | bool false => ['f', 'a', 'l', 's', 'e']
  | number value => value.text
  | string value => quoted value

/-- The items of an array, each on a line of its own. -/
def indentedItems (depth : Nat) : List Json → List Char
  | [] => []
  | [item] => newLine depth ++ indentedChars depth item
  | item :: rest => newLine depth ++ indentedChars depth item ++ ',' :: indentedItems depth rest

/-- The members of an object, each on a line of its own. -/
def indentedMembers (depth : Nat) : List (String × Json) → List Char
  | [] => []
  | [(name, value)] => newLine depth ++ quoted name ++ ':' :: ' ' :: indentedChars depth value
  | (name, value) :: rest =>
      newLine depth ++ quoted name ++
        ':' :: ' ' :: (indentedChars depth value ++ ',' :: indentedMembers depth rest)

end

/-- The indented text of a value. -/
def indented (value : Json) : String := String.ofList (value.indentedChars 0)

end QueryGate.Json
