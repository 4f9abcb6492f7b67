import ItemStore.Json.Basic

/-!
# Writing JSON

Two layouts of one tree: on one line without any blank, and indented by two spaces a level, where
only empty arrays and objects stay on their line. Inside a string a quote, a backslash and the
controls below the space are escaped, and nothing else.
-/

namespace ItemStore.Json

/-- A digit of a hexadecimal number. -/
def hexDigit (n : Nat) : Char := if n < 10 then Char.ofNat (0x30 + n) else Char.ofNat (0x57 + n)

/-- One character inside a string. -/
def escape (c : Char) : List Char :=
  if c = '"' then ['\\', '"']
  else if c = '\\' then ['\\', '\\']
  else if c = '\x08' then ['\\', 'b']
  else if c = '\x0c' then ['\\', 'f']
  else if c = '\n' then ['\\', 'n']
  else if c = '\r' then ['\\', 'r']
  else if c = '\t' then ['\\', 't']
  else if c.toNat < 0x20 then
    ['\\', 'u', '0', '0', hexDigit (c.toNat / 16), hexDigit (c.toNat % 16)]
  else [c]

/-- A string in its quotes. -/
def writeString (s : String) : List Char := '"' :: s.toList.flatMap escape ++ ['"']

/-- The word of a truth value. -/
def writeBool : Bool → List Char
  | true => ['t', 'r', 'u', 'e']
  | false => ['f', 'a', 'l', 's', 'e']

/-! ## On one line -/

mutual

/-- A value without blanks. -/
def compactChars : Json → List Char
  | null => ['n', 'u', 'l', 'l']
  | bool b => writeBool b
  | number digits => digits.toList
  | string s => writeString s
  | array elements => '[' :: compactElements elements ++ [']']
  | object members => '\x7b' :: compactMembers members ++ ['\x7d']

/-- Elements with commas between them. -/
def compactElements : List Json → List Char
  | [] => []
  | [j] => compactChars j
  | j :: rest => compactChars j ++ ',' :: compactElements rest

/-- Members with commas between them. -/
def compactMembers : List (String × Json) → List Char
  | [] => []
  | [(name, j)] => writeString name ++ ':' :: compactChars j
  | (name, j) :: rest => writeString name ++ ':' :: compactChars j ++ ',' :: compactMembers rest

end

/-- The text of a tree on one line. -/
def compact (j : Json) : String := String.ofList (compactChars j)

/-! ## Indented -/

/-- A new line at a depth. -/
def newLine (depth : Nat) : List Char := '\n' :: List.replicate (2 * depth) ' '

mutual

/-- A tree that starts at a depth. -/
def indentedChars (depth : Nat) : Json → List Char
  | null => ['n', 'u', 'l', 'l']
  | bool b => writeBool b
  | number digits => digits.toList
  | string s => writeString s
  | array [] => ['[', ']']
  | array (j :: rest) =>
    '[' :: indentedElements (depth + 1) (j :: rest) ++ newLine depth ++ [']']
  | object [] => ['\x7b', '\x7d']
  | object (m :: rest) =>
    '\x7b' :: indentedMembers (depth + 1) (m :: rest) ++ newLine depth ++ ['\x7d']

/-- The elements of an array on lines of their own, with commas between them. -/
def indentedElements (depth : Nat) : List Json → List Char
  | [] => []
  | [j] => newLine depth ++ indentedChars depth j
  | j :: rest => newLine depth ++ indentedChars depth j ++ ',' :: indentedElements depth rest

/-- The members of an object on lines of their own, with commas between them. -/
def indentedMembers (depth : Nat) : List (String × Json) → List Char
  | [] => []
  | [(name, j)] => newLine depth ++ writeString name ++ ':' :: ' ' :: indentedChars depth j
  | (name, j) :: rest =>
    newLine depth ++ writeString name ++ ':' :: ' ' :: indentedChars depth j ++
      ',' :: indentedMembers depth rest

end

/-- The text of a tree over several lines. -/
def indented (j : Json) : String := String.ofList (indentedChars 0 j)

end ItemStore.Json
