import ItemStore.Json.Reader
import ItemStore.Json.Writer
import ItemStore.Text.Base64
import ItemStore.Text.Bytes
import ItemStore.Value.Basic

/-!
# Values as JSON

A value is an object with one member, whose name is the short name of its kind, and null is the
string `NULL`. Binary values are in base64. Reading takes null also as an object with a member
`NULL` that is null, and puts the members of maps in order, of one name the last.
-/

namespace ItemStore.Value

mutual

/-- The tree of a value. -/
def toJson : Value → Json
  | null => .string "NULL"
  | bool b => .object [("BOOL", .bool b)]
  | text s => .object [("S", .string s)]
  | number digits => .object [("N", .string digits)]
  | binary bytes => .object [("B", .string (String.ofList (Text.Base64.encode bytes)))]
  | list values => .object [("L", .array (valuesToJson values))]
  | map entries => .object [("M", .object (entriesToJson entries))]

/-- The elements of a list, in order. -/
def valuesToJson : List Value → List Json
  | [] => []
  | v :: rest => toJson v :: valuesToJson rest

/-- The entries of a map, in order. -/
def entriesToJson : List (String × Value) → List (String × Json)
  | [] => []
  | (name, v) :: rest => (name, toJson v) :: entriesToJson rest

end

/-- The bytes of a base64 text. -/
def bytesOfText? (s : String) : Option (List UInt8) :=
  (Text.Base64.decode (Text.bytes s.toList)).toOption

mutual

/-- The value of a tree. -/
def ofJson? : Json → Option Value
  | .string s => if s = "NULL" then some null else none
  | .object [(kind, content)] => ofMember? kind content
  | _ => none

/-- The value of a kind with its content. -/
def ofMember? (kind : String) : Json → Option Value
  | .null => if kind = "NULL" then some null else none
  | .bool b => if kind = "BOOL" then some (bool b) else none
  | .string s =>
    if kind = "S" then some (text s)
    else if kind = "N" then some (number s)
    else if kind = "B" then (bytesOfText? s).map binary
    else none
  | .array elements => if kind = "L" then (valuesOfJson? elements).map list else none
  | .object members =>
    if kind = "M" then (entriesOfJson? members).map fun l => ofDict (Dict.ofList l) else none
  | .number _ => none

/-- The elements of a list, if all of them are values. -/
def valuesOfJson? : List Json → Option (List Value)
  | [] => some []
  | j :: rest => (ofJson? j).bind fun v => (valuesOfJson? rest).map (v :: ·)

/-- The entries of a map, if all of them are values. -/
def entriesOfJson? : List (String × Json) → Option (List (String × Value))
  | [] => some []
  | (name, j) :: rest => (ofJson? j).bind fun v => (entriesOfJson? rest).map ((name, v) :: ·)

end

/-- The value that a JSON text says. -/
def read? (s : String) : Option Value := (Json.read? s).bind ofJson?

end ItemStore.Value

namespace ItemStore

/-- The tree of an item. -/
def Item.toJson (item : Item) : Json := .object (Value.entriesToJson item.entries)

/-- The item of a tree. -/
def Item.ofJson? (j : Json) : Option Item :=
  (j.object?.bind Value.entriesOfJson?).map Dict.ofList

end ItemStore
