import ItemStore.Error
import ItemStore.Value.Json

/-!
# Attributes on the wire

The attribute values that a remote store sends and takes. They have a few kinds more than values:
sets, which become lists, and kinds that are not known here, which are refused. An attribute is an
object with one member named for its kind; members that are null do not count. Inside lists and maps
there is no null.

The members of a map are in increasing order of name, as in a value.
-/

namespace ItemStore.Remote

/-- A value on the wire, where also sets and unknown kinds can stand. -/
inductive Attribute where
  | null (b : Bool)
  | bool (b : Bool)
  | text (s : String)
  | number (digits : String)
  | binary (bytes : List UInt8)
  | list (elements : List Attribute)
  | map (entries : List (String × Attribute))
  | textSet (elements : List String)
  | numberSet (elements : List String)
  | binarySet (elements : List (List UInt8))
  | unknown
  deriving Inhabited

namespace Attribute

/-! ## Values -/

mutual

/-- The attribute of a value. -/
def ofValue : Value → Attribute
  | .null => null true
  | .bool b => bool b
  | .text s => text s
  | .number digits => number digits
  | .binary bytes => binary bytes
  | .list values => list (ofValues values)
  | .map entries => map (ofEntries entries)

/-- The attributes of the elements of a list. -/
def ofValues : List Value → List Attribute
  | [] => []
  | v :: rest => ofValue v :: ofValues rest

/-- The attributes of the entries of a map. -/
def ofEntries : List (String × Value) → List (String × Attribute)
  | [] => []
  | (name, v) :: rest => (name, ofValue v) :: ofEntries rest

end

mutual

/-- The value of an attribute, unless there is an unknown kind in it. -/
def toValue : Attribute → Except DataFault Value
  | null _ => .ok .null
  | bool b => .ok (.bool b)
  | text s => .ok (.text s)
  | number digits => .ok (.number digits)
  | binary bytes => .ok (.binary bytes)
  | list elements => (toValues elements).map .list
  | map entries => (toEntries entries).map .map
  | textSet elements => .ok (.list (elements.map .text))
  | numberSet elements => .ok (.list (elements.map .number))
  | binarySet elements => .ok (.list (elements.map .binary))
  | unknown => .error .unknownAttribute

/-- The values of the elements of a list, if all of them are values. -/
def toValues : List Attribute → Except DataFault (List Value)
  | [] => .ok []
  | a :: rest => do
    let v ← toValue a
    let vs ← toValues rest
    return v :: vs

/-- The values of the entries of a map, if all of them are values. -/
def toEntries : List (String × Attribute) → Except DataFault (List (String × Value))
  | [] => .ok []
  | (name, a) :: rest => do
    let v ← toValue a
    let vs ← toEntries rest
    return (name, v) :: vs

end

/-- The attributes of an item. -/
def ofItem (item : Item) : List (String × Attribute) := ofEntries item.entries

/-- The item with some attributes. -/
def toItem (entries : List (String × Attribute)) : Except DataFault Item :=
  (toEntries entries).map Dict.ofList

/-! ## JSON -/

/-- Bytes in base64. -/
def bytesJson (bytes : List UInt8) : Json := .string (String.ofList (Text.Base64.encode bytes))

mutual

/-- An attribute is an object whose one member names its kind. -/
def toJson : Attribute → Json
  | null b => .object [("NULL", .bool b)]
  | bool b => .object [("BOOL", .bool b)]
  | text s => .object [("S", .string s)]
  | number digits => .object [("N", .string digits)]
  | binary bytes => .object [("B", bytesJson bytes)]
  | list elements => .object [("L", .array (allToJson elements))]
  | map entries => .object [("M", .object (entriesToJson entries))]
  | textSet elements => .object [("SS", .array (elements.map .string))]
  | numberSet elements => .object [("NS", .array (elements.map .string))]
  | binarySet elements => .object [("BS", .array (elements.map bytesJson))]
  | unknown => .object []

/-- The elements of a list, in order. -/
def allToJson : List Attribute → List Json
  | [] => []
  | a :: rest => toJson a :: allToJson rest

/-- The entries of a map, in order. -/
def entriesToJson : List (String × Attribute) → List (String × Json)
  | [] => []
  | (name, a) :: rest => (name, toJson a) :: entriesToJson rest

end

/-- The bytes of a base64 text. -/
def bytes? (j : Json) : Option (List UInt8) := j.string?.bind Value.bytesOfText?

/-- The elements of a set. -/
def elements? {α : Type} (f : Json → Option α) (j : Json) : Option (List α) :=
  j.array?.bind fun elements => elements.mapM f

mutual

/-- The attribute that an object says. -/
def ofJson? : Json → Option Attribute
  | .object members =>
    match membersOfJson? members with
    | some [a] => some a
    | _ => none
  | _ => none

/-- The attributes that the members of an object say, null and type members aside. -/
def membersOfJson? : List (String × Json) → Option (List Attribute)
  | [] => some []
  | (name, j) :: rest =>
    match j with
    | .null => membersOfJson? rest
    | j =>
      if name = "__type" then membersOfJson? rest
      else (memberOfJson? name j).bind fun a => (membersOfJson? rest).map (a :: ·)

/-- The attribute of a kind with its content. -/
def memberOfJson? (kind : String) (j : Json) : Option Attribute :=
  match kind, j with
  | "L", .array elements => (elementsOfJson? elements).map list
  | "L", _ => none
  | "M", .object members =>
    (entriesOfJson? members).map fun entries => map (Dict.ofList entries).entries
  | "M", _ => none
  | "NULL", j => j.bool?.map null
  | "BOOL", j => j.bool?.map bool
  | "S", j => j.string?.map text
  | "N", j => j.string?.map number
  | "B", j => (bytes? j).map binary
  | "SS", j => (elements? Json.string? j).map textSet
  | "NS", j => (elements? Json.string? j).map numberSet
  | "BS", j => (elements? bytes? j).map binarySet
  | _, _ => some unknown

/-- The elements of a list, if all of them can be read. -/
def elementsOfJson? : List Json → Option (List Attribute)
  | [] => some []
  | j :: rest => (ofJson? j).bind fun a => (elementsOfJson? rest).map (a :: ·)

/-- The entries that the members of a map say. -/
def entriesOfJson? : List (String × Json) → Option (List (String × Attribute))
  | [] => some []
  | (name, j) :: rest =>
    (ofJson? j).bind fun a => (entriesOfJson? rest).map ((name, a) :: ·)

end

/-- The attributes of an item, as an object. -/
def itemJson (item : Item) : Json := .object (entriesToJson (ofItem item))

/-- The attributes that an object says. -/
def itemOfJson? (j : Json) : Option (List (String × Attribute)) :=
  (j.object?.bind entriesOfJson?).map fun entries => (Dict.ofList entries).entries

end Attribute

end ItemStore.Remote
