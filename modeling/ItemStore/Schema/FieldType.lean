import ItemStore.Value.Basic

/-!
# Field types

The declared type of a field. Three of them can be a key, and a key field of such a type takes the
values of one kind.
-/

namespace ItemStore

/-- The types that a declared field can have. -/
inductive FieldType where
  | string
  | number
  | binary
  | bool
  | list
  | map
  deriving DecidableEq, Repr, Inhabited

namespace FieldType

/-- Keys are strings, numbers or binary. -/
def isKeyType : FieldType → Bool
  | string | number | binary => true
  | _ => false

/-- Whether a key field of the type takes a value. -/
def acceptsKey : FieldType → Value → Bool
  | string, .text _ => true
  | number, .number _ => true
  | binary, .binary _ => true
  | _, _ => false

/-- The type's name in a layout. -/
def name : FieldType → String
  | string => "string"
  | number => "number"
  | binary => "binary"
  | bool => "bool"
  | list => "list"
  | map => "map"

/-- The type's name in a message. -/
def title : FieldType → String
  | string => "String"
  | number => "Number"
  | binary => "Binary"
  | bool => "Bool"
  | list => "List"
  | map => "Map"

/-- Reads a type by its name or its short name, in any case of the Latin letters. -/
def ofName? (s : String) : Option FieldType :=
  match String.ofList (s.toList.map Char.toLower) with
  | "s" | "string" => some string
  | "n" | "number" => some number
  | "b" | "binary" => some binary
  | "bool" | "boolean" => some bool
  | "l" | "list" => some list
  | "m" | "map" => some map
  | _ => none

/-- What a key field takes is of a kind that keys are made of. -/
theorem isKeyType_of_acceptsKey {t : FieldType} {v : Value} (h : t.acceptsKey v = true) :
    t.isKeyType = true ∧ v.isKeyType = true := by
  cases t <;> cases v <;> simp_all [acceptsKey, isKeyType, Value.isKeyType]

end FieldType

end ItemStore
