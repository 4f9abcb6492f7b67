import ItemStore.Schema.FieldType

/-!
# Schemas

What is known of an entity's table: its name, the declared fields, and which of them are the key.
A schema is valid by construction. Its field names differ, and its key fields are declared, of a
key type and not one field twice.
-/

namespace ItemStore

/-- A declared field. -/
structure Field where
  name : String
  type : FieldType
  deriving DecidableEq, Repr, Inhabited

/-- A described table: its name, the declared fields, and which of them make the key. -/
structure Schema where
  entity : String
  table : String
  /-- In the order of their declaration. -/
  fields : List Field
  partitionKey : Field
  sortKey : Option Field
  entity_ne : entity ≠ ""
  names_nodup : (fields.map Field.name).Nodup
  partition_mem : partitionKey ∈ fields
  partition_isKeyType : partitionKey.type.isKeyType = true
  sort_mem : ∀ f ∈ sortKey, f ∈ fields
  sort_isKeyType : ∀ f ∈ sortKey, f.type.isKeyType = true
  sort_ne : ∀ f ∈ sortKey, f.name ≠ partitionKey.name

/-- The two parts of a key. -/
inductive KeyRole where
  | partition
  | sort
  deriving DecidableEq, Repr

/-- An item of an entity has no value in a key field. -/
structure MissingKey where
  entity : String
  role : KeyRole
  field : String
  deriving DecidableEq, Repr

/-- What a user reads of an item without a key. -/
def MissingKey.message (m : MissingKey) : String :=
  let role := match m.role with
    | .partition => "partition"
    | .sort => "sort"
  m.entity ++ " item is missing " ++ role ++ " key '" ++ m.field ++ "'"

namespace Schema

/-- The field declared under a name. -/
def field? (s : Schema) (name : String) : Option Field := s.fields.find? fun f => f.name == name

/-- Whether a field is declared. -/
def hasField (s : Schema) (name : String) : Bool := (s.field? name).isSome

/-- The name of the sort key. -/
def sortName? (s : Schema) : Option String := s.sortKey.map Field.name

/-- The type that the partition key is declared with. An undeclared one would count as a string. -/
def partitionType (s : Schema) : FieldType :=
  ((s.field? s.partitionKey.name).map Field.type).getD .string

/-- The type that the sort key is declared with. -/
def sortType? (s : Schema) : Option FieldType := (s.sortName?.bind s.field?).map Field.type

/-- Whether a field is part of the key. -/
def isKeyField (s : Schema) (name : String) : Bool :=
  s.partitionKey.name == name || s.sortName? == some name

/-- The value of one key field. -/
def keyValue (s : Schema) (role : KeyRole) (name : String) (item : Item) :
    Except MissingKey Value :=
  match item.get? name with
  | some v => .ok v
  | none => .error ⟨s.entity, role, name⟩

/-- The key of an item. -/
def keyOf (s : Schema) (item : Item) : Except MissingKey Key := do
  let partition ← s.keyValue .partition s.partitionKey.name item
  match s.sortKey with
  | some f => return ⟨partition, some (← s.keyValue .sort f.name item)⟩
  | none => return ⟨partition, none⟩

/-- The item that has a key and nothing else. A sort value counts only if there is a sort key. -/
def keyItem (s : Schema) (key : Key) : Item :=
  let item := Dict.empty.insert s.partitionKey.name key.partition
  match s.sortKey, key.sort with
  | some f, some v => item.insert f.name v
  | _, _ => item

end Schema

end ItemStore
