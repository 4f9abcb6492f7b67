import ItemStore.Schema.Basic

/-!
# Building schemas

A layout says what a table looks like and may say nonsense. It is declared piece by piece, where a
field comes after those before it and anything else in place of what was said before. `Schema.build`
accepts a layout or gives the first fault: an entity without a name, a field declared twice, no
partition key, a bad partition key, one field for both keys, a bad sort key.
-/

namespace ItemStore

/-- What a table is declared to look like. -/
structure Layout where
  entity : String
  /-- The entity's name if absent. -/
  table : Option String := none
  fields : List Field := []
  partitionKey : Option String := none
  sortKey : Option String := none

/-- One thing that is said of a table. -/
inductive Declaration where
  | table (name : String)
  | field (f : Field)
  | partitionKey (name : String)
  | sortKey (name : String)

/-- The layout with one more declaration. -/
def Layout.declare (l : Layout) : Declaration → Layout
  | .table name => { l with table := some name }
  | .field f => { l with fields := l.fields ++ [f] }
  | .partitionKey name => { l with partitionKey := some name }
  | .sortKey name => { l with sortKey := some name }

/-- The layout of an entity's table after some declarations. -/
def Layout.ofDeclarations (entity : String) (ds : List Declaration) : Layout :=
  ds.foldl declare { entity }

/-- Why a layout is no schema, or a schema no table of a remote store. -/
inductive SchemaFault where
  | emptyEntity
  | repeatedField (entity field : String)
  | noPartitionKey (entity : String)
  | sameKeys (entity field : String)
  | undeclaredKey (entity field : String)
  | unusableKey (entity field : String) (type : FieldType)
  /-- A remote store has no keys of a type. -/
  | noScalar (type : FieldType)
  deriving DecidableEq, Repr

/-- What a user reads of a fault in a layout. -/
def SchemaFault.message : SchemaFault → String
  | emptyEntity => "entity name must not be empty"
  | repeatedField e f => e ++ " declares field '" ++ f ++ "' twice"
  | noPartitionKey e => e ++ " has no partition key"
  | sameKeys e f => e ++ " uses '" ++ f ++ "' as both partition and sort key"
  | undeclaredKey e f => e ++ " key field '" ++ f ++ "' is not declared"
  | unusableKey e f t => e ++ " key field '" ++ f ++ "' has non-scalar type " ++ t.title
  | noScalar t => t.title ++ " cannot be used as a key type"

namespace Schema

/-- The first name that stands in a list for the second time. -/
def firstRepeated (seen : List String) : List String → Option String
  | [] => none
  | name :: rest => if name ∈ seen then some name else firstRepeated (name :: seen) rest

/-- Without a repeated name all names are different, and none of them was seen before. -/
theorem nodup_of_firstRepeated {names : List String} :
    ∀ {seen : List String}, firstRepeated seen names = none →
      names.Nodup ∧ ∀ name ∈ names, name ∉ seen := by
  induction names with
  | nil => simp
  | cons name rest ih =>
    intro seen h
    unfold firstRepeated at h
    split at h
    · simp at h
    · rename_i hseen
      obtain ⟨hnodup, hnot⟩ := ih h
      refine ⟨List.nodup_cons.2 ⟨fun hmem => hnot name hmem List.mem_cons_self, hnodup⟩, ?_⟩
      intro other hother
      rcases List.mem_cons.1 hother with rfl | hother
      · exact hseen
      · exact fun hmem => hnot other hother (List.mem_cons_of_mem _ hmem)

/-- A field that can be a key. -/
structure KeyField (fields : List Field) (name : String) where
  field : Field
  mem : field ∈ fields
  name_eq : field.name = name
  isKeyType : field.type.isKeyType = true

/-- The field that a layout designates as a key. -/
def keyField (entity : String) (fields : List Field) (name : String) :
    Except SchemaFault (KeyField fields name) :=
  match h : fields.find? fun f => f.name == name with
  | none => .error (.undeclaredKey entity name)
  | some f =>
    if hk : f.type.isKeyType = true then
      .ok ⟨f, List.mem_of_find?_eq_some h, by simpa using List.find?_some h, hk⟩
    else .error (.unusableKey entity name f.type)

/-- The schema of a layout, or what is wrong with the layout. -/
def build (l : Layout) : Except SchemaFault Schema :=
  if he : l.entity = "" then .error .emptyEntity
  else match hr : firstRepeated [] (l.fields.map Field.name) with
    | some name => .error (.repeatedField l.entity name)
    | none =>
      match l.partitionKey with
      | none => .error (.noPartitionKey l.entity)
      | some partitionName => do
        let partition ← keyField l.entity l.fields partitionName
        match l.sortKey with
        | none =>
          return {
            entity := l.entity
            table := l.table.getD l.entity
            fields := l.fields
            partitionKey := partition.field
            sortKey := none
            entity_ne := he
            names_nodup := (nodup_of_firstRepeated hr).1
            partition_mem := partition.mem
            partition_isKeyType := partition.isKeyType
            sort_mem := by simp
            sort_isKeyType := by simp
            sort_ne := by simp }
        | some sortName =>
          if hne : sortName = partitionName then throw (.sameKeys l.entity sortName)
          else
            let sort ← keyField l.entity l.fields sortName
            return {
              entity := l.entity
              table := l.table.getD l.entity
              fields := l.fields
              partitionKey := partition.field
              sortKey := some sort.field
              entity_ne := he
              names_nodup := (nodup_of_firstRepeated hr).1
              partition_mem := partition.mem
              partition_isKeyType := partition.isKeyType
              sort_mem := by simpa using sort.mem
              sort_isKeyType := by simpa using sort.isKeyType
              sort_ne := by simpa [sort.name_eq, partition.name_eq] using hne }

end Schema

end ItemStore
