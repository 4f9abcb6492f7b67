import ItemStore.Error

/-!
# Entities

A type whose values live in a table of their own: how its table looks, and how a value becomes an
item and an item a value again. A registry keeps the schemas of the entities that were used, so that
each is described once; a description that fails is tried again the next time.
-/

namespace ItemStore

/-- How the values of a type are kept in a table: the schema, and items there and back. -/
structure Entity (α : Type) where
  /-- Tells the entities of a program apart. -/
  id : String
  describe : Except SchemaFault Schema
  toItem : α → Item
  ofItem : Item → Except DataFault α

/-- The schemas of the entities used so far. -/
structure Registry where
  schemas : Dict Schema := {}
  /-- How often an entity was asked to describe its table. -/
  described : Nat := 0

namespace Registry

/-- The number of entities that are known. -/
def size (r : Registry) : Nat := r.schemas.size

/-- The schema of an entity, described if it is not known. -/
def schema {α : Type} (e : Entity α) (r : Registry) : Except Error Schema × Registry :=
  match r.schemas.get? e.id with
  | some s => (.ok s, r)
  | none =>
    match e.describe with
    | .ok s => (.ok s, ⟨r.schemas.insert e.id s, r.described + 1⟩)
    | .error fault => (.error (.schema fault), { r with described := r.described + 1 })

end Registry

end ItemStore
