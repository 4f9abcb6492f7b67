import ItemStore.Query.Condition

/-!
# Tables

What a store does with the table of one schema. A step of a store changes its state and gives a
result or an error; after an error the state may have changed too, as when a batch is taken in part.
Reads come in pages, and a page that is not the last says where the next one starts.
-/

namespace ItemStore.Store

open Query

/-- A step of a store whose state is of type `σ`. -/
abbrev Step (σ : Type) := ExceptT Error (StateM σ)

/-- Some of the items that a read gives. -/
structure Page where
  items : List Item
  /-- The key to start after for the next page; nothing on the last one. -/
  resume : Option Item := none
  deriving Inhabited

/-- One table, for the entities of one schema. -/
structure Table (σ : Type) where
  name : String
  schema : Schema
  get : Key → Step σ (Option Item)
  /-- Writes an item over one with its key. -/
  put : Item → Step σ Unit
  /-- Sets the attributes of an item and removes the declared ones that it lacks. -/
  update : Item → Step σ Unit
  delete : Key → Step σ Unit
  putBatch : List Item → Step σ Unit
  /-- Reads the page after a key, or the first one. -/
  fetch : Condition → Option Item → Step σ Page
  create : Step σ Unit

/-- A store: the tables that it binds to schemas. -/
structure Backend (σ : Type) where
  table : Schema → Except Error (Table σ)

/-- How many items a batch may have. -/
def batchLimit : Nat := 25

/-- A step that does nothing to the state. -/
def Step.ofExcept {σ α : Type} : Except Error α → Step σ α
  | .ok a => pure a
  | .error e => throw e

end ItemStore.Store
