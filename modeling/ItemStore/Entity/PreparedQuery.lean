import ItemStore.Entity.Basic
import ItemStore.Store.Cursor

/-!
# Prepared queries

A condition that is ready to run on the table of an entity. Listing it, or asking for its first
entity, starts over every time. Its streams share one cursor, which runs through the table once: a
stream goes on where another stopped, and ends at its first error. Every call says how many pages it
may try to fetch.
-/

namespace ItemStore

open Query Store

/-- A condition that is ready to run on the table of an entity. -/
structure PreparedQuery (σ α : Type) where
  entity : Entity α
  table : Table σ
  condition : Condition

/-- A stream over the entities of a prepared query. -/
structure EntityStream where
  ended : Bool := false

namespace PreparedQuery

variable {σ α : Type} (q : PreparedQuery σ α)

/-- The entity of an item. -/
def entityOf (item : Item) : Except Error α := (q.entity.ofItem item).mapError .data

/-- Every entity that matches. -/
def list (limit : Nat) : Step σ (List α) := do
  let items ← Cursor.runNew q.condition (Cursor.drain q.table limit)
  .ofExcept (items.mapM q.entityOf)

/-- The first entity that matches. -/
def first (limit : Nat) : Step σ (Option α) := do
  match ← Cursor.runNew q.condition (Cursor.nextItem q.table limit) with
  | some item => return some (← .ofExcept (q.entityOf item))
  | none => return none

/-- The cursor that the streams of the query share, before any of them is asked. -/
def cursor : Cursor := { condition := q.condition }

/-- The next element of a stream, an entity or an error, or nothing at its end. -/
def poll (limit : Nat) (stream : EntityStream) :
    StateM (σ × Cursor) (Option (Except Error α) × EntityStream) := do
  if stream.ended then return (none, stream)
  match ← (Cursor.nextItem q.table limit).run with
  | .ok (some item) =>
    match q.entityOf item with
    | .ok a => return (some (.ok a), stream)
    | .error e => return (some (.error e), ⟨true⟩)
  | .ok none => return (none, ⟨true⟩)
  | .error e => return (some (.error e), ⟨true⟩)

end PreparedQuery

end ItemStore
