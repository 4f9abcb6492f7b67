import ItemStore.Entity.PreparedQuery

/-!
# Repositories

The operations on the entities of one type, over any store. An operation looks up the schema of the
entity first, then the table that the store binds to it, and then does its work there.
-/

namespace ItemStore

open Query Store

/-- What operations work on: the schemas known so far, and a store's state. -/
structure Session (σ : Type) where
  registry : Registry := {}
  store : σ

/-- An operation. -/
abbrev Action (σ : Type) := ExceptT Error (StateM (Session σ))

/-- A step of the store alone. -/
def Action.ofStep {σ α : Type} (step : Step σ α) : Action σ α := fun session =>
  let (result, store) := step.run.run session.store
  (result, { session with store })

/-- What is settled without the store. -/
def Action.ofExcept {σ α : Type} : Except Error α → Action σ α
  | .ok a => pure a
  | .error e => throw e

/-- The items in batches, all full but the last. -/
def batches : List Item → List (List Item)
  | [] => []
  | item :: rest =>
    (item :: rest).take batchLimit :: batches ((item :: rest).drop batchLimit)
termination_by items => items.length
decreasing_by
  simp only [List.length_drop, List.length_cons, batchLimit]
  omega

namespace Repository

variable {σ α : Type} (b : Backend σ) (e : Entity α)

/-- The schema of the entity. -/
def schema : Action σ Schema := fun session =>
  let (result, registry) := session.registry.schema e
  (result, { session with registry })

/-- The table of the entity. -/
def table : Action σ (Table σ) := do .ofExcept (b.table (← schema e))

/-- Does something on the table of the entity. -/
def onTable {β : Type} (step : Table σ → Step σ β) : Action σ β := do
  .ofStep (step (← table b e))

/-- Creates the table of the entity. -/
def createTable : Action σ Unit := onTable b e Table.create

/-! ## Writing -/

/-- Writes an entity over one with its key. -/
def persist (a : α) : Action σ Unit := onTable b e fun t => t.put (e.toItem a)

/-- Writes entities in batches and stops at the first one that fails. -/
def persistAll (as : List α) : Action σ Unit := do
  if as.isEmpty then return
  onTable b e fun t => (batches (as.map e.toItem)).forM t.putBatch

/-- Changes the stored entity, or writes a new one. -/
def update (a : α) : Action σ Unit := onTable b e fun t => t.update (e.toItem a)

/-- Updates entities one by one. -/
def updateAll (as : List α) : Action σ Unit :=
  onTable b e fun t => as.forM fun a => t.update (e.toItem a)

/-- Deletes an entity by its key. -/
def delete (a : α) : Action σ Unit :=
  onTable b e fun t => do
    t.delete (← .ofExcept ((t.schema.keyOf (e.toItem a)).mapError .ofMissingKey))

/-! ## Finding by key -/

/-- The entity under a key of a table. -/
def getEntity (t : Table σ) (key : Key) : Step σ (Option α) := do
  match ← t.get key with
  | some item => return some (← .ofExcept ((e.ofItem item).mapError .data))
  | none => return none

/-- Finds an entity by its partition value. A value that no key has finds nothing. -/
def findById (id : Value) : Action σ (Option α) := do
  if !id.isKeyType then return none
  onTable b e fun t =>
    match t.schema.sortKey with
    | some f => throw (.data (.needsSortValue t.schema.entity f.name))
    | none => getEntity e t ⟨id, none⟩

/-- Finds an entity by its whole key. -/
def findByKey (key : Key) : Action σ (Option α) := onTable b e fun t => getEntity e t key

/-! ## Queries -/

/-- The condition of a query text. -/
def bind (text : String) (bindings : Bindings) : Action σ Condition := do
  .ofExcept (Condition.ofQuery (← schema e) text bindings)

/-- Prepares a condition. -/
def prepare (c : Condition) : Action σ (PreparedQuery σ α) := return ⟨e, ← table b e, c⟩

/-- Prepares a query text. -/
def find (text : String) (bindings : Bindings) : Action σ (PreparedQuery σ α) := do
  prepare b e (← bind e text bindings)

/-- Lists the entities that match a query text. -/
def list (text : String) (bindings : Bindings) (limit : Nat) : Action σ (List α) := do
  .ofStep ((← find b e text bindings).list limit)

end Repository

end ItemStore
