import ItemStore.Entity.Repository
import ItemStore.Proofs.Steps

/-!
# Operations as steps of a store

An operation finds the schema of its entity and the table that is bound to it, and what it does then
is a step of the store (`Repository.outcome_onTable`). So writing, finding and listing entities are
described by what the table does with their items.
-/

namespace ItemStore

open Query Store Step

namespace Store

variable {σ α : Type}

theorem outcome_forM_cons (f : α → Step σ Unit) (a : α) (rest : List α) (store : σ) :
    outcome ((a :: rest).forM f) store = match outcome (f a) store with
      | (.ok _, store') => outcome (rest.forM f) store'
      | (.error e, store') => (.error e, store') := by
  show outcome (f a >>= fun _ => rest.forM f) store = _
  rw [outcome_bind]
  rcases outcome (f a) store with ⟨_ | _, store'⟩ <;> rfl

end Store

namespace Action

variable {σ α : Type}

/-- A step of the store leaves the registry as it is. -/
theorem outcome_ofStep (step : Step σ α) (session : Session σ) :
    outcome (Action.ofStep step) session =
      ((outcome step session.store).1, ⟨session.registry, (outcome step session.store).2⟩) :=
  rfl

theorem outcome_ofExcept (r : Except Error α) (session : Session σ) :
    outcome (Action.ofExcept r) session = (r, session) := by
  cases r <;> rfl

end Action

namespace Repository

variable {σ α : Type} {b : Backend σ} {e : Entity α} {s : Schema} {t : Table σ}
  {registry registry' : Registry}

/-- A schema that was found is known. -/
theorem schema_again (h : registry.schema e = (.ok s, registry')) :
    registry'.schema e = (.ok s, registry') := by
  unfold Registry.schema at h
  cases hget : registry.schemas.get? e.id with
  | some s' =>
    rw [hget] at h
    obtain ⟨hs, rfl⟩ := Prod.mk.inj h
    obtain rfl := Except.ok.inj hs
    rw [Registry.schema, hget]
  | none =>
    rw [hget] at h
    cases hdescribe : e.describe with
    | error fault =>
      rw [hdescribe] at h
      cases (Prod.mk.inj h).1
    | ok s' =>
      rw [hdescribe] at h
      obtain ⟨hs, rfl⟩ := Prod.mk.inj h
      obtain rfl := Except.ok.inj hs
      rw [Registry.schema, Dict.get?_insert, if_pos rfl]

/-- An entity that is described brings its schema, and the store is not touched. -/
theorem outcome_schema (hschema : registry.schema e = (.ok s, registry')) (store : σ) :
    outcome (schema e : Action σ Schema) ⟨registry, store⟩ = (.ok s, ⟨registry', store⟩) := by
  show ((registry.schema e).1, (⟨(registry.schema e).2, store⟩ : Session σ)) = _
  rw [hschema]

/-- The table of an entity is that of its schema. -/
theorem outcome_table (hschema : registry.schema e = (.ok s, registry'))
    (htable : b.table s = .ok t) (store : σ) :
    outcome (table b e) ⟨registry, store⟩ = (.ok t, ⟨registry', store⟩) := by
  rw [table, outcome_bind, outcome_schema hschema]
  simp only [Action.outcome_ofExcept, htable]

/-- An operation on a table that is bound is a step of the store. -/
theorem outcome_onTable {β : Type} (hschema : registry.schema e = (.ok s, registry'))
    (htable : b.table s = .ok t) (step : Table σ → Step σ β) (store : σ) :
    outcome (onTable b e step) ⟨registry, store⟩ =
      ((outcome (step t) store).1, ⟨registry', (outcome (step t) store).2⟩) := by
  rw [onTable, outcome_bind, outcome_table hschema htable]
  simp only [Action.outcome_ofStep]

/-! ## Finding and listing -/

/-- The entity under a key is made of the item under it. -/
theorem outcome_getEntity (t : Table σ) (key : Key) (store : σ) :
    outcome (getEntity e t key) store = match outcome (t.get key) store with
      | (.ok row?, store') => (row?.mapM fun row => (e.ofItem row).mapError .data, store')
      | (.error error, store') => (.error error, store') := by
  rw [getEntity, outcome_bind]
  rcases outcome (t.get key) store with ⟨_ | _ | row, store'⟩
  · rfl
  · rfl
  · simp only [outcome_bind, outcome_ofExcept, Option.mapM_some]
    cases e.ofItem row <;> rfl

/-- Finding by key is the lookup in the table of the entity. -/
theorem outcome_findByKey (hschema : registry.schema e = (.ok s, registry'))
    (htable : b.table s = .ok t) (key : Key) (store : σ) :
    outcome (findByKey b e key) ⟨registry, store⟩ =
      ((outcome (getEntity e t key) store).1,
        ⟨registry', (outcome (getEntity e t key) store).2⟩) :=
  outcome_onTable hschema htable _ store

/-- A query text lists the entities of the items that its condition gives. -/
theorem outcome_list {text : String} {bindings : Bindings} {c : Condition}
    (hschema : registry.schema e = (.ok s, registry')) (htable : b.table s = .ok t)
    (hquery : Condition.ofQuery s text bindings = .ok c) (limit : Nat) (store : σ) :
    outcome (list b e text bindings limit) ⟨registry, store⟩ =
      match outcome (Cursor.runNew c (Cursor.drain t limit)) store with
      | (.ok rows, store') =>
        (rows.mapM fun row => (e.ofItem row).mapError .data, ⟨registry', store'⟩)
      | (.error error, store') => (.error error, ⟨registry', store'⟩) := by
  have hbind : outcome (bind e text bindings : Action σ Condition) ⟨registry, store⟩ =
      (.ok c, ⟨registry', store⟩) := by
    rw [bind, outcome_bind, outcome_schema hschema]
    simp only [Action.outcome_ofExcept, hquery]
  have hfind : outcome (find b e text bindings) ⟨registry, store⟩ =
      (.ok ⟨e, t, c⟩, ⟨registry', store⟩) := by
    rw [find, outcome_bind, hbind]
    simp only [prepare, outcome_bind, outcome_table (schema_again hschema) htable, outcome_pure]
  rw [list, outcome_bind, hfind]
  simp only [Action.outcome_ofStep, PreparedQuery.list, outcome_bind, outcome_ofExcept]
  rcases outcome (Cursor.runNew c (Cursor.drain t limit)) store with ⟨_ | rows, store'⟩ <;> rfl

end Repository

end ItemStore
