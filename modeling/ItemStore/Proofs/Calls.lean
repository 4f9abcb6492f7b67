import ItemStore.Proofs.KeyOrder
import ItemStore.Proofs.Keys
import ItemStore.Proofs.Steps

/-!
# Calls on the tables of a store

Callers use a store through handles, each of which binds a table to a schema. A `Use` is one call by
one handle, and `Memory.after` is the state that uses leave. What a call does to the rows of its
table is a function of those rows (`Call.rowsAfter`), and it does nothing else (`Use.changesTo`).
-/

namespace ItemStore.Store

open Query

/-- What a caller asks of a table. -/
inductive Call where
  | get (key : Key)
  | put (item : Item)
  | update (item : Item)
  | delete (key : Key)
  | putBatch (items : List Item)
  | fetch (c : Condition) (start : Option Item)
  | create

namespace Call

/-- Makes the call, whatever it gives. -/
def step (o : MemoryOptions) (s : Schema) : Call → Step Memory Unit
  | get key => discard (Memory.getItem o s key)
  | put item => Memory.putItem o s item
  | update item => Memory.updateItem o s item
  | delete key => Memory.deleteItem o s key
  | putBatch items => Memory.putBatch o s items
  | fetch c start => discard (Memory.fetchPage o s c start)
  | create => Memory.createTable s

/-- The rows that the call puts, under their keys: those of an accepted put, or as much of an
accepted batch as the store takes. -/
def puts (o : MemoryOptions) (s : Schema) : Call → List (Key × Item)
  | put item => match Memory.itemKey s item with
    | .ok key => [(key, item)]
    | .error _ => []
  | putBatch items =>
    if batchLimit < items.length then []
    else match items.mapM (Memory.itemKey s) with
      | .ok keys => (keys.zip items).take (min items.length o.batchCapacity)
      | .error _ => []
  | _ => []

/-- The key and the item of an accepted update. -/
def updates (s : Schema) : Call → Option (Key × Item)
  | update item => (Memory.itemKey s item).toOption.map fun key => (key, item)
  | _ => none

/-- The rows of the table after the call, if it exists or comes to be. -/
def rowsAfter (o : MemoryOptions) (s : Schema) (call : Call) (rows : List Item) : List Item :=
  match call with
  | put _ | putBatch _ => Memory.storeRows s (call.puts o s) rows
  | update _ => match call.updates s with
    | some (key, item) => storeRow s key (updatedRow s key item (findRow s key rows)) rows
    | none => rows
  | delete key => match Memory.checkKey s key with
    | .ok () => removeRow s key rows
    | .error _ => rows
  | get _ | fetch _ _ | create => rows

/-- What storing a row, an update and removing a row keep, a call keeps. -/
theorem rowsAfter_keeps {P : List Item → Prop} {o : MemoryOptions} {s : Schema} {call : Call}
    (store : ∀ rows, P rows → ∀ e ∈ call.puts o s, P (storeRow s e.1 e.2 rows))
    (update : ∀ rows, P rows → ∀ e ∈ call.updates s,
      P (storeRow s e.1 (updatedRow s e.1 e.2 (findRow s e.1 rows)) rows))
    (remove : ∀ rows, P rows → ∀ key, P (removeRow s key rows)) {rows : List Item} (h : P rows) :
    P (call.rowsAfter o s rows) := by
  have hputs : P (Memory.storeRows s (call.puts o s) rows) := by
    revert store
    generalize call.puts o s = entries
    intro store
    induction entries generalizing rows with
    | nil => exact h
    | cons e entries ih =>
      exact ih (store rows h e (.head _)) fun rows h e he => store rows h e (.tail _ he)
  cases hcall : call with
  | put | putBatch => simpa only [rowsAfter, hcall] using hputs
  | update item =>
    rw [rowsAfter]
    split
    · rename_i he
      exact update rows h _ (hcall ▸ he)
    · exact h
  | delete key =>
    rw [rowsAfter]
    split
    · exact remove rows h key
    · exact h
  | get | fetch | create => exact h

end Call

/-- A call by a handle on the table of its schema. -/
structure Use where
  options : MemoryOptions
  schema : Schema
  call : Call

namespace Use

/-- A call by a handle with the usual options. -/
def plain (s : Schema) (call : Call) : Use where
  options := {}
  schema := s
  call := call

/-- The store after the call. -/
def run (u : Use) (m : Memory) : Memory :=
  ((u.call.step u.options u.schema).outcome m).2

/-- The number texts in the keys that the call writes. -/
def keyNumbers (u : Use) : List String :=
  (u.call.puts u.options u.schema ++ (u.call.updates u.schema).toList).flatMap fun e => e.1.numbers

/-- A use that, if it is of the table of a schema, is by a handle with the schema's key fields and
writes only certain number texts in keys. -/
structure Orderly (s : Schema) (admits : String → Prop) (u : Use) : Prop where
  sameKeys : u.schema.table = s.table → u.schema.SameKeys s
  numbers : u.schema.table = s.table → ∀ digits ∈ u.keyNumbers, admits digits

theorem orderly_plain {s : Schema} {admits : String → Prop} {call : Call}
    (h : ∀ digits ∈ (plain s call).keyNumbers, admits digits) : (plain s call).Orderly s admits :=
  ⟨fun _ => ⟨rfl, rfl⟩, fun _ => h⟩

end Use

/-- The store after some uses, one after the other. -/
def Memory.after (m : Memory) (uses : List Use) : Memory :=
  uses.foldl (fun m u => u.run m) m

/-! ## What a call does to its table -/

open Memory Step

/-- A step whose result is not looked at changes the state all the same. -/
theorem outcome_discard {σ α : Type} (step : Step σ α) (store : σ) :
    (outcome (discard step : Step σ Unit) store).2 = (outcome step store).2 := by
  show (outcome ((fun _ => ()) <$> step) store).2 = _
  rw [outcome_map]

variable (o : MemoryOptions) (s : Schema) (m : Memory)

/-- A lookup leaves the rows as they are. -/
theorem changesTo_getItem (key : Key) (rows : List Item) :
    ChangesTo s.table rows m (outcome (getItem o s key) m).2 := by
  rw [getItem, outcome_checked_bind]
  cases checkKey s key with
  | error fault => exact .refl _ _ m
  | ok _ =>
    rw [outcome_bind_snd _ fun _ _ => rfl]
    exact changesTo_rows o .read s.table rows m

/-- A put leaves the rows that the call says. -/
theorem changesTo_putItem (item : Item) :
    ChangesTo s.table ((Call.put item).rowsAfter o s (m.rowsOf s.table)) m
      (outcome (putItem o s item) m).2 := by
  rw [putItem, outcome_checked_bind, Call.rowsAfter, Call.puts]
  cases itemKey s item with
  | error fault => exact .refl _ _ m
  | ok key => exact changesTo_setRows o .write s.table (storeRow s key item) m

/-- An update leaves the rows that the call says. -/
theorem changesTo_updateItem (item : Item) :
    ChangesTo s.table ((Call.update item).rowsAfter o s (m.rowsOf s.table)) m
      (outcome (updateItem o s item) m).2 := by
  rw [updateItem, outcome_checked_bind, Call.rowsAfter, Call.updates]
  cases itemKey s item with
  | error fault => exact .refl _ _ m
  | ok key =>
    exact changesTo_setRows o .write s.table
      (fun rows => storeRow s key (updatedRow s key item (findRow s key rows)) rows) m

/-- A deletion leaves the rows that the call says. -/
theorem changesTo_deleteItem (key : Key) :
    ChangesTo s.table ((Call.delete key).rowsAfter o s (m.rowsOf s.table)) m
      (outcome (deleteItem o s key) m).2 := by
  rw [deleteItem, outcome_checked_bind, Call.rowsAfter]
  cases checkKey s key with
  | error fault => exact .refl _ _ m
  | ok _ => exact changesTo_setRows o .write s.table (removeRow s key) m

/-- A batch leaves the rows that the call says, as many as the store takes. -/
theorem changesTo_putBatch (items : List Item) :
    ChangesTo s.table ((Call.putBatch items).rowsAfter o s (m.rowsOf s.table)) m
      (outcome (putBatch o s items) m).2 := by
  unfold putBatch Call.rowsAfter Call.puts
  cases items with
  | nil => exact .refl _ _ m
  | cons item items =>
    simp only [List.isEmpty_cons, Bool.false_eq_true, if_false]
    split
    · exact .refl _ _ m
    · rw [outcome_checked_bind]
      cases (item :: items).mapM (itemKey s) with
      | error fault => exact .refl _ _ m
      | ok keys =>
        simp only [outcome_bind (modify _), outcome_modify]
        rw [← bind_assoc, outcome_bind_snd]
        · have h := changesTo_setRows o .write s.table
            (storeRows s ((keys.zip (item :: items)).take
              (min (item :: items).length o.batchCapacity)))
            { m with batchWrites := m.batchWrites + 1 }
          exact ⟨h.frame, h.table⟩
        · intro _ m'
          split <;> rfl

/-- A fetch leaves the rows as they are. -/
theorem changesTo_fetchPage (c : Condition) (start : Option Item) (rows : List Item) :
    ChangesTo s.table rows m (outcome (fetchPage o s c start) m).2 := by
  rw [fetchPage, outcome_checked_bind]
  cases checkPartition c with
  | error fault => exact .refl _ _ m
  | ok _ =>
    rw [outcome_bind_snd]
    · exact changesTo_rows o .read s.table rows m
    · intro l m'
      rw [outcome_checked_bind]
      cases offsetAfter s (sortRows s (l.filter (c.selects s))) start <;> simp

/-- Creating a table adds no rows to any. -/
theorem changesTo_createTable (rows : List Item) :
    ChangesTo s.table rows m (outcome (createTable s) m).2 := by
  unfold createTable
  simp only [outcome_bind, outcome_get]
  cases hcontains : m.tables.contains s.table with
  | true => exact .refl _ _ m
  | false =>
    have hnone : m.tables.get? s.table = none := by
      simpa [Dict.contains_eq_isSome] using hcontains
    refine ⟨?_, .inr (.inl ?_)⟩
    · intro t ht
      show (m.tables.insert s.table []).get? t = _
      rw [Dict.get?_insert, if_neg (Ne.symm ht)]
    · show (m.tables.insert s.table []).get? s.table = _
      rw [Dict.get?_insert, if_pos rfl, rowsOf, hnone, Option.getD_none]

/-- A call changes its own table only, to the rows that `Call.rowsAfter` says. -/
theorem Use.changesTo (u : Use) (m : Memory) :
    ChangesTo u.schema.table
      (u.call.rowsAfter u.options u.schema (m.rowsOf u.schema.table)) m (u.run m) := by
  obtain ⟨o, s, call⟩ := u
  cases call with
  | get key =>
    rw [run, Call.step, outcome_discard]
    exact changesTo_getItem o s m key _
  | put item => exact changesTo_putItem o s m item
  | update item => exact changesTo_updateItem o s m item
  | delete key => exact changesTo_deleteItem o s m key
  | putBatch items => exact changesTo_putBatch o s m items
  | fetch c start =>
    rw [run, Call.step, outcome_discard]
    exact changesTo_fetchPage o s m c start _
  | create => exact changesTo_createTable s m _

end ItemStore.Store
