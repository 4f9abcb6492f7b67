import ItemStore.Store.Memory

/-!
# What a step gives

`Step.outcome` runs a step: its result and the state after it. Its equations take a step of a store
apart, with `Step.outcome_bind` for one step after another. An operation on a table in memory reads
the table's rows (`Memory.outcome_rows`) and may put others in their place; a table that does not
exist counts as one without rows (`Memory.rowsOf`).
-/

namespace ItemStore.Store

@[simp] theorem mapError_ok {ε ε' α : Type} (f : ε → ε') (a : α) :
    (Except.ok a : Except ε α).mapError f = .ok a :=
  rfl

@[simp] theorem mapError_error {ε ε' α : Type} (f : ε → ε') (e : ε) :
    (Except.error e : Except ε α).mapError f = .error (f e) :=
  rfl

namespace Step

variable {σ α β : Type}

/-- What a step gives at a state, and the state after it. -/
def outcome (step : Step σ α) (store : σ) : Except Error α × σ :=
  step.run.run store

@[simp] theorem outcome_pure (a : α) (store : σ) :
    outcome (pure a : Step σ α) store = (.ok a, store) :=
  rfl

@[simp] theorem outcome_get (store : σ) : outcome (get : Step σ σ) store = (.ok store, store) :=
  rfl

@[simp] theorem outcome_modify (f : σ → σ) (store : σ) :
    outcome (modify f : Step σ PUnit) store = (.ok (), f store) :=
  rfl

@[simp] theorem outcome_ofExcept (r : Except Error α) (store : σ) :
    outcome (ofExcept r : Step σ α) store = (r, store) := by
  cases r <;> rfl

/-- A step after a step starts at the state that the first one left, unless that failed. -/
theorem outcome_bind (step : Step σ α) (f : α → Step σ β) (store : σ) :
    outcome (step >>= f) store = match outcome step store with
      | (.ok a, store') => outcome (f a) store'
      | (.error e, store') => (.error e, store') := by
  simp only [outcome, ExceptT.run_bind, StateT.run_bind]
  show (fun p : Except Error α × σ => _) (StateT.run (ExceptT.run step) store) = _
  rcases StateT.run (ExceptT.run step) store with ⟨_ | a, store'⟩ <;> rfl

/-- A step that changes nothing leaves the state as the step before it. -/
theorem outcome_bind_snd (step : Step σ α) {f : α → Step σ β}
    (hf : ∀ a store, (outcome (f a) store).2 = store) (store : σ) :
    (outcome (step >>= f) store).2 = (outcome step store).2 := by
  rw [outcome_bind]
  rcases outcome step store with ⟨_ | a, store'⟩
  · rfl
  · exact hf a store'

theorem outcome_map (step : Step σ α) (f : α → β) (store : σ) :
    outcome (f <$> step) store = ((outcome step store).1.map f, (outcome step store).2) := by
  rw [← bind_pure_comp, outcome_bind]
  rcases outcome step store with ⟨_ | a, store'⟩ <;> rfl

end Step

namespace Memory

open Step

/-- The rows of a table. -/
def rowsOf (m : Memory) (table : String) : List Item :=
  (m.tables.get? table).getD []

theorem rowsOf_insert (m : Memory) (table : String) (rows : List Item) :
    rowsOf { m with tables := m.tables.insert table rows } table = rows := by
  rw [rowsOf, Dict.get?_insert, if_pos rfl, Option.getD_some]

variable {α β : Type}

/-- A failed check ends a step before anything changes. -/
theorem outcome_checked_bind (access : Access) (r : Except StoreFault α) (f : α → Step Memory β)
    (m : Memory) : outcome (checked access r >>= f) m = match r with
      | .ok a => outcome (f a) m
      | .error fault => (.error (.store access fault), m) := by
  rw [outcome_bind, checked, outcome_ofExcept]
  cases r <;> rfl

theorem outcome_setRows (table : String) (rows : List Item) (m : Memory) :
    outcome (setRows table rows) m = (.ok (), { m with tables := m.tables.insert table rows }) :=
  rfl

/-- Reading rows makes a table if it may, and fails otherwise. -/
theorem outcome_rows (o : MemoryOptions) (access : Access) (table : String) (m : Memory) :
    outcome (rows o access table) m = match m.tables.get? table with
      | some rows => (.ok rows, m)
      | none =>
        if o.autoCreate then (.ok [], { m with tables := m.tables.insert table [] })
        else (.error (.store access (.tableNotFound table)), m) := by
  unfold rows
  simp only [outcome_bind, outcome_get]
  cases m.tables.get? table with
  | some rows => rfl
  | none => cases o.autoCreate <;> rfl

/-- The rows of a table that exists. -/
theorem outcome_rows_of_contains (o : MemoryOptions) (access : Access) {table : String}
    {m : Memory} (h : m.tables.contains table = true) :
    outcome (Memory.rows o access table) m = (.ok (m.rowsOf table), m) := by
  rw [Dict.contains_eq_isSome] at h
  obtain ⟨rows, hrows⟩ := Option.isSome_iff_exists.1 h
  rw [outcome_rows, rowsOf, hrows, Option.getD_some]

/-- Rows that were read can be read again. -/
theorem outcome_rows_again {o : MemoryOptions} {access : Access} {table : String}
    {rows : List Item} {m m' : Memory}
    (h : outcome (Memory.rows o access table) m = (.ok rows, m')) :
    outcome (Memory.rows o access table) m' = (.ok rows, m') := by
  rw [outcome_rows] at h
  cases hget : m.tables.get? table with
  | some l =>
    simp only [hget, Prod.mk.injEq, Except.ok.injEq] at h
    obtain ⟨rfl, rfl⟩ := h
    rw [outcome_rows, hget]
  | none =>
    cases hcreate : o.autoCreate with
    | false => simp [hget, hcreate] at h
    | true =>
      simp only [hget, hcreate, if_true, Prod.mk.injEq, Except.ok.injEq] at h
      obtain ⟨rfl, rfl⟩ := h
      rw [outcome_rows, Dict.get?_insert, if_pos rfl]

/-- What is read are the rows of the table. -/
theorem eq_rowsOf_of_outcome_rows {o : MemoryOptions} {access : Access} {table : String}
    {rows : List Item} {m m' : Memory}
    (h : outcome (Memory.rows o access table) m = (.ok rows, m')) : rows = m.rowsOf table := by
  rw [outcome_rows] at h
  rw [rowsOf]
  cases hget : m.tables.get? table with
  | some l =>
    simp only [hget, Prod.mk.injEq, Except.ok.injEq] at h
    rw [Option.getD_some, h.1]
  | none =>
    cases hcreate : o.autoCreate with
    | false => simp [hget, hcreate] at h
    | true =>
      simp only [hget, hcreate, if_true, Prod.mk.injEq, Except.ok.injEq] at h
      rw [Option.getD_none, h.1]

/-- The table exists, or comes to be when it is read. -/
def Readable (o : MemoryOptions) (m : Memory) (table : String) : Prop :=
  o.autoCreate = true ∨ m.tables.contains table = true

/-- Reading a readable table gives its rows, and then it exists. -/
theorem Readable.outcome_rows {o : MemoryOptions} {m : Memory} {table : String}
    (h : Readable o m table) (access : Access) :
    ∃ m', outcome (Memory.rows o access table) m = (.ok (m.rowsOf table), m') ∧
      m'.tables.contains table = true ∧ m'.rowsOf table = m.rowsOf table := by
  by_cases hcontains : m.tables.contains table = true
  · exact ⟨m, outcome_rows_of_contains o access hcontains, hcontains, rfl⟩
  · have hcreate := h.resolve_right hcontains
    have hnone : m.tables.get? table = none := by
      simpa [Dict.contains_eq_isSome] using hcontains
    refine ⟨{ m with tables := m.tables.insert table [] }, ?_, ?_, ?_⟩
    · rw [Memory.outcome_rows, hnone, rowsOf, hnone]
      simp only [hcreate, if_true, Option.getD_none]
    · simp [Dict.contains_eq_isSome, Dict.get?_insert]
    · simp [rowsOf, Dict.get?_insert, hnone]

/-- A table that is bound works on the rows of its schema. -/
theorem table_of_backend {o : MemoryOptions} {s : Schema} {t : Table Memory}
    (h : (backend o).table s = .ok t) : t = {
      name := s.table
      schema := s
      get := getItem o s
      put := putItem o s
      update := updateItem o s
      delete := deleteItem o s
      putBatch := putBatch o s
      fetch := fetchPage o s
      create := createTable s } := by
  simp only [backend] at h
  split at h
  · exact (Except.ok.inj h).symm
  · cases h

/-! ## Changing one table -/

/-- At most one table differs in the second state, and it has the rows that it had or others. -/
structure ChangesTo (table : String) (rows : List Item) (m m' : Memory) : Prop where
  frame : ∀ t, t ≠ table → m'.tables.get? t = m.tables.get? t
  table : m'.tables.get? table = m.tables.get? table ∨
    m'.tables.get? table = some (m.rowsOf table) ∨ m'.tables.get? table = some rows

variable {table : String} {rows : List Item} {m m' : Memory}

theorem ChangesTo.refl (table : String) (rows : List Item) (m : Memory) :
    ChangesTo table rows m m :=
  ⟨fun _ _ => rfl, .inl rfl⟩

/-- Reading a table's rows leaves them as they are. -/
theorem changesTo_rows (o : MemoryOptions) (access : Access) (table : String) (rows : List Item)
    (m : Memory) : ChangesTo table rows m (outcome (Memory.rows o access table) m).2 := by
  rw [outcome_rows]
  cases h : m.tables.get? table with
  | some l => exact .refl table rows m
  | none =>
    cases o.autoCreate with
    | false => exact .refl table rows m
    | true =>
      refine ⟨?_, .inr (.inl ?_)⟩
      · intro t ht
        simp [Dict.get?_insert, Ne.symm ht]
      · simp [Dict.get?_insert, rowsOf, h]

/-- Reading a table's rows and writing others. -/
theorem changesTo_setRows (o : MemoryOptions) (access : Access) (table : String)
    (f : List Item → List Item) (m : Memory) :
    ChangesTo table (f (m.rowsOf table)) m
      (outcome (Memory.rows o access table >>= fun rows => setRows table (f rows)) m).2 := by
  rw [outcome_bind, outcome_rows]
  cases h : m.tables.get? table with
  | some l =>
    refine ⟨fun t ht => ?_, .inr (.inr ?_)⟩ <;> simp only [outcome_setRows, Dict.get?_insert]
    · rw [if_neg (Ne.symm ht)]
    · simp [rowsOf, h]
  | none =>
    cases o.autoCreate with
    | false => exact .refl table _ m
    | true =>
      refine ⟨fun t ht => ?_, .inr (.inr ?_)⟩ <;>
        simp only [if_true, outcome_setRows, Dict.get?_insert]
      · rw [if_neg (Ne.symm ht), if_neg (Ne.symm ht)]
      · simp [rowsOf, h]

end Memory

end ItemStore.Store
