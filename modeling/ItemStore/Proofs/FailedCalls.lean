import ItemStore.Proofs.Batches
import ItemStore.Proofs.Resuming

/-!
# What calls leave alone

A call checks its keys, looks for its table and then changes the rows, so one that fails has changed
none, unless it is a batch that was taken in part. A call that only reads may bring the table into
being, without rows, and where tables have to be created it does not even do that
(`Memory.Refuses`). Main statement: at every state that calls lead to, this holds of every further
call, and where tables have to be created the tables are those whose creation was accepted
(`Memory.spares_after`).
-/

namespace ItemStore

namespace Store

open Query Memory Step

namespace Call

/-- The call is not meant to change any row. -/
def Reads : Call → Prop
  | get _ | fetch _ _ => True
  | put _ | update _ | delete _ | putBatch _ | create => False

/-- The call is about rows of a table. -/
def NeedsTable : Call → Prop
  | get _ | put _ | update _ | delete _ | fetch _ _ => True
  | putBatch items => items ≠ []
  | create => False

end Call

namespace Use

/-- Whether the call goes well, or its error. -/
def result (u : Use) (m : Memory) : Except Error Unit :=
  ((u.call.step u.options u.schema).outcome m).1

/-- What a call leaves alone. -/
structure Spares (u : Use) (m : Memory) : Prop where
  /-- A call that fails leaves all rows as they are, unless a batch was taken in part. -/
  rows_of_error : ∀ e, u.result m = .error e → (∀ count, e ≠ .unprocessed count) →
    ∀ table, (u.run m).rowsOf table = m.rowsOf table
  /-- A call that reads leaves them as they are in any case. -/
  rows_of_reads : u.call.Reads → ∀ table, (u.run m).rowsOf table = m.rowsOf table
  /-- Creating a table leaves the tables that exist as they are. -/
  tables_of_create : u.call = .create → ∀ table rows, m.tables.get? table = some rows →
    (u.run m).tables.get? table = some rows
  /-- Where tables have to be created, nothing else brings one into being or removes one. -/
  contains_of_manual : u.options.autoCreate = false →
    ¬(u.call = .create ∧ u.result m = .ok ()) →
      ∀ table, (u.run m).tables.contains table = m.tables.contains table
  /-- There every call for rows of a table that was not created fails. -/
  fails_of_manual : u.options.autoCreate = false → u.call.NeedsTable →
    m.tables.contains u.schema.table = false → ∃ e, u.result m = .error e

end Use

namespace Memory

variable {α β : Type} {o : MemoryOptions} {s : Schema} {m : Memory} {table : String}

/-! ## Steps that are refused -/

/-- A step fails and leaves the tables as they are. -/
def Refuses (step : Step Memory α) (m : Memory) : Prop :=
  ∃ e m', outcome step m = (.error e, m') ∧ m'.tables = m.tables

/-- A checked step refuses if what comes after it does: a failed check refuses too. -/
theorem refuses_checked {access : Access} {r : Except StoreFault α} {f : α → Step Memory β}
    (h : ∀ a, Refuses (f a) m) : Refuses (checked access r >>= f) m := by
  rw [Refuses, outcome_checked_bind]
  cases r with
  | error fault => exact ⟨_, m, rfl, rfl⟩
  | ok a => exact h a

/-- A step that needs the rows of an unreadable table refuses. -/
theorem refuses_rows (h : ¬Readable o m table) (access : Access)
    (f : List Item → Step Memory β) : Refuses (Memory.rows o access table >>= f) m := by
  rw [Refuses, outcome_bind, outcome_rows_of_not_readable h]
  exact ⟨_, m, rfl, rfl⟩

theorem refuses_discard {step : Step Memory α} (h : Refuses step m) :
    Refuses (discard step : Step Memory Unit) m := by
  obtain ⟨e, m', hstep, htables⟩ := h
  refine ⟨e, m', ?_, htables⟩
  show outcome ((fun _ => ()) <$> step) m = _
  rw [outcome_map, hstep]
  rfl

theorem refuses_modify {g : Memory → Memory} {f : PUnit → Step Memory β}
    (hg : (g m).tables = m.tables) (h : Refuses (f ⟨⟩) (g m)) : Refuses (modify g >>= f) m := by
  obtain ⟨e, m', hstep, htables⟩ := h
  refine ⟨e, m', ?_, htables.trans hg⟩
  rw [outcome_bind, outcome_modify]
  exact hstep

/-- A batch for an unreadable table refuses, although the batch is counted. -/
theorem refuses_putBatch (h : ¬Readable o m s.table) {items : List Item} (hne : items ≠ []) :
    Refuses (putBatch o s items) m := by
  unfold putBatch
  rw [if_neg (by simpa using hne)]
  simp only
  split
  · exact ⟨_, m, rfl, rfl⟩
  · -- The batch is counted before its table is looked for.
    have hcounted : ¬Readable o { m with batchWrites := m.batchWrites + 1 } s.table := h
    exact refuses_checked fun _ => refuses_modify rfl (refuses_rows hcounted .write _)

/-- Without its table, a call for rows is refused. -/
theorem refuses_of_not_readable {call : Call} (h : ¬Readable o m s.table)
    (hcall : call.NeedsTable) : Refuses (call.step o s) m := by
  cases call with
  | get key => exact refuses_discard (refuses_checked fun _ => refuses_rows h .read _)
  | fetch c start => exact refuses_discard (refuses_checked fun _ => refuses_rows h .read _)
  | put item => exact refuses_checked fun _ => refuses_rows h .write _
  | update item => exact refuses_checked fun _ => refuses_rows h .write _
  | delete key => exact refuses_checked fun _ => refuses_rows h .write _
  | putBatch items => exact refuses_putBatch h hcall
  | create => exact hcall.elim

/-! ## Rows -/

theorem rowsOf_of_tables {m' : Memory} (h : m'.tables = m.tables) (table : String) :
    m'.rowsOf table = m.rowsOf table := by
  rw [rowsOf, h, ← rowsOf]

/-- A call that makes nothing of the rows leaves those of every table. -/
theorem rowsOf_run_of_rowsAfter {u : Use}
    (h : ∀ rows, u.call.rowsAfter u.options u.schema rows = rows) (m : Memory) (table : String) :
    (u.run m).rowsOf table = m.rowsOf table :=
  (rowsOf_run u m table).elim id fun hafter => hafter.2.trans (h _)

/-- A change of rows that fails has changed none. -/
theorem rowsOf_changeRows_of_error {r : Except StoreFault α}
    {change : α → List Item → List Item} {e : Error}
    (h : (outcome (changeRows o r table change) m).1 = .error e) (t : String) :
    (outcome (changeRows o r table change) m).2.rowsOf t = m.rowsOf t := by
  by_cases hreadable : Readable o m table
  · cases hr : r with
    | error fault => rw [changeRows, outcome_checked_bind]
    | ok a =>
      obtain ⟨m', hok⟩ : ∃ m', outcome (changeRows o r table change) m = (.ok (), m') :=
        (outcome_changeRows hr hreadable).imp fun _ h => h.1
      rw [hok] at h
      cases h
  · obtain ⟨e', m', hrefused, htables⟩ : Refuses (changeRows o r table change) m :=
      refuses_checked fun _ => refuses_rows hreadable .write _
    rw [hrefused]
    exact rowsOf_of_tables htables t

/-- A batch that fails has changed no rows, unless it was taken in part. -/
theorem rowsOf_putBatch_of_error {items : List Item} {e : Error}
    (h : (outcome (putBatch o s items) m).1 = .error e) (he : ∀ count, e ≠ .unprocessed count)
    (t : String) : (outcome (putBatch o s items) m).2.rowsOf t = m.rowsOf t := by
  by_cases hne : items = []
  · rw [hne] at h
    cases h
  by_cases hlimit : items.length ≤ batchLimit
  · obtain ⟨m', hput, -⟩ | ⟨e', m', kept, hput, hkeeps, hstored⟩ := putBatch_cases hne hlimit o s m
    · rw [hput] at h
      cases h
    · rw [hput] at h ⊢
      obtain rfl := Except.error.inj h
      have hkept : kept = 0 := by
        cases e' with
        | unprocessed count => exact absurd rfl (he count)
        | _ => exact hkeeps
      rw [hkept, List.take_zero] at hstored
      obtain ⟨entries, hentries, -, hrows⟩ := hstored.rows
      obtain rfl := List.map_eq_nil_iff.1 hentries
      by_cases ht : t = s.table
      · rw [ht, hrows]
        rfl
      · exact hstored.frame t ht
  · rw [putBatch, if_neg (by simpa using hne)]
    simp only
    rw [if_pos (Nat.lt_of_not_le hlimit)]
    rfl

/-- A call that fails leaves all rows, unless it has taken a batch in part. -/
theorem rowsOf_run_of_error {u : Use} {e : Error} (h : u.result m = .error e)
    (he : ∀ count, e ≠ .unprocessed count) (t : String) : (u.run m).rowsOf t = m.rowsOf t := by
  obtain ⟨o, s, call⟩ := u
  cases call with
  | put | update | delete => exact rowsOf_changeRows_of_error h t
  | putBatch items => exact rowsOf_putBatch_of_error h he t
  | get | fetch | create => exact rowsOf_run_of_rowsAfter (fun _ => rfl) m t

/-! ## Tables -/

/-- A table is created just when there is none with its name. -/
theorem outcome_createTable (s : Schema) (m : Memory) :
    outcome (createTable s) m = if m.tables.contains s.table then
        (.error (.store .write (.tableExists s.table)), m)
      else (.ok (), { m with tables := m.tables.insert s.table [] }) := by
  unfold createTable
  simp only [outcome_bind, outcome_get]
  cases m.tables.contains s.table <;> rfl

/-- A use of a table that exists brings no other one into being. -/
theorem contains_run_of_contains {u : Use} (h : m.tables.contains u.schema.table = true)
    (t : String) : (u.run m).tables.contains t = m.tables.contains t := by
  by_cases ht : t = u.schema.table
  · rw [ht, h, contains_run u h]
  · rw [Dict.contains_eq_isSome, Dict.contains_eq_isSome, (u.changesTo m).frame t ht]

/-- Without automatic creation a table comes to be by being created only. -/
theorem contains_run_of_manual {u : Use} (hmanual : u.options.autoCreate = false)
    (h : ¬(u.call = .create ∧ u.result m = .ok ())) (t : String) :
    (u.run m).tables.contains t = m.tables.contains t := by
  by_cases hcontains : m.tables.contains u.schema.table = true
  · exact contains_run_of_contains hcontains t
  have hreadable : ¬Readable u.options m u.schema.table :=
    not_or.2 ⟨by simp [hmanual], hcontains⟩
  obtain ⟨o, s, call⟩ := u
  have hrefused : call.NeedsTable →
      ((Use.mk o s call).run m).tables.contains t = m.tables.contains t := by
    intro hneeds
    obtain ⟨e, m', hstep, htables⟩ := refuses_of_not_readable hreadable hneeds
    rw [Use.run, hstep]
    exact congrArg (Dict.contains · t) htables
  cases call with
  | get | put | update | delete | fetch => exact hrefused trivial
  | putBatch items =>
    by_cases hne : items = []
    · rw [hne]
      rfl
    · exact hrefused hne
  | create =>
    refine absurd ⟨rfl, ?_⟩ h
    show (outcome (createTable s) m).1 = .ok ()
    rw [outcome_createTable, if_neg hcontains]

end Memory

/-- The call brings a table into being. -/
structure Use.Creates (u : Use) (table : String) (m : Memory) : Prop where
  call : u.call = .create
  table : u.schema.table = table
  result : u.result m = .ok ()

/-- A use spares what its result says it has not changed. -/
theorem Use.spares (u : Use) (m : Memory) : u.Spares m where
  rows_of_error _ h he := rowsOf_run_of_error h he
  rows_of_reads h := by
    obtain ⟨o, s, call⟩ := u
    cases call with
    | get | fetch => exact rowsOf_run_of_rowsAfter (fun _ => rfl) m
    | _ => exact h.elim
  tables_of_create h table rows hrows := by
    obtain ⟨o, s, call⟩ := u
    obtain rfl : call = .create := h
    show (outcome (createTable s) m).2.tables.get? table = _
    rw [outcome_createTable]
    split
    · exact hrows
    · rename_i hcontains
      have hne : table ≠ s.table := by
        rintro rfl
        rw [Dict.contains_eq_isSome, hrows] at hcontains
        exact hcontains rfl
      rw [Dict.get?_insert, if_neg (Ne.symm hne), hrows]
  contains_of_manual hmanual h := contains_run_of_manual hmanual h
  fails_of_manual hmanual hneeds h := by
    have hreadable : ¬Readable u.options m u.schema.table :=
      not_or.2 ⟨by simp [hmanual], by simp [h]⟩
    obtain ⟨e, m', hstep, -⟩ := refuses_of_not_readable hreadable hneeds
    exact ⟨e, congrArg Prod.fst hstep⟩

namespace Memory

variable {m : Memory} {table : String}

/-- Where tables have to be created, a table is there after a call if it was there before or the
call creates it. -/
theorem contains_run_iff {u : Use} (hmanual : u.options.autoCreate = false) :
    (u.run m).tables.contains table = true ↔
      m.tables.contains table = true ∨ u.Creates table m := by
  by_cases h : u.call = .create ∧ u.result m = .ok ()
  · by_cases ht : u.schema.table = table
    · refine iff_of_true ?_ (.inr ⟨h.1, ht, h.2⟩)
      obtain ⟨o, s, call⟩ := u
      obtain ⟨rfl, hresult⟩ := h
      change (outcome (createTable s) m).1 = .ok () at hresult
      show (outcome (createTable s) m).2.tables.contains table = true
      rw [outcome_createTable] at hresult ⊢
      split at hresult
      · cases hresult
      · rename_i hcontains
        rw [if_neg hcontains, Dict.contains_eq_isSome, Dict.get?_insert, if_pos ht]
        rfl
    · rw [Dict.contains_eq_isSome, (u.changesTo m).frame table (Ne.symm ht),
        ← Dict.contains_eq_isSome]
      exact (or_iff_left fun hcreates => ht hcreates.table).symm
  · rw [contains_run_of_manual hmanual h]
    exact (or_iff_left fun hcreates => h ⟨hcreates.call, hcreates.result⟩).symm

/-- So after some calls it is there if it was there before or one of them creates it. -/
theorem contains_after_iff {uses : List Use} (hmanual : ∀ u ∈ uses, u.options.autoCreate = false) :
    (m.after uses).tables.contains table = true ↔ m.tables.contains table = true ∨
      ∃ before u later, uses = before ++ u :: later ∧ u.Creates table (m.after before) := by
  induction uses generalizing m with
  | nil => simp [Memory.after]
  | cons u uses ih =>
    obtain ⟨hu, huses⟩ := List.forall_mem_cons.1 hmanual
    have hafter : m.after (u :: uses) = (u.run m).after uses := rfl
    rw [hafter, ih huses, contains_run_iff hu, or_assoc]
    refine or_congr_right ⟨?_, ?_⟩
    · rintro (hcreates | ⟨before, v, later, rfl, hcreates⟩)
      · exact ⟨[], u, uses, rfl, hcreates⟩
      · exact ⟨u :: before, v, later, rfl, hcreates⟩
    · rintro ⟨_ | ⟨w, before⟩, v, later, heq, hcreates⟩
      · obtain ⟨rfl, rfl⟩ := List.cons.inj heq
        exact .inl hcreates
      · obtain ⟨rfl, rfl⟩ := List.cons.inj heq
        exact .inr ⟨before, v, later, rfl, hcreates⟩

/-- Failed calls and reads leave the data alone. At every state that calls on an empty store lead
to, each further call leaves alone what it has to. If all tables have to be created, then a table
is there if and only if one of the calls created it. -/
theorem spares_after (uses : List Use) :
    (∀ u : Use, u.Spares (Memory.after {} uses)) ∧
      ((∀ u ∈ uses, u.options.autoCreate = false) → ∀ table,
        ((Memory.after {} uses).tables.contains table = true ↔
          ∃ before u later, uses = before ++ u :: later ∧
            u.Creates table (Memory.after {} before))) := by
  refine ⟨fun u => u.spares _, fun hmanual table => ?_⟩
  rw [contains_after_iff hmanual]
  exact or_iff_right nofun

end Memory

end Store

/-! ## Counters in a table that has to be created -/

namespace Sample

open Store Memory

/-- A call on counters that brings no table into being unless it creates one. -/
def strictly (call : Call) : Use where
  options := { autoCreate := false, pageSize_pos := Nat.zero_lt_succ 99 }
  schema := counters
  call := call

/-- The table is created by the second call, and the first one fails. -/
def opened : List Use := [.put (counter "4"), .create, .put (counter "5")].map strictly

/-- A batch with an item that has no key puts none of its items. -/
theorem spares_after_opened :
    (∀ u ∈ opened, u.options.autoCreate = false) ∧
      (Memory.after {} opened).tables.contains counters.table = true ∧
      (strictly (.putBatch [counter "6", Dict.empty])).result (Memory.after {} opened) =
        .error (.store .write (.missingKey ⟨"Counter", .partition, "id"⟩)) ∧
      ((strictly (.putBatch [counter "6", Dict.empty])).run (Memory.after {} opened)).rowsOf
        counters.table = [counter "5"] := by
  have hmanual : ∀ u ∈ opened, u.options.autoCreate = false := by
    intro u hu
    obtain ⟨_, -, rfl⟩ := List.mem_map.1 hu
    rfl
  have hrows : (Memory.after {} opened).rowsOf counters.table = [counter "5"] := by
    decide +kernel
  have herror : (strictly (.putBatch [counter "6", Dict.empty])).result
      (Memory.after {} opened) =
        .error (.store .write (.missingKey ⟨"Counter", .partition, "id"⟩)) := by
    decide +kernel
  obtain ⟨hspares, htables⟩ := spares_after opened
  refine ⟨hmanual, (htables hmanual _).2 ?_, herror, ?_⟩
  · exact ⟨[strictly (.put (counter "4"))], strictly .create, [strictly (.put (counter "5"))], rfl,
      rfl, rfl, rfl⟩
  · rw [(hspares _).rows_of_error _ herror nofun, hrows]

end Sample

end ItemStore
