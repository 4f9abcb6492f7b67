import ItemStore.Entity.Sample
import ItemStore.Proofs.Actions
import ItemStore.Proofs.OwnKeys
import ItemStore.Proofs.PageChains

/-!
# Writing in batches

Many entities are written in batches, which are windows of the list one after the other (`Windows`).
Main statement: what is written is always the beginning of the list, as if its entities had been
written one by one. It is all of the list if every batch is accepted, and otherwise the batches
before the first one that fails, with as much of that one as the store took
(`Repository.persistAll_writes_prefix`).

What the store is like after some items is said by `Memory.Stored`: an accepted batch stores its
items, one that fails stores a part of them, and putting items one by one stores them too.
-/

namespace ItemStore

open Query Store Step

/-! ## Windows -/

/-- Consecutive windows of a list that have as many items as a batch may have, but for the last one,
which has some. -/
structure Windows (items : List Item) (windows : List (List Item)) : Prop where
  cover : windows.flatten = items
  ne_nil : ∀ window ∈ windows, window ≠ []
  le : ∀ window ∈ windows, window.length ≤ batchLimit
  full : ∀ window ∈ windows.dropLast, window.length = batchLimit

/-- The batches are the windows of the items. -/
theorem windows_batches (items : List Item) : Windows items (batches items) := by
  induction items using batches.induct with
  | case1 =>
    rw [batches]
    exact ⟨rfl, nofun, nofun, nofun⟩
  | case2 item rest ih =>
    have hne : (item :: rest).take batchLimit ≠ [] := by simp [batchLimit]
    rw [batches]
    refine ⟨?_, List.forall_mem_cons.2 ⟨hne, ih.ne_nil⟩,
      List.forall_mem_cons.2 ⟨List.length_take_le .., ih.le⟩, ?_⟩
    · rw [List.flatten_cons, ih.cover, List.take_append_drop]
    · cases hmore : batches ((item :: rest).drop batchLimit) with
      | nil => exact nofun
      | cons window windows =>
        -- Where there are more windows, there are more items than the first one has.
        have hlong : batchLimit ≤ (item :: rest).length := by
          by_contra hshort
          rw [List.drop_of_length_le (by omega), batches] at hmore
          cases hmore
        rw [List.dropLast_cons_cons, List.forall_mem_cons, ← hmore]
        exact ⟨List.length_take_of_le hlong, ih.full⟩

namespace Windows

variable {items : List Item} {windows before after : List (List Item)} {window : List Item}

/-- All windows before another one are full. -/
theorem length_flatten (h : Windows items (before ++ window :: after)) :
    before.flatten.length = batchLimit * before.length := by
  have hfull : ∀ w ∈ before, w.length = batchLimit := by
    intro w hw
    refine h.full w ?_
    rw [List.dropLast_append_cons]
    exact List.mem_append_left _ hw
  rw [List.length_flatten, List.map_congr_left hfull, List.map_const',
    List.sum_replicate_nat, Nat.mul_comm]

/-- How many windows there are. -/
theorem length_eq (h : Windows items windows) :
    windows.length = (items.length + (batchLimit - 1)) / batchLimit := by
  rcases List.eq_nil_or_concat windows with rfl | ⟨before, window, rfl⟩
  · rw [← h.cover]
    rfl
  · rw [List.concat_eq_append] at h ⊢
    have hbefore := h.length_flatten
    have hpos := List.length_pos_iff.2 (h.ne_nil window (by simp))
    have hle := h.le window (by simp)
    have hlength : items.length = batchLimit * before.length + window.length := by
      rw [← h.cover, List.flatten_concat, List.length_append, hbefore]
    rw [List.length_append, List.length_singleton, hlength]
    rw [batchLimit] at *
    omega

end Windows

/-! ## Handing out batches -/

namespace Store

variable {σ : Type}

/-- The table, with a note of every batch that is put. -/
def Table.batchesNoted (t : Table σ) : Table (σ × List (List Item)) where
  name := t.name
  schema := t.schema
  get key := (t.get key).besideNotes
  put item := (t.put item).besideNotes
  update item := (t.update item).besideNotes
  delete key := (t.delete key).besideNotes
  putBatch items := fun s =>
    let r := (t.putBatch items).run.run s.1
    (r.1, r.2, s.2 ++ [items])
  fetch c start := (t.fetch c start).besideNotes
  create := t.create.besideNotes

/-- The store, with notes of the batches that are put into its tables. -/
def Backend.batchesNoted (b : Backend σ) : Backend (σ × List (List Item)) where
  table s := (b.table s).map Table.batchesNoted

theorem table_batchesNoted {b : Backend σ} {s : Schema} {t : Table σ} (h : b.table s = .ok t) :
    b.batchesNoted.table s = .ok t.batchesNoted :=
  congrArg (Except.map Table.batchesNoted) h

/-- Batches are put one after the other, up to the first one that fails. -/
theorem putBatches_cases (t : Table σ) (windows : List (List Item)) (store : σ)
    (notes : List (List Item)) :
    (∃ store', outcome (windows.forM t.putBatch) store = (.ok (), store') ∧
        outcome (windows.forM t.batchesNoted.putBatch) (store, notes) =
          (.ok (), store', notes ++ windows)) ∨
      ∃ before batch after between e store', windows = before ++ batch :: after ∧
        outcome (before.forM t.putBatch) store = (.ok (), between) ∧
        outcome (t.putBatch batch) between = (.error e, store') ∧
        outcome (windows.forM t.putBatch) store = (.error e, store') ∧
        outcome (windows.forM t.batchesNoted.putBatch) (store, notes) =
          (.error e, store', notes ++ (before ++ [batch])) := by
  induction windows generalizing store notes with
  | nil => exact .inl ⟨store, rfl, by rw [List.append_nil]; rfl⟩
  | cons window windows ih =>
    have hnoted : outcome (t.batchesNoted.putBatch window) (store, notes) =
        ((outcome (t.putBatch window) store).1, (outcome (t.putBatch window) store).2,
          notes ++ [window]) :=
      rfl
    rw [outcome_forM_cons, outcome_forM_cons, hnoted]
    rcases hput : outcome (t.putBatch window) store with ⟨e | _, between⟩
    · exact .inr ⟨[], window, windows, store, e, between, rfl, rfl, hput, rfl, rfl⟩
    · obtain ⟨store', hrest, hnotes⟩ | ⟨before, batch, after, between', e, store', rfl, hbefore,
        hfails, hrest, hnotes⟩ := ih between (notes ++ [window])
      · exact .inl ⟨store', hrest, by rw [List.append_cons notes window windows]; exact hnotes⟩
      · refine .inr ⟨window :: before, batch, after, between', e, store', rfl, ?_, hfails, hrest,
          ?_⟩
        · rw [outcome_forM_cons, hput]
          exact hbefore
        · rw [List.cons_append, List.append_cons notes window (before ++ [batch])]
          exact hnotes

namespace Memory

/-! ## Storing items -/

/-- In the later state the items are stored under their keys, one after the other. No other table
has other rows. -/
structure Stored (o : MemoryOptions) (s : Schema) (items : List Item) (m m' : Memory) : Prop where
  rows : ∃ entries : List (Key × Item), entries.map Prod.snd = items ∧
    (∀ e ∈ entries, itemKey s e.2 = .ok e.1) ∧
      m'.rowsOf s.table = storeRows s entries (m.rowsOf s.table)
  frame : ∀ table, table ≠ s.table → m'.rowsOf table = m.rowsOf table
  readable : items ≠ [] → Readable o m s.table
  readable_of_after : Readable o m' s.table → Readable o m s.table

variable {o : MemoryOptions} {s : Schema} {items more : List Item} {m m' m'' : Memory}

/-- Storing some items and then more is storing all of them. -/
theorem Stored.trans (h : Stored o s items m m') (h' : Stored o s more m' m'') :
    Stored o s (items ++ more) m m'' := by
  obtain ⟨entries, hitems, hkeys, hrows⟩ := h.rows
  obtain ⟨entries', hitems', hkeys', hrows'⟩ := h'.rows
  refine ⟨⟨entries ++ entries', ?_, ?_, ?_⟩, fun table ht => ?_, fun hne => ?_, fun hafter => ?_⟩
  · rw [List.map_append, hitems, hitems']
  · exact List.forall_mem_append.2 ⟨hkeys, hkeys'⟩
  · rw [hrows', hrows, storeRows, storeRows, storeRows, List.foldl_append]
  · rw [h'.frame table ht, h.frame table ht]
  · by_cases hnil : items = []
    · refine h.readable_of_after (h'.readable ?_)
      rintro rfl
      exact hne (by rw [hnil, List.append_nil])
    · exact h.readable hnil
  · exact h.readable_of_after (h'.readable_of_after hafter)

theorem Stored.of_rowsOf (hrows : ∀ table, m'.rowsOf table = m.rowsOf table)
    (hafter : Readable o m' s.table → Readable o m s.table) : Stored o s [] m m' :=
  ⟨⟨[], rfl, nofun, hrows s.table⟩, fun table _ => hrows table, fun hne => absurd rfl hne, hafter⟩

/-- Putting items one by one stores them. -/
theorem outcome_putItems {entries : List (Key × Item)}
    (hkeys : ∀ e ∈ entries, itemKey s e.2 = .ok e.1)
    (hreadable : entries ≠ [] → Readable o m s.table) :
    ∃ m', outcome ((entries.map Prod.snd).forM (putItem o s)) m = (.ok (), m') ∧
      m'.rowsOf s.table = storeRows s entries (m.rowsOf s.table) ∧
      ∀ table, table ≠ s.table → m'.rowsOf table = m.rowsOf table := by
  induction entries generalizing m with
  | nil => exact ⟨m, rfl, rfl, fun _ _ => rfl⟩
  | cons e entries ih =>
    obtain ⟨hkey, hrest⟩ := List.forall_mem_cons.1 hkeys
    obtain ⟨between, hput, hcontains, hrows⟩ := outcome_putItem hkey (hreadable (by simp))
    have hframe : ∀ table, table ≠ s.table → between.rowsOf table = m.rowsOf table := by
      intro table ht
      have hchanges := changesTo_putItem o s m e.2
      rw [hput] at hchanges
      rw [rowsOf, hchanges.frame table ht, ← rowsOf]
    obtain ⟨m', hputs, hrows', hframe'⟩ := ih hrest fun _ => .inr hcontains
    refine ⟨m', ?_, ?_, fun table ht => ?_⟩
    · rw [List.map_cons, outcome_forM_cons, hput]
      exact hputs
    · rw [hrows', hrows]
      rfl
    · rw [hframe' table ht, hframe table ht]

/-- What is stored is as if the items had been put one by one. -/
theorem Stored.putItems (h : Stored o s items m m') :
    ∃ m'', outcome (items.forM (putItem o s)) m = (.ok (), m'') ∧
      ∀ table, m'.rowsOf table = m''.rowsOf table := by
  obtain ⟨entries, rfl, hkeys, hrows⟩ := h.rows
  have hreadable : entries ≠ [] → Readable o m s.table :=
    fun hne => h.readable (by simpa using hne)
  obtain ⟨m'', hputs, hrows', hframe⟩ := outcome_putItems hkeys hreadable
  refine ⟨m'', hputs, fun table => ?_⟩
  by_cases ht : table = s.table
  · rw [ht, hrows, hrows']
  · rw [h.frame table ht, hframe table ht]

/-- Rows that are put under their keys are stored. -/
theorem stored_insert {batch : List Item} {keys : List Key}
    (hkeys : batch.mapM (itemKey s) = .ok keys) (hreadable : Readable o m s.table)
    {tables : Dict (List Item)}
    (hframe : ∀ table, table ≠ s.table → tables.get? table = m.tables.get? table)
    (kept count : Nat) :
    Stored o s (batch.take kept) m
      ⟨tables.insert s.table (storeRows s ((keys.zip batch).take kept) (m.rowsOf s.table)),
        count⟩ := by
  have hall := mapM_eq_ok hkeys
  refine ⟨⟨(keys.zip batch).take kept, ?_, fun e he => ?_, ?_⟩, fun table ht => ?_,
    fun _ => hreadable, fun _ => hreadable⟩
  · rw [List.map_take, List.map_snd_zip (Nat.le_of_eq hall.length_eq.symm)]
  · exact List.forall₂_zip hall (List.mem_of_mem_take he)
  · exact rowsOf_insert ⟨tables, count⟩ _ _
  · rw [rowsOf, Dict.get?_insert, if_neg (Ne.symm ht), hframe table ht, ← rowsOf]

/-- Reading a readable table leaves all other tables and the count of batches alone. -/
theorem Readable.exists_tables {table : String} (h : Readable o m table) (access : Access) :
    ∃ tables, outcome (Memory.rows o access table) m = (.ok (m.rowsOf table), { m with tables }) ∧
      ∀ t, t ≠ table → tables.get? t = m.tables.get? t := by
  rw [Memory.outcome_rows, rowsOf]
  cases hget : m.tables.get? table with
  | some rows => exact ⟨m.tables, rfl, fun _ _ => rfl⟩
  | none =>
    have hcreate : o.autoCreate = true := by
      refine h.resolve_right ?_
      rw [Dict.contains_eq_isSome, hget]
      exact Bool.false_ne_true
    refine ⟨m.tables.insert table [], by rw [hcreate]; rfl, fun t ht => ?_⟩
    rw [Dict.get?_insert, if_neg (Ne.symm ht)]

/-- A table that does not exist and does not come to be cannot be read. -/
theorem outcome_rows_of_not_readable {table : String} (h : ¬Readable o m table) (access : Access) :
    outcome (Memory.rows o access table) m =
      (.error (.store access (.tableNotFound table)), m) := by
  obtain ⟨hcreate, hcontains⟩ := not_or.1 h
  rw [Bool.not_eq_true, Dict.contains_eq_isSome, Option.isSome_eq_false_iff,
    Option.isNone_iff_eq_none] at hcontains
  rw [Memory.outcome_rows, hcontains]
  simp only [hcreate, Bool.false_eq_true, if_false]

/-- An error of a batch of which the store took so many items: it says how many were left, or there
was none. -/
def Keeps (batch : List Item) (kept : Nat) : Error → Prop
  | .unprocessed left => kept + left = batch.length
  | _ => kept = 0

/-- No more items are kept than were in the batch. -/
theorem Keeps.le {batch : List Item} {kept : Nat} {e : Error} (h : Keeps batch kept e) :
    kept ≤ batch.length := by
  cases e with
  | unprocessed left => exact Nat.le_of_add_right_le (Nat.le_of_eq h)
  | _ => exact (show kept = 0 from h) ▸ Nat.zero_le _

/-- An accepted batch is stored and counted, and of one that fails as much as the store took. -/
theorem putBatch_cases {batch : List Item} (hne : batch ≠ []) (hle : batch.length ≤ batchLimit)
    (o : MemoryOptions) (s : Schema) (m : Memory) :
    (∃ m', outcome (putBatch o s batch) m = (.ok (), m') ∧ Stored o s batch m m' ∧
        m'.batchWrites = m.batchWrites + 1) ∨
      ∃ e m' kept, outcome (putBatch o s batch) m = (.error e, m') ∧ Keeps batch kept e ∧
        Stored o s (batch.take kept) m m' := by
  unfold putBatch
  rw [if_neg (by simpa using hne), if_neg (by omega)]
  simp only
  rw [outcome_checked_bind]
  cases hkeys : batch.mapM (itemKey s) with
  | error fault => exact .inr ⟨_, m, 0, rfl, rfl, .of_rowsOf (fun _ => rfl) id⟩
  | ok keys =>
    let counted : Memory := { m with batchWrites := m.batchWrites + 1 }
    simp only [outcome_bind (modify _), outcome_modify]
    by_cases hreadable : Readable o m s.table
    · have hcounted : Readable o counted s.table := hreadable
      obtain ⟨tables, hrows, hframe⟩ := hcounted.exists_tables .write
      have hstored := stored_insert hkeys hreadable hframe (min batch.length o.batchCapacity)
        (m.batchWrites + 1)
      rw [outcome_bind, hrows]
      simp only [outcome_bind (setRows _ _), outcome_setRows]
      by_cases hcapacity : min batch.length o.batchCapacity < batch.length
      · rw [if_pos hcapacity]
        exact .inr ⟨_, _, _, rfl, Nat.add_sub_of_le (Nat.min_le_left _ _), hstored⟩
      · rw [if_neg hcapacity]
        rw [List.take_of_length_le (Nat.not_lt.1 hcapacity)] at hstored
        exact .inl ⟨_, rfl, hstored, rfl⟩
    · have hcounted : ¬Readable o counted s.table := hreadable
      rw [outcome_bind, outcome_rows_of_not_readable hcounted .write]
      exact .inr ⟨_, _, 0, rfl, rfl, .of_rowsOf (fun _ => rfl) id⟩

/-- Accepted batches are stored and counted. -/
theorem outcome_putBatches {batches : List (List Item)}
    (hbatches : ∀ batch ∈ batches, batch ≠ [] ∧ batch.length ≤ batchLimit)
    (h : outcome (batches.forM (putBatch o s)) m = (.ok (), m')) :
    Stored o s batches.flatten m m' ∧ m'.batchWrites = m.batchWrites + batches.length := by
  induction batches generalizing m with
  | nil =>
    obtain rfl : m = m' := congrArg Prod.snd h
    exact ⟨.of_rowsOf (fun _ => rfl) id, rfl⟩
  | cons batch batches ih =>
    obtain ⟨⟨hne, hle⟩, hrest⟩ := List.forall_mem_cons.1 hbatches
    rw [outcome_forM_cons] at h
    obtain ⟨between, hput, hstored, hcount⟩ | ⟨e, between, kept, hput, -, -⟩ :=
      putBatch_cases hne hle o s m
    · rw [hput] at h
      obtain ⟨hstored', hcount'⟩ := ih hrest h
      refine ⟨hstored.trans hstored', ?_⟩
      rw [hcount', hcount, List.length_cons]
      omega
    · rw [hput] at h
      cases h

end Memory

end Store

/-! ## Entities -/

namespace Repository

open Memory

variable {σ α : Type} {b : Backend σ} {e : Entity α} {s : Schema} {t : Table σ}
  {registry registry' : Registry}

/-- Persisting puts the item of the entity. -/
theorem outcome_persist (hschema : registry.schema e = (.ok s, registry'))
    (htable : b.table s = .ok t) (a : α) (store : σ) : outcome (persist b e a) ⟨registry, store⟩ =
      ((outcome (t.put (e.toItem a)) store).1,
        ⟨registry', (outcome (t.put (e.toItem a)) store).2⟩) :=
  outcome_onTable hschema htable _ store

/-- Persisting entities one by one puts their items one by one. -/
theorem outcome_persistEach (hschema : registry.schema e = (.ok s, registry))
    (htable : b.table s = .ok t) (as : List α) (store : σ) :
    outcome (as.forM (persist b e)) ⟨registry, store⟩ =
      ((outcome ((as.map e.toItem).forM t.put) store).1,
        ⟨registry, (outcome ((as.map e.toItem).forM t.put) store).2⟩) := by
  induction as generalizing store with
  | nil => rfl
  | cons a as ih =>
    rw [List.map_cons, outcome_forM_cons, outcome_forM_cons, outcome_persist hschema htable]
    rcases outcome (t.put (e.toItem a)) store with ⟨_ | _, store'⟩
    · rfl
    · exact ih store'

/-- Entities are persisted batch after batch. -/
theorem outcome_persistAll (hschema : registry.schema e = (.ok s, registry'))
    (htable : b.table s = .ok t) {as : List α} (hne : as ≠ []) (store : σ) :
    outcome (persistAll b e as) ⟨registry, store⟩ =
      ((outcome ((batches (as.map e.toItem)).forM t.putBatch) store).1,
        ⟨registry', (outcome ((batches (as.map e.toItem)).forM t.putBatch) store).2⟩) := by
  rw [persistAll, if_neg (by simpa using hne)]
  exact outcome_onTable hschema htable _ store

theorem writes_of_backend {o : MemoryOptions} {t : Table Memory}
    (h : (Memory.backend o).table s = .ok t) : t.put = putItem o s ∧ t.putBatch = putBatch o s :=
  ⟨congrArg Table.put (table_of_backend h), congrArg Table.putBatch (table_of_backend h)⟩

/-- The tables are as if some entities had been persisted one by one, which went well. -/
def AsIfPersisted (o : MemoryOptions) (e : Entity α) (session : Session Memory) (as : List α)
    (m : Memory) : Prop :=
  ∃ session', outcome (as.forM (persist (Memory.backend o) e)) session = (.ok (), session') ∧
    ∀ table, m.rowsOf table = session'.store.rowsOf table

/-- Rows stored one after the other are as if their entities were persisted one by one. -/
theorem AsIfPersisted.of_stored {o : MemoryOptions} {t : Table Memory} {m m' : Memory}
    {as : List α} (hschema : registry.schema e = (.ok s, registry'))
    (htable : (Memory.backend o).table s = .ok t) (hput : t.put = putItem o s)
    (h : Stored o s (as.map e.toItem) m m') : AsIfPersisted o e ⟨registry, m⟩ as m' := by
  obtain ⟨m'', hputs, hrows⟩ := h.putItems
  cases as with
  | nil =>
    obtain rfl : m = m'' := congrArg Prod.snd hputs
    exact ⟨_, rfl, hrows⟩
  | cons a as =>
    have heach : outcome ((a :: as).forM (persist (Memory.backend o) e)) ⟨registry, m⟩ =
        (.ok (), ⟨registry', m''⟩) := by
      rw [List.map_cons, outcome_forM_cons] at hputs
      rw [outcome_forM_cons, outcome_persist hschema htable, hput]
      rcases hfirst : outcome (putItem o s (e.toItem a)) m with ⟨_ | _, between⟩
      · rw [hfirst] at hputs
        cases hputs
      · rw [hfirst] at hputs
        replace hputs : outcome ((as.map e.toItem).forM (putItem o s)) between = (.ok (), m'') :=
          hputs
        show outcome (as.forM (persist (Memory.backend o) e)) ⟨registry', between⟩ = _
        rw [outcome_persistEach (schema_again hschema) htable, hput, hputs]
    exact ⟨_, heach, hrows⟩

/-- How writing entities in batches ends, with the batches that were put: all windows are accepted
and counted, or one fails and is the last. The tables are as if the entities so far had been
persisted one by one, and with them those that the store took of the batch that failed. -/
inductive WritesPrefix (o : MemoryOptions) (e : Entity α) (t : Table Memory)
    (session : Session Memory) (as : List α) (windows : List (List Item)) :
    Except Error Unit → List (List Item) → Memory → Prop where
  | all {m : Memory} (hstore : AsIfPersisted o e session as m)
    (hcount : m.batchWrites =
      session.store.batchWrites + (as.length + (batchLimit - 1)) / batchLimit) :
    WritesPrefix o e t session as windows (.ok ()) windows m
  | stopped {before after : List (List Item)} {batch : List Item} {error : Error} {kept : Nat}
    {between m : Memory} (hwindows : windows = before ++ batch :: after)
    (haccepted : outcome (before.forM t.putBatch) session.store = (.ok (), between))
    (hfails : outcome (t.putBatch batch) between = (.error error, m))
    (hkept : Keeps batch kept error)
    (hstore : AsIfPersisted o e session (as.take (batchLimit * before.length + kept)) m) :
    WritesPrefix o e t session as windows (.error error) (before ++ [batch]) m

/-- Writing entities in batches writes a beginning of the list. The batches that the store gets are
the windows of the list, up to the first one that fails, and its error is the result. -/
theorem persistAll_writes_prefix {o : MemoryOptions} {t : Table Memory} {session : Session Memory}
    (hschema : session.registry.schema e = (.ok s, registry'))
    (htable : (Memory.backend o).table s = .ok t) (as : List α) :
    ∃ windows result handed registry m, Windows (as.map e.toItem) windows ∧
      outcome (persistAll (Memory.backend o) e as) session = (result, ⟨registry, m⟩) ∧
      outcome (persistAll (Memory.backend o).batchesNoted e as)
          ⟨session.registry, session.store, []⟩ = (result, ⟨registry, m, handed⟩) ∧
      WritesPrefix o e t session as windows result handed m := by
  obtain ⟨registry, store⟩ := session
  obtain ⟨hput, hputBatch⟩ := writes_of_backend htable
  have hwindows := windows_batches (as.map e.toItem)
  by_cases hne : as = []
  · subst hne
    rw [List.map_nil, batches] at hwindows
    exact ⟨[], .ok (), [], registry, store, hwindows, rfl, rfl,
      .all ⟨_, rfl, fun _ => rfl⟩ (by simp [batchLimit])⟩
  have hrun := outcome_persistAll hschema htable hne store
  have hnoted := outcome_persistAll hschema (table_batchesNoted htable) hne (store, [])
  have hstored {k : Nat} {m' : Memory} (h : Stored o s ((as.map e.toItem).take k) store m') :
      AsIfPersisted o e ⟨registry, store⟩ (as.take k) m' := by
    rw [← List.map_take] at h
    exact .of_stored hschema htable hput h
  -- From here on it only counts that these are windows of the items.
  generalize batches (as.map e.toItem) = windows at hrun hnoted hwindows
  have hsizes : ∀ window ∈ windows, window ≠ [] ∧ window.length ≤ batchLimit :=
    fun window h => ⟨hwindows.ne_nil window h, hwindows.le window h⟩
  obtain ⟨m, hall, hnotes⟩ | ⟨before, batch, after, between, error, m, rfl, hbefore, hfails, hstop,
    hnotes⟩ := putBatches_cases t windows store []
  · rw [hall] at hrun
    rw [hnotes] at hnoted
    refine ⟨windows, _, _, _, _, hwindows, hrun, hnoted, ?_⟩
    rw [hputBatch] at hall
    obtain ⟨hflat, hcount⟩ := outcome_putBatches hsizes hall
    rw [hwindows.cover] at hflat
    refine .all (.of_stored hschema htable hput hflat) ?_
    rw [hcount, hwindows.length_eq, List.length_map]
  · rw [hstop] at hrun
    rw [hnotes] at hnoted
    rw [List.forall_mem_append, List.forall_mem_cons] at hsizes
    obtain ⟨hsizesBefore, ⟨hbatch, hle⟩, -⟩ := hsizes
    have hcover : as.map e.toItem = before.flatten ++ (batch ++ after.flatten) := by
      rw [← hwindows.cover, List.flatten_append, List.flatten_cons]
    have hlength := hwindows.length_flatten
    obtain ⟨hflat, -⟩ := outcome_putBatches hsizesBefore (hputBatch ▸ hbefore)
    obtain ⟨m', hput', -, -⟩ | ⟨error', m', kept, hput', hkeeps, hkept⟩ :=
      putBatch_cases hbatch hle o s between
    · rw [hputBatch, hput'] at hfails
      cases hfails
    · rw [hputBatch, hput'] at hfails
      obtain ⟨rfl, rfl⟩ : error' = error ∧ m' = m := by simpa using hfails
      refine ⟨_, _, _, _, _, hwindows, hrun, hnoted,
        .stopped rfl hbefore (hputBatch ▸ hput') hkeeps (hstored ?_)⟩
      rw [hcover, ← hlength, List.take_length_add_append, List.take_append_of_le_length hkeeps.le]
      exact hflat.trans hkept

end Repository

/-! ## Many pears -/

namespace Sample

open Repository

/-- One pear more than a batch may have. -/
def pears : List Fruit :=
  List.replicate 26 { id := "pear", name := "Pear", weight := 150 }

/-- A store that takes 20 items of a batch leaves 5 of the first one, and gets no other. -/
theorem persistAll_writes_prefix_pears :
    ∃ s registry t, ({} : Registry).schema fruit = (.ok s, registry) ∧
      (Memory.backend { batchCapacity := 20 }).table s = .ok t ∧
      ∃ windows result handed registry m, Windows (pears.map fruit.toItem) windows ∧
        outcome (persistAll (Memory.backend { batchCapacity := 20 }) fruit pears) ⟨{}, {}⟩ =
          (result, ⟨registry, m⟩) ∧
        WritesPrefix { batchCapacity := 20 } fruit t ⟨{}, {}⟩ pears windows result handed m ∧
        result = .error (.unprocessed 5) := by
  obtain ⟨s, registry, hschema⟩ : ∃ s registry, ({} : Registry).schema fruit = (.ok s, registry) :=
    ⟨_, _, rfl⟩
  obtain ⟨t, htable⟩ : ∃ t, (Memory.backend { batchCapacity := 20 }).table s = .ok t := by
    cases hschema
    exact ⟨_, rfl⟩
  have hschema' : (Session.mk {} {} : Session Memory).registry.schema fruit = (.ok s, registry) :=
    hschema
  obtain ⟨windows, result, handed, registry', m, hwindows, hrun, -, hwrites⟩ :=
    persistAll_writes_prefix hschema' htable pears
  have hresult : (outcome (persistAll (Memory.backend { batchCapacity := 20 }) fruit pears)
      ⟨{}, {}⟩).1 = .error (.unprocessed 5) := by
    have hne : pears ≠ [] := List.cons_ne_nil _ _
    have hfirst : batches (pears.map fruit.toItem) = (pears.map fruit.toItem).take batchLimit ::
        batches ((pears.map fruit.toItem).drop batchLimit) := by
      rw [batches.eq_def]
      rfl
    rw [outcome_persistAll hschema htable hne, hfirst, outcome_forM_cons]
    cases hschema
    cases htable
    rfl
  rw [hrun] at hresult
  exact ⟨s, registry, t, hschema, htable, windows, result, handed, registry', m, hwindows, hrun,
    hwrites, hresult⟩

end Sample

end ItemStore
