import ItemStore.Proofs.Draining

/-!
# Reading between writes

A reader goes through the pages of a condition while others write to the table. Main statement: the
rows that it gets have strictly ascending keys, so none comes twice, and a reader that gets to the
last page has got every row, once, that was there at each of its fetches and that the condition
holds of (`readThrough_stable`).

What carries over from one fetch to the next is the key of the last row that was taken. All rows
before it were taken or came too late; all rows after it lie ahead of the next fetch, whatever was
written in between.
-/

namespace ItemStore

namespace Store

open Query Memory Step

/-- One fetch of a reader: the store that it found, and what it gave. -/
structure Fetch where
  store : Memory
  result : Except Error Page

/-- The fetches of a reader, the first one from a start and each other one from where the page
before it ended. The uses that others make of the store come after one fetch and before the next. -/
def readThrough (o : MemoryOptions) (s : Schema) (c : Condition) :
    Memory → Option Item → List (List Use) → List Fetch
  | m, start, [] => [⟨m, (outcome (fetchPage o s c start) m).1⟩]
  | m, start, uses :: rest =>
    let fetched := outcome (fetchPage o s c start) m
    ⟨m, fetched.1⟩ :: match fetched.1 with
      | .ok ⟨_, some resume⟩ =>
        readThrough o s c (Memory.after fetched.2 uses) (some resume) rest
      | _ => []

variable {o : MemoryOptions} {s : Schema} {c : Condition} {m m' : Memory} {table : String}

/-! ## The table stays -/

/-- A table that exists is still there after a use. -/
theorem contains_run (u : Use) (h : m.tables.contains table = true) :
    (u.run m).tables.contains table = true := by
  have hchange := u.changesTo m
  rw [Dict.contains_eq_isSome] at h ⊢
  by_cases ht : table = u.schema.table
  · subst ht
    rcases hchange.table with heq | heq | heq <;> rw [heq]
    · exact h
    · rfl
    · rfl
  · rw [hchange.frame table ht]
    exact h

/-- A table that exists is still there after any uses. -/
theorem contains_after (uses : List Use) (h : m.tables.contains table = true) :
    (Memory.after m uses).tables.contains table = true := by
  induction uses generalizing m with
  | nil => exact h
  | cons u uses ih => exact ih (contains_run u h)

/-! ## The run -/

/-- What a reader gets that starts after a key: ascending rows after that key, and at the end all of
those that stayed. -/
structure ReadsOn (s : Schema) (c : Condition) (after : Option Key) (run : List Fetch)
    (pages : List Page) : Prop where
  results : run.map Fetch.result = pages.map Except.ok
  sorted : SortedRows s (pages.flatMap Page.items)
  ahead : ∀ row ∈ pages.flatMap Page.items, isAhead s after row = true
  complete : (∃ page ∈ pages.getLast?, page.resume = none) → ∀ row,
    (∀ f ∈ run, row ∈ f.store.rowsOf s.table) → c.selects s row = true → c.passes row = true →
    isAhead s after row = true → row ∈ pages.flatMap Page.items

/-- A page that takes all rows ahead ends the run. -/
theorem readsOn_last {after : Option Key} (hkeyed : KeyedRows s (m.rowsOf s.table)) :
    let page : Page := ⟨(rowsAhead s c (m.rowsOf s.table) after).filter c.passes, none⟩
    ReadsOn s c after [⟨m, .ok page⟩] [page] := by
  have hsorted := sortedRows_rowsAhead hkeyed c after
  refine ⟨rfl, ?_, ?_, ?_⟩
  · rw [List.flatMap_singleton]
    exact hsorted.sublist List.filter_sublist
  · intro row hrow
    rw [List.flatMap_singleton] at hrow
    exact (mem_rowsAhead.1 (List.filter_sublist.subset hrow)).2
  · intro _ row hstay hselects hpasses hahead
    have hrow : row ∈ m.rowsOf s.table := hstay _ List.mem_cons_self
    rw [List.flatMap_singleton, List.mem_filter]
    exact ⟨mem_rowsAhead.2 ⟨⟨hrow, hselects⟩, hahead⟩, hpasses⟩

/-- A full page may come before what a reader gets that starts after its last key. -/
theorem readsOn_cons {after : Option Key} {taken rest : List Item} {last : Item} {key : Key}
    {resume : Item} {run : List Fetch} {pages : List Page}
    (hkeyed : KeyedRows s (m.rowsOf s.table)) (hafter : ∀ key ∈ after, Placed s key)
    (hsplit : rowsAhead s c (m.rowsOf s.table) after = taken ++ rest)
    (hnext : rowsAhead s c (m.rowsOf s.table) (some key) = rest)
    (hlast : taken.getLast? = some last) (hkey : s.keyOf last = .ok key)
    (h : ReadsOn s c (some key) run pages) :
    let page : Page := ⟨taken.filter c.passes, some resume⟩
    ReadsOn s c after (⟨m, .ok page⟩ :: run) (page :: pages) := by
  have hsorted := sortedRows_rowsAhead hkeyed c after
  have htaken : SortedRows s taken := hsorted.sublist (hsplit ▸ List.sublist_append_left _ _)
  have hmem : ∀ a ∈ taken, a ∈ rowsAhead s c (m.rowsOf s.table) after := by
    intro a ha
    rw [hsplit]
    exact List.mem_append_left _ ha
  -- Later pages come from other states of the table, but their rows follow the key all the same.
  have hcross : ∀ a ∈ taken, ∀ b ∈ pages.flatMap Page.items, rowPrecedes s a b = true := by
    intro a ha b hb
    have pb := h.sorted.placed b hb
    exact htaken.precedes_of_follows_last hlast hkey ha pb (h.ahead b hb)
  refine ⟨?_, ?_, ?_, ?_⟩
  · rw [List.map_cons, List.map_cons, h.results]
  · have hpage := htaken.sublist (List.filter_sublist (p := c.passes))
    rw [List.flatMap_cons]
    refine hpage.append h.sorted ?_
    intro a ha
    exact hcross a (List.filter_sublist.subset ha)
  · intro row hrow
    rw [List.flatMap_cons, List.mem_append] at hrow
    rcases hrow with hrow | hrow
    · exact (mem_rowsAhead.1 (hmem row (List.filter_sublist.subset hrow))).2
    · have hlast := List.mem_of_getLast? hlast
      have hahead := (mem_rowsAhead.1 (hmem last hlast)).2
      have placed := h.sorted.placed row hrow
      have hprec := hcross last hlast row hrow
      exact isAhead_of_precedes hafter (htaken.placed last hlast) placed hahead hprec
  · intro hdone row hstay hselects hpasses hahead
    rw [List.flatMap_cons, List.mem_append]
    have hrow : row ∈ taken ++ rest := by
      rw [← hsplit]
      exact mem_rowsAhead.2 ⟨⟨hstay _ List.mem_cons_self, hselects⟩, hahead⟩
    rcases List.mem_append.1 hrow with hrow | hrow
    · exact .inl (List.mem_filter.2 ⟨hrow, hpasses⟩)
    · rw [← hnext] at hrow
      have hdone' : ∃ page ∈ pages.getLast?, page.resume = none := by
        obtain ⟨page, hpage, hnone⟩ := hdone
        rcases pages with _ | ⟨p, ps⟩
        · obtain rfl := Option.some.inj hpage
          simp at hnone
        · exact ⟨page, hpage, hnone⟩
      have hstay' : ∀ f ∈ run, row ∈ f.store.rowsOf s.table := by
        intro f hf
        exact hstay f (List.mem_cons_of_mem _ hf)
      exact .inr (h.complete hdone' row hstay' hselects hpasses (mem_rowsAhead.1 hrow).2)

/-- Nothing is left to say of a run that stops before its last page. -/
theorem readsOn_nil (s : Schema) (c : Condition) (after : Option Key) : ReadsOn s c after [] [] :=
  ⟨rfl, ⟨nofun, .nil⟩, nofun, fun ⟨_, hpage, _⟩ => nomatch hpage⟩

/-- A run from any place. -/
theorem readsOn_readThrough (hcondition : checkPartition c = .ok ()) {after : Option Key}
    {start : Option Item} {between : List (List Use)} (hkeyed : KeyedRows s (m.rowsOf s.table))
    (hreadable : Readable o m s.table) (hstart : StartsAfter o s start after)
    (hbetween : ∀ uses ∈ between, ∀ u ∈ uses, u.Orderly s SaysNumber)
    (hwords : ∀ f ∈ readThrough o s c m start between, InWords o (f.store.rowsOf s.table)) :
    ∃ pages, ReadsOn s c after (readThrough o s c m start between) pages := by
  induction between generalizing m start after with
  | nil =>
    obtain ⟨m', hrows, -, -⟩ := hreadable.outcome_rows .read
    have hword : InWords o (m.rowsOf s.table) := hwords _ List.mem_cons_self
    rw [readThrough]
    rcases outcome_fetchPage_cases hcondition hrows hkeyed hword hstart with
      ⟨-, hpage⟩ | ⟨taken, rest, key, hsplit, -, -, hnext, ⟨last, hlast, hkey⟩, -, hpage⟩ <;>
      rw [hpage]
    · exact ⟨_, readsOn_last hkeyed⟩
    · exact ⟨_, readsOn_cons hkeyed hstart.placed hsplit hnext hlast hkey (readsOn_nil s c _)⟩
  | cons uses between ih =>
    obtain ⟨m', hrows, hcontains, hsame⟩ := hreadable.outcome_rows .read
    have hword : InWords o (m.rowsOf s.table) := hwords _ List.mem_cons_self
    obtain ⟨huses, hrest⟩ := List.forall_mem_cons.1 hbetween
    rw [readThrough] at hwords ⊢
    rcases outcome_fetchPage_cases hcondition hrows hkeyed hword hstart with
      ⟨-, hpage⟩ | ⟨taken, rest, key, hsplit, -, -, hnext, ⟨last, hlast, hkey⟩, hstart', hpage⟩ <;>
      simp only [hpage] at hwords ⊢
    · exact ⟨_, readsOn_last hkeyed⟩
    · have hkeyed' : KeyedRows s ((Memory.after m' uses).rowsOf s.table) :=
        keyedRows_after huses (hsame ▸ hkeyed)
      have hreadable' : Readable o (Memory.after m' uses) s.table :=
        .inr (contains_after uses hcontains)
      have hwords' : ∀ f ∈ readThrough o s c (Memory.after m' uses) (some (s.keyItem key)) between,
          InWords o (f.store.rowsOf s.table) := by
        intro f hf
        exact hwords f (List.mem_cons_of_mem _ hf)
      obtain ⟨pages, hpages⟩ := ih hkeyed' hreadable' hstart' hrest hwords'
      exact ⟨_, readsOn_cons hkeyed hstart.placed hsplit hnext hlast hkey hpages⟩

/-- Reading is stable while others write. Every fetch gives a page, the keys of the rows that come
ascend strictly from the first page to the last, and after the last page every row has come once
that was there at each fetch and that the condition holds of. -/
theorem readThrough_stable (hcondition : checkPartition c = .ok ()) {before : List Use}
    {between : List (List Use)} (hbefore : ∀ u ∈ before, u.Orderly s SaysNumber)
    (hbetween : ∀ uses ∈ between, ∀ u ∈ uses, u.Orderly s SaysNumber)
    (hreadable : Readable o (Memory.after {} before) s.table)
    (hwords : ∀ f ∈ readThrough o s c (Memory.after {} before) none between,
      InWords o (f.store.rowsOf s.table)) :
    let run := readThrough o s c (Memory.after {} before) none between
    ∃ pages : List Page, run.map Fetch.result = pages.map Except.ok ∧
      Ascending s (pages.flatMap Page.items) ∧
      ((∃ page ∈ pages.getLast?, page.resume = none) → ∀ row,
        (∀ f ∈ run, row ∈ f.store.rowsOf s.table) → c.selects s row = true →
        c.passes row = true → (pages.flatMap Page.items).count row = 1) := by
  have hkeyed := keyedRows_after hbefore (keyedRows_empty s)
  obtain ⟨pages, h⟩ := readsOn_readThrough hcondition hkeyed hreadable .first hbetween hwords
  refine ⟨pages, h.results, h.sorted.keys_ascend, ?_⟩
  intro hdone row hstay hselects hpasses
  have hmem := h.complete hdone row hstay hselects hpasses (isAhead_none row)
  rw [h.sorted.nodup.count, if_pos hmem]

end Store

/-! ## Readings that change while they are read -/

namespace Sample

open Query Store Memory

/-- The readings of one sensor above a value. -/
def above : Condition :=
  .filter (some ⟨.text "s1", none⟩) (some (.compare ⟨"value", .gt, .literal (.number "0")⟩))

/-- What others do after each of the first three pages. The first page ends with a reading that is
then deleted. -/
def meanwhile : List (List Use) :=
  [[.plain readings (.delete ⟨.text "s1", some (.number "-1.5")⟩),
      .plain readings (.put (measured "s1" "9.5" "4"))],
    [.plain readings (.putBatch [measured "s1" "8" "1", measured "s2" "7.0" "6"])],
    [.plain readings (.update (measured "s1" "9" "0"))]]

/-- Readings above a bound, in pages of one, with other readings written in between. -/
theorem readThrough_stable_meanwhile :
    checkPartition above = .ok () ∧ (∀ u ∈ written, u.Orderly readings SaysNumber) ∧
      (∀ uses ∈ meanwhile, ∀ u ∈ uses, u.Orderly readings SaysNumber) ∧
      Readable {} (Memory.after {} written) "sensor_readings" ∧
      ∃ pages : List Page,
        (readThrough (.withPageSize {} 1) readings above (Memory.after {} written) none
          meanwhile).map Fetch.result = pages.map Except.ok ∧
        Ascending readings (pages.flatMap Page.items) ∧
        (pages.flatMap Page.items).count (measured "s1" "010" "2") = 1 := by
  have hmeanwhile : ∀ uses ∈ meanwhile, ∀ u ∈ uses, u.Orderly readings SaysNumber := by
    simp only [meanwhile, List.forall_mem_cons, List.not_mem_nil, false_implies, implies_true,
      and_true]
    refine ⟨⟨Use.orderly_plain ?_, Use.orderly_plain ?_⟩, Use.orderly_plain ?_,
      Use.orderly_plain ?_⟩ <;> decide +kernel
  have hreadable : Readable (.withPageSize {} 1) (Memory.after {} written) "sensor_readings" :=
    .inl rfl
  have hwords : ∀ f ∈ readThrough (.withPageSize {} 1) readings above (Memory.after {} written) none
      meanwhile, InWords (.withPageSize {} 1) (f.store.rowsOf "sensor_readings") := by
    intro f hf
    refine ⟨by decide, ?_⟩
    revert f
    decide +kernel
  obtain ⟨pages, hresults, hascending, hcomplete⟩ :=
    readThrough_stable rfl orderly_written hmeanwhile hreadable hwords
  refine ⟨rfl, orderly_written, hmeanwhile, .inl rfl, pages, hresults, hascending, ?_⟩
  have hpages : (readThrough (.withPageSize {} 1) readings above (Memory.after {} written) none
      meanwhile).filterMap (fun f => f.result.toOption) = pages := by
    have h := congrArg (List.filterMap Except.toOption) hresults
    rw [List.filterMap_map, List.filterMap_map] at h
    exact h.trans List.filterMap_some
  have hlast : pages.getLast?.map Page.resume = some none := by
    rw [← hpages]
    decide +kernel
  refine hcomplete (Option.map_eq_some_iff.1 hlast) _ ?_ ?_ ?_ <;> decide +kernel

end Sample

end ItemStore
