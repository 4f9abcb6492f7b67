import ItemStore.Proofs.Cursors
import ItemStore.Proofs.Pages

/-!
# Pages come to an end

Main statement: if all keys of a table have places, every page that names a key to go on from ends
further on in the sorted rows than it began, so a reader comes to a last page from any start
(`pagesEnd_of_placed`). A cursor whose pages end comes to an end with any of its items taken, both
in draining and in looking for the next item (`Cursor.ends_of_pagesEnd`).
-/

namespace ItemStore.Store

open Query Memory Step

/-- From this start, following the pages of a store comes to a last page or to a failure. -/
inductive PagesEnd {σ : Type} (fetch : Option Item → Step σ Page) : σ → Option Item → Prop where
  | intro {store : σ} {start : Option Item}
    (next : ∀ page resume store', outcome (fetch start) store = (.ok page, store') →
      page.resume = some resume → PagesEnd fetch store' (some resume)) : PagesEnd fetch store start

/-- The error of a cursor that was followed for as many pages as a limit allows. -/
abbrev tooMany : Error :=
  .store .read .tooManyPages

/-- The pages from where the cursor stands end, and draining it and looking for its next item each
end within some limit. -/
structure Cursor.Ends {σ : Type} (t : Table σ) (store : σ) (cursor : Cursor) : Prop where
  pages : PagesEnd (t.fetch cursor.condition) store cursor.resume
  drain : ∃ limit, (outcome (Cursor.drain t limit) (store, cursor)).1 ≠ .error tooMany
  nextItem : ∃ limit, (outcome (Cursor.nextItem t limit) (store, cursor)).1 ≠ .error tooMany

/-! ## Following a cursor -/

theorem error_ne_error {α β : Type} {e e' : Error} (h : (.error e : Except Error α) ≠ .error e') :
    (.error e : Except Error β) ≠ .error e' := by
  intro heq
  exact h (congrArg Except.error (Except.error.inj heq))

theorem map_ne_error {α β : Type} {r : Except Error α} {e : Error} (f : α → β)
    (h : r ≠ .error e) : r.map f ≠ .error e := by
  cases r with
  | error e' => exact error_ne_error h
  | ok a => simp [Except.map]

namespace Cursor

variable {σ : Type} {t : Table σ} {store : σ} {start : Option Item} {cursor : Cursor}
  {c : Condition}

/-- One more page than it takes from the next one on is a limit for draining. -/
theorem drainPages_ends
    (herror : ∀ start store, (outcome (t.fetch c start) store).1 ≠ .error tooMany)
    (h : PagesEnd (t.fetch c) store start) (hc : cursor.condition = c)
    (hstart : cursor.resume = start) (hcomplete : cursor.complete = false) :
    ∃ limit, (outcome (drainPages t limit) (store, cursor)).1 ≠ .error tooMany := by
  -- On the pages that are still to come, each of which needs one step more.
  induction h generalizing cursor with
  | @intro store start next ih =>
    have hfetch := fun limit => outcome_drainPages t limit store hcomplete
    rw [hc, hstart] at hfetch
    rcases hpage : outcome (t.fetch c start) store with ⟨e | page, store'⟩
    · have hne := herror start store
      rw [hpage] at hne
      refine ⟨1, ?_⟩
      rw [hfetch, hpage]
      exact error_ne_error hne
    · let after := afterPage page cursor.spent
      cases hresume : page.resume with
      | none =>
        have hdone : after.complete = true := by
          simp [after, afterPage, hresume]
        refine ⟨2, ?_⟩
        rw [hfetch, hpage]
        refine map_ne_error _ ?_
        show (outcome (drainPages t 1) (store', after)).1 ≠ _
        rw [outcome_drainPages_of_complete t 0 store' hdone]
        simp
      | some resume =>
        have hmore : after.complete = false := by
          simp [after, afterPage, hresume]
        obtain ⟨limit, hlimit⟩ := @ih page resume store' hpage hresume after hc hresume hmore
        refine ⟨limit + 1, ?_⟩
        rw [hfetch, hpage]
        exact map_ne_error _ hlimit

/-- Without items at hand, looking for one ends at a page that has some, or at the last one. -/
theorem nextItem_ends
    (herror : ∀ start store, (outcome (t.fetch c start) store).1 ≠ .error tooMany)
    (h : PagesEnd (t.fetch c) store start) (hc : cursor.condition = c)
    (hstart : cursor.resume = start) (hcomplete : cursor.complete = false)
    (hbuffer : cursor.buffer = []) :
    ∃ limit, (outcome (nextItem t limit) (store, cursor)).1 ≠ .error tooMany := by
  induction h generalizing cursor with
  | @intro store start next ih =>
    have hfetch := fun limit => outcome_nextItem t limit store hbuffer hcomplete
    rw [hc, hstart] at hfetch
    rcases hpage : outcome (t.fetch c start) store with ⟨e | page, store'⟩
    · have hne := herror start store
      rw [hpage] at hne
      refine ⟨1, ?_⟩
      rw [hfetch, hpage]
      exact error_ne_error hne
    · let after : Cursor := { afterPage page cursor.spent with buffer := page.items }
      have hafter : ∀ limit, outcome (nextItem t (limit + 1)) (store, cursor) =
          outcome (nextItem t limit) (store', after) := by
        intro limit
        rw [hfetch, hpage]
      cases hitems : page.items with
      | cons item rest =>
        refine ⟨2, ?_⟩
        have hbuffer : after.buffer = item :: rest := hitems
        rw [hafter, outcome_nextItem_of_buffer t 0 store' hbuffer]
        simp
      | nil =>
        cases hresume : page.resume with
        | none =>
          have hdone : after.complete = true := by
            simp [after, afterPage, hresume]
          refine ⟨2, ?_⟩
          rw [hafter, outcome_nextItem_of_complete t 0 store' hitems hdone]
          simp
        | some resume =>
          have hmore : after.complete = false := by
            simp [after, afterPage, hresume]
          obtain ⟨limit, hlimit⟩ :=
            @ih page resume store' hpage hresume after hc hresume hmore hitems
          refine ⟨limit + 1, ?_⟩
          rw [hafter]
          exact hlimit

/-- A cursor comes to an end if its pages do. -/
theorem ends_of_pagesEnd
    (herror : ∀ start store, (outcome (t.fetch cursor.condition start) store).1 ≠ .error tooMany)
    (h : PagesEnd (t.fetch cursor.condition) store cursor.resume) : Ends t store cursor := by
  let emptied : Cursor := { cursor with buffer := [] }
  have hdrain : ∃ limit, (outcome (drainPages t limit) (store, emptied)).1 ≠ .error tooMany := by
    by_cases hcomplete : emptied.complete = true
    · refine ⟨1, ?_⟩
      rw [outcome_drainPages_of_complete t 0 store hcomplete]
      simp
    · rw [Bool.not_eq_true] at hcomplete
      exact drainPages_ends herror h rfl rfl hcomplete
  obtain ⟨limit, hlimit⟩ := hdrain
  refine ⟨h, ⟨limit, ?_⟩, ?_⟩
  · rw [outcome_drain]
    exact map_ne_error _ hlimit
  · rcases hbuffer : cursor.buffer with _ | ⟨item, rest⟩
    · by_cases hcomplete : cursor.complete = true
      · refine ⟨1, ?_⟩
        rw [outcome_nextItem_of_complete t 0 store hbuffer hcomplete]
        simp
      · rw [Bool.not_eq_true] at hcomplete
        exact nextItem_ends herror h rfl rfl hcomplete hbuffer
    · refine ⟨1, ?_⟩
      rw [outcome_nextItem_of_buffer t 0 store hbuffer]
      simp

/-- If a page always leads to one more page, no limit is enough for draining. -/
theorem drainPages_never_ends {going : σ → Option Item → Prop}
    (hgoing : ∀ store start, going store start → ∃ page resume store',
      outcome (t.fetch c start) store = (.ok page, store') ∧ page.resume = some resume ∧
        going store' (some resume)) (limit : Nat) (hc : cursor.condition = c)
    (hcomplete : cursor.complete = false) (h : going store cursor.resume) :
    (outcome (drainPages t limit) (store, cursor)).1 = .error tooMany := by
  induction limit generalizing store cursor with
  | zero => rfl
  | succ limit ih =>
    obtain ⟨page, resume, store', hpage, hresume, hnext⟩ := hgoing store cursor.resume h
    let after := afterPage page cursor.spent
    have hmore : after.complete = false := by
      simp [after, afterPage, hresume]
    have hrest : (outcome (drainPages t limit) (store', after)).1 = .error tooMany :=
      ih hc hmore (by rw [show after.resume = some resume from hresume]; exact hnext)
    rw [outcome_drainPages t limit store hcomplete, hc, hpage]
    show (outcome (drainPages t limit) (store', after)).1.map _ = _
    rw [hrest]
    rfl

end Cursor

/-! ## Pages of placed rows -/

variable {o : MemoryOptions} {s : Schema} {c : Condition} {l rows : List Item}

/-- A page that is given has a place where it ends. -/
theorem exists_of_pageAt_eq_ok {offset : Nat} {page : Page}
    (h : pageAt o s c l offset = .ok page) :
    ∃ stop, pageEnd o offset l.length = .ok stop ∧ pageBetween s c l offset stop = .ok page := by
  rw [pageAt] at h
  cases hstop : pageEnd o offset l.length with
  | error e =>
    rw [hstop] at h
    cases h
  | ok stop =>
    rw [hstop] at h
    exact ⟨stop, rfl, h⟩

/-- The key to go on from is that of a row of the page, and not of the last row of all. -/
theorem key_of_resume {offset : Nat} {page : Page} {resume : Item}
    (h : pageAt o s c l offset = .ok page) (hresume : page.resume = some resume) :
    ∃ i last key, offset ≤ i ∧ l[i]? = some last ∧ s.keyOf last = .ok key ∧
      resume = s.keyItem key := by
  obtain ⟨stop, -, h⟩ := exists_of_pageAt_eq_ok h
  unfold pageBetween examined at h
  cases hlast : ((l.take stop).drop (min offset stop)).getLast? with
  | none =>
    simp only [hlast, bind, Except.bind, pure, Except.pure] at h
    obtain rfl := Except.ok.inj h
    exact nomatch hresume
  | some last =>
    by_cases hstop : stop < l.length
    · cases hkey : s.keyOf last with
      | error m =>
        simp [hlast, hstop, hkey, Except.map, bind, Except.bind] at h
      | ok key =>
        simp only [hlast, hstop, hkey, if_true, mapError_ok, Except.map, bind, Except.bind,
          pure, Except.pure] at h
        obtain rfl := Except.ok.inj h
        rw [List.getLast?_drop, List.getLast?_take, List.length_take] at hlast
        split at hlast
        · exact nomatch hlast
        · rename_i hlt
          rw [if_neg (by omega), List.getElem?_eq_getElem (by omega), Option.some_or] at hlast
          refine ⟨stop - 1, last, key, by omega, ?_, hkey, (Option.some.inj hresume).symm⟩
          rw [List.getElem?_eq_getElem (by omega), hlast]
    · simp only [hlast, hstop, if_false, bind, Except.bind, pure, Except.pure] at h
      obtain rfl := Except.ok.inj h
      exact nomatch hresume

/-- Going on from the key of a row leads past that row. -/
theorem offsetAfter_keyItem {i : Nat} {last : Item} {key : Key}
    (hsorted : l.Pairwise fun a b => rowPrecedes s b a = false)
    (hplaced : ∀ r ∈ l, PlacedRow s r) (hi : l[i]? = some last) (hkey : s.keyOf last = .ok key) :
    ∃ offset, offsetAfter s l (some (s.keyItem key)) = .ok offset ∧ i < offset ∧
      offset ≤ l.length := by
  obtain ⟨hlt, hget⟩ := List.getElem?_eq_some_iff.1 hi
  refine ⟨l.findIdx (rowFollows s key), ?_, ?_, List.findIdx_le_length⟩
  · rw [offsetAfter, Schema.keyOf_keyItem hkey, List.findIdx_eq_getD_findIdx?]
    rfl
  · refine List.lt_findIdx_of_not hlt fun j hj => ?_
    rw [Bool.not_eq_true]
    rcases Nat.lt_or_eq_of_le hj with hj | rfl
    · have hprec := List.pairwise_iff_getElem.1 hsorted j i (by omega) hlt hj
      obtain ⟨k, hk, -⟩ := hplaced l[j] (List.getElem_mem _)
      rw [hget, ← Bool.not_eq_true, rowPrecedes_iff hkey hk] at hprec
      rw [← Bool.not_eq_true, rowFollows_iff hk, compareKeys_eq_gt_iff]
      exact hprec
    · rw [hget]
      exact not_follows_self hkey

variable {m m' : Memory}

theorem checkPartition_ne_tooManyPages (c : Condition) :
    checkPartition c ≠ .error .tooManyPages := by
  unfold checkPartition
  split
  · split <;> simp
  · simp

theorem outcome_rows_ne_tooMany (o : MemoryOptions) (table : String) (m : Memory) :
    (outcome (Memory.rows o .read table) m).1 ≠ .error tooMany := by
  rw [outcome_rows]
  split
  · simp
  · split <;> simp

theorem offsetAfter_ne_tooManyPages (s : Schema) (l : List Item) (start : Option Item) :
    offsetAfter s l start ≠ .error .tooManyPages := by
  cases start with
  | none => simp [offsetAfter]
  | some item =>
    rw [offsetAfter]
    cases s.keyOf item <;> simp [Functor.map, Except.map]

theorem pageEnd_ne_tooMany (o : MemoryOptions) (offset count : Nat) :
    pageEnd o offset count ≠ .error tooMany := by
  rcases Nat.lt_or_ge (offset + o.pageSize) (1 <<< 64) with hfits | hover
  · rw [pageEnd_of_fits count hfits]
    exact nofun
  · rw [pageEnd_of_overflows count hover]
    exact nofun

theorem pageBetween_ne_tooMany (s : Schema) (c : Condition) (l : List Item) (offset stop : Nat) :
    pageBetween s c l offset stop ≠ .error tooMany := by
  rw [pageBetween]
  split
  · split
    · cases s.keyOf _ <;>
        simp [Functor.map, Except.map, Error.ofMissingKey, tooMany]
    · simp [bind, Except.bind, pure, Except.pure]
  · simp [bind, Except.bind, pure, Except.pure]

theorem pageAt_ne_tooMany (o : MemoryOptions) (s : Schema) (c : Condition) (l : List Item)
    (offset : Nat) : pageAt o s c l offset ≠ .error tooMany := by
  have hend := pageEnd_ne_tooMany o offset l.length
  rw [pageAt]
  cases hstop : pageEnd o offset l.length with
  | error e =>
    rw [hstop] at hend
    exact error_ne_error hend
  | ok stop => exact pageBetween_ne_tooMany s c l offset stop

/-- A fetch fails for other reasons than a cursor. -/
theorem outcome_fetchPage_ne_tooMany (o : MemoryOptions) (s : Schema) (c : Condition)
    (start : Option Item) (m : Memory) :
    (outcome (fetchPage o s c start) m).1 ≠ .error tooMany := by
  have hcondition := checkPartition_ne_tooManyPages c
  have hrows := outcome_rows_ne_tooMany o s.table m
  rw [outcome_fetchPage_eq]
  split
  · rename_i fault hfault
    rw [hfault] at hcondition
    simpa [tooMany] using hcondition
  · split
    · rename_i e m' hread
      rw [hread] at hrows
      exact error_ne_error hrows
    · rename_i rows m' _
      have hoffset := offsetAfter_ne_tooManyPages s (candidates s c rows) start
      split
      · rename_i fault hfault
        rw [hfault] at hoffset
        simpa [tooMany] using hoffset
      · exact pageAt_ne_tooMany o s c _ _

/-- A fetch that gives a page has read the rows and found where the page starts. -/
theorem outcome_fetchPage_inv {start : Option Item} {page : Page}
    (h : outcome (fetchPage o s c start) m = (.ok page, m')) :
    ∃ rows offset, outcome (Memory.rows o .read s.table) m = (.ok rows, m') ∧
      offsetAfter s (candidates s c rows) start = .ok offset ∧
      pageAt o s c (candidates s c rows) offset = .ok page := by
  rw [outcome_fetchPage_eq] at h
  cases hcheck : checkPartition c with
  | error fault => simp [hcheck] at h
  | ok _ =>
    rcases hread : outcome (Memory.rows o .read s.table) m with ⟨e | rows, m''⟩
    · simp [hcheck, hread] at h
    · cases hstart : offsetAfter s (candidates s c rows) start with
      | error fault => simp [hcheck, hread, hstart] at h
      | ok offset =>
        simp only [hcheck, hread, hstart, Prod.mk.injEq] at h
        obtain ⟨hpage, rfl⟩ := h
        exact ⟨rows, offset, rfl, hstart, hpage⟩

/-- A page that names a key to go on from leads further on in the sorted rows. -/
theorem offset_advances {start : Option Item} {page : Page} {resume : Item}
    (hplaced : ∀ r ∈ m.rowsOf s.table, PlacedRow s r)
    (h : outcome (fetchPage o s c start) m = (.ok page, m')) (hresume : page.resume = some resume) :
    m'.rowsOf s.table = m.rowsOf s.table ∧ ∃ offset next,
      offsetAfter s (candidates s c (m.rowsOf s.table)) start = .ok offset ∧
      offsetAfter s (candidates s c (m.rowsOf s.table)) (some resume) = .ok next ∧
      offset < next ∧ next ≤ (candidates s c (m.rowsOf s.table)).length := by
  obtain ⟨rows, offset, hrows, hoffset, hpage⟩ := outcome_fetchPage_inv h
  have hagain := eq_rowsOf_of_outcome_rows (outcome_rows_again hrows)
  obtain rfl := eq_rowsOf_of_outcome_rows hrows
  have hcandidates : ∀ r ∈ candidates s c (m.rowsOf s.table), PlacedRow s r := by
    intro r hr
    exact hplaced r (mem_candidates.1 hr).1
  have hsorted : (candidates s c (m.rowsOf s.table)).Pairwise fun a b =>
      rowPrecedes s b a = false := by
    refine pairwise_sortRows fun r hr => ?_
    exact hplaced r (List.filter_sublist.subset hr)
  obtain ⟨i, last, key, hi, hlast, hkey, rfl⟩ := key_of_resume hpage hresume
  obtain ⟨next, hnext, hlt, hle⟩ := offsetAfter_keyItem hsorted hcandidates hlast hkey
  exact ⟨hagain.symm, offset, next, hoffset, hnext, by omega, hle⟩

/-- The rows that are left after an offset bound how many pages there are. -/
theorem pagesEnd_of_count (o : MemoryOptions) (c : Condition) (count : Nat) {start : Option Item}
    (hplaced : ∀ r ∈ m.rowsOf s.table, PlacedRow s r)
    (hcount : ∀ offset, offsetAfter s (candidates s c (m.rowsOf s.table)) start = .ok offset →
      (candidates s c (m.rowsOf s.table)).length ≤ offset + count) :
    PagesEnd (fetchPage o s c) m start := by
  induction count generalizing m start with
  | zero =>
    refine .intro fun page resume m' hpage hresume => ?_
    obtain ⟨-, offset, next, hoffset, -, hlt, hle⟩ := offset_advances hplaced hpage hresume
    have hlength := hcount offset hoffset
    omega
  | succ count ih =>
    refine .intro fun page resume m' hpage hresume => ?_
    obtain ⟨hsame, offset, next, hoffset, hnext, hlt, -⟩ := offset_advances hplaced hpage hresume
    have hlength := hcount offset hoffset
    refine ih (hsame ▸ hplaced) ?_
    intro offset' hoffset'
    rw [hsame] at hoffset' ⊢
    obtain rfl : next = offset' := Except.ok.inj (hnext.symm.trans hoffset')
    omega

/-- The pages of rows whose keys all have places come to an end from any start. -/
theorem pagesEnd_of_placed (o : MemoryOptions) (c : Condition) (start : Option Item)
    (hplaced : ∀ r ∈ m.rowsOf s.table, PlacedRow s r) : PagesEnd (fetchPage o s c) m start :=
  pagesEnd_of_count o c (candidates s c (m.rowsOf s.table)).length hplaced fun _ _ =>
    Nat.le_add_left _ _

end ItemStore.Store
