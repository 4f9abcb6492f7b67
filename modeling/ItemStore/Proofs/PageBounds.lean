import ItemStore.Proofs.FailedFetches
import ItemStore.Proofs.Pages

/-!
# The bounds of a page

A page starts at the first selected row that comes after a key, and the place where it ends is the
sum of that offset and the page size, in a word of 64 bits. Main statement: while the sum fits in a
word, the page looks at the next rows up to the page size, gives those that pass the filter, and
names the key of the last one just when rows are left after it. A sum past the word breaks the fetch
off, although all rows ahead are still to come (`Memory.pages_exactly`).

Only the first page, whose offset is zero, fits with every page size.
-/

namespace ItemStore

namespace Store

open Query Memory Step

/-- The place of the first row that comes after a key, or of the first row of all. -/
def firstAfter (s : Schema) (sorted : List Item) : Option Key → Nat
  | none => 0
  | some key => sorted.findIdx (rowFollows s key)

/-- A page of the next rows: it has those of them that pass, is the last one if no rows are left,
and otherwise names the key of the last row that it looked at. -/
structure TakesNext (o : MemoryOptions) (s : Schema) (c : Condition) (ahead : List Item)
    (page : Page) : Prop where
  items : page.items = (ahead.take o.pageSize).filter c.passes
  last : page.resume = none ↔ ahead.length ≤ o.pageSize
  resume : ∀ item ∈ page.resume, ∃ last ∈ (ahead.take o.pageSize).getLast?, ∃ key,
    s.keyOf last = .ok key ∧ item = s.keyItem key

/-- What a fetch gives that starts after a key. The sum of the page's offset and its size may be
more than a word can hold. -/
structure Paged (o : MemoryOptions) (s : Schema) (c : Condition) (sorted : List Item)
    (after : Option Key) (result : Except Error Page) : Prop where
  /-- What stands from the offset on is what comes after the key. -/
  ahead : (∀ key ∈ after, Placed s key) →
    sorted.drop (firstAfter s sorted after) = sorted.filter (isAhead s after)
  /-- While the sum fits, the page lies within the rows and takes the next ones. -/
  fits : firstAfter s sorted after + o.pageSize < 1 <<< 64 →
    ∃ stop page, pageEnd o (firstAfter s sorted after) sorted.length = .ok stop ∧
      firstAfter s sorted after ≤ stop ∧ stop ≤ sorted.length ∧
      examined sorted (firstAfter s sorted after) stop =
        (sorted.drop (firstAfter s sorted after)).take o.pageSize ∧
      result = .ok page ∧ TakesNext o s c (sorted.drop (firstAfter s sorted after)) page
  overflows : 1 <<< 64 ≤ firstAfter s sorted after + o.pageSize → result = .error .overflow

variable {o : MemoryOptions} {s : Schema} {c : Condition} {a b : Item} {k : Key}
  {l ahead : List Item} {after : Option Key}

/-! ## Where a page starts -/

/-- What does not come before a row that follows a key follows the key too. -/
theorem follows_of_not_precedes (pa : PlacedRow s a) (pb : PlacedRow s b) (pk : Placed s k)
    (hba : rowPrecedes s b a = false) (ha : rowFollows s k a = true) : rowFollows s k b = true := by
  obtain ⟨i, hi, pi⟩ := pa
  obtain ⟨j, hj, pj⟩ := pb
  rw [rowFollows_iff hi] at ha
  rw [← Bool.not_eq_true, rowPrecedes_iff hj hi, ← compareKeys_eq_gt_iff,
    Ordering.ne_gt_iff_isLE] at hba
  rw [rowFollows_iff hj]
  by_contra hjk
  rw [Ordering.ne_gt_iff_isLE] at hjk
  have hik := pi.isLE_trans pj pk hba hjk
  rw [ha] at hik
  exact nomatch hik

/-- In rows by key, what stands from the first row after a key on is what comes after that key. -/
theorem drop_firstAfter (hplaced : ∀ r ∈ l, PlacedRow s r)
    (hsorted : l.Pairwise fun a b => rowPrecedes s b a = false)
    (hafter : ∀ key ∈ after, Placed s key) :
    l.drop (firstAfter s l after) = l.filter (isAhead s after) := by
  cases after with
  | none => exact (List.filter_eq_self.2 fun r _ => isAhead_none r).symm
  | some key =>
    have hup : l.Pairwise fun a b => rowFollows s key a = true → rowFollows s key b = true := by
      refine hsorted.imp_of_mem fun {a b} ha hb hba => ?_
      exact follows_of_not_precedes (hplaced a ha) (hplaced b hb) (hafter key rfl) hba
    rw [firstAfter, List.findIdx_eq_getD_findIdx?]
    exact (filter_eq_drop hup).symm

/-- The first row after a key is one of the rows, or the place after the last one. -/
theorem firstAfter_le (s : Schema) (l : List Item) (after : Option Key) :
    firstAfter s l after ≤ l.length := by
  cases after with
  | none => exact Nat.zero_le _
  | some key => exact List.findIdx_le_length

/-- A fetch starts at the first row after the key of its start, which has to be there. -/
theorem offsetAfter_eq_firstAfter (s : Schema) (l : List Item) (start : Option Item) :
    offsetAfter s l start =
      ((start.mapM s.keyOf).mapError StoreFault.missingKey).map (firstAfter s l) := by
  cases start with
  | none => rfl
  | some item =>
    rw [offsetAfter, Option.mapM_some]
    cases s.keyOf item with
    | error missing => rfl
    | ok key =>
      show Except.ok _ = Except.ok _
      rw [firstAfter, List.findIdx_eq_getD_findIdx?]

/-! ## Pages of the next rows -/

/-- The page of the rows ahead takes the next of them. -/
theorem takesNext_pageOf (h : ∀ r ∈ ahead, PlacedRow s r) :
    TakesNext o s c ahead (pageOf o s c ahead) := by
  rcases pageOf_cases o c h with
    ⟨hle, heq⟩ | ⟨init, last, rest, key, hsplit, hne, hfull, hkey, -, heq⟩
  · rw [heq]
    refine ⟨?_, iff_of_true rfl hle, nofun⟩
    rw [List.take_of_length_le hle]
  · have hrest := List.length_pos_iff.2 hne
    have hlength : (init ++ [last]).length = o.pageSize := by
      rw [List.length_append, List.length_singleton, hfull]
    have htake : ahead.take o.pageSize = init ++ [last] := by
      rw [hsplit, List.append_cons, ← hlength, List.take_left]
    rw [heq]
    refine ⟨by rw [htake], iff_of_false (by simp) ?_, ?_⟩
    · rw [hsplit, List.length_append, List.length_cons]
      omega
    · intro item hitem
      obtain rfl := Option.some.inj hitem
      exact ⟨last, by simp [htake], key, hkey, rfl⟩

/-- What comes of the page that starts at the first row after a key. -/
theorem paged_pageAt (hplaced : ∀ r ∈ l, PlacedRow s r)
    (hsorted : l.Pairwise fun a b => rowPrecedes s b a = false) (o : MemoryOptions)
    (c : Condition) (after : Option Key) :
    Paged o s c l after (pageAt o s c l (firstAfter s l after)) where
  ahead := drop_firstAfter hplaced hsorted
  fits hfits := by
    have hle := firstAfter_le s l after
    refine ⟨_, _, pageEnd_of_fits _ hfits, Nat.le_min.2 ⟨Nat.le_add_right _ _, hle⟩,
      Nat.min_le_right _ _, examined_eq o l _, pageAt_eq c hplaced _ hfits, ?_⟩
    exact takesNext_pageOf fun r hr => hplaced r (List.mem_of_mem_drop hr)
  overflows hover := pageAt_of_overflows s c l hover

/-! ## What a fetch gives -/

variable {m : Memory}

/-- The bounds of a page. A fetch from a start without a key fails. From any other start it goes on
among the selected rows, in the order of their keys, and gives the next ones, or it is broken off if
the sum of its offset and the page size is past a word. -/
theorem Memory.pages_exactly (hcondition : checkPartition c = .ok ())
    (hreadable : Readable o m s.table) (hplaced : ∀ r ∈ m.rowsOf s.table, PlacedRow s r)
    (start : Option Item) :
    let sorted := candidates s c (m.rowsOf s.table)
    sorted.Perm ((m.rowsOf s.table).filter (c.selects s)) ∧
      (sorted.Pairwise fun a b => rowPrecedes s b a = false) ∧
      (∀ missing, start.mapM s.keyOf = .error missing →
        (outcome (fetchPage o s c start) m).1 = .error (.store .read (.missingKey missing))) ∧
      ∀ after, start.mapM s.keyOf = .ok after →
        Paged o s c sorted after (outcome (fetchPage o s c start) m).1 := by
  intro sorted
  obtain ⟨m', hrows, -, -⟩ := hreadable.outcome_rows .read
  have hsorted : sorted.Pairwise fun a b => rowPrecedes s b a = false :=
    pairwise_sortRows fun r hr => hplaced r (List.mem_filter.1 hr).1
  have hplaced' : ∀ r ∈ sorted, PlacedRow s r := fun r hr => hplaced r (mem_candidates.1 hr).1
  refine ⟨perm_sortRows _ _, hsorted, fun missing hstart => ?_, fun after hstart => ?_⟩ <;>
    rw [outcome_fetchPage_eq, hcondition, hrows] <;>
    simp only [offsetAfter_eq_firstAfter, hstart]
  · rfl
  · exact paged_pageAt hplaced' hsorted o c after

end Store

/-! ## Pages that are almost a word long -/

namespace Sample

open Query Store Memory Step

/-- Two tags that are put. -/
def tagged : Memory :=
  Memory.after {} (["a", "b"].map fun id => Use.plain tags (.put (tag id)))

theorem rowsOf_tagged : tagged.rowsOf "Tag" = ["a", "b"].map tag := by
  decide +kernel

theorem placed_tagged : ∀ r ∈ tagged.rowsOf "Tag", PlacedRow tags r := by
  have horderly : ∀ u ∈ ["a", "b"].map fun id => Use.plain tags (.put (tag id)),
      u.Orderly tags SaysNumber := by
    intro u hu
    obtain ⟨id, -, rfl⟩ := List.mem_map.1 hu
    exact Use.orderly_plain nofun
  exact (keyedRows_after horderly (keyedRows_empty tags)).placed

/-- After one row, the largest page size whose sum fits gives the other row. -/
theorem pages_exactly_tags :
    checkPartition .everything = .ok () ∧
      Readable (.withPageSize {} (1 <<< 64 - 2)) tagged "Tag" ∧
      (∀ r ∈ tagged.rowsOf "Tag", PlacedRow tags r) ∧
      ∃ page, (outcome (fetchPage (.withPageSize {} (1 <<< 64 - 2)) tags .everything
          (some (tag "a"))) tagged).1 = .ok page ∧
        TakesNext (.withPageSize {} (1 <<< 64 - 2)) tags .everything [tag "b"] page := by
  obtain ⟨-, -, -, hpages⟩ := pages_exactly (o := .withPageSize {} (1 <<< 64 - 2)) (s := tags)
    (c := .everything) rfl (.inl rfl) placed_tagged (some (tag "a"))
  have hpaged := hpages (some ⟨.text "a", none⟩) rfl
  have hsorted : candidates tags .everything (tagged.rowsOf "Tag") = [tag "a", tag "b"] := by
    decide +kernel
  have hoffset : firstAfter tags [tag "a", tag "b"] (some ⟨.text "a", none⟩) = 1 := by
    decide +kernel
  simp only [show tags.table = "Tag" from rfl, hsorted] at hpaged
  obtain ⟨-, page, -, -, -, -, hpage, htakes⟩ := hpaged.fits (by rw [hoffset]; decide +kernel)
  rw [hoffset] at htakes
  exact ⟨rfl, .inl rfl, placed_tagged, page, hpage, htakes⟩

/-- With the next page size the fetch is broken off, and the other row, which is the only one ahead
and passes, is not given. -/
theorem fetch_after_first_tag_overflows :
    InWords (.withPageSize {} (1 <<< 64 - 1)) (tagged.rowsOf "Tag") ∧
      checkPartition .everything = .ok () ∧
      Readable (.withPageSize {} (1 <<< 64 - 1)) tagged "Tag" ∧
      (∀ r ∈ tagged.rowsOf "Tag", PlacedRow tags r) ∧
      rowsAhead tags .everything (tagged.rowsOf "Tag") (some ⟨.text "a", none⟩) = [tag "b"] ∧
      Condition.everything.passes (tag "b") = true ∧
      (outcome (fetchPage (.withPageSize {} (1 <<< 64 - 1)) tags .everything
        (some (tag "a"))) tagged).1 = .error .overflow := by
  -- The offset is 1, so the sum is the first one that a word cannot hold.
  refine ⟨?_, rfl, .inl rfl, placed_tagged, by decide +kernel, rfl, rfl⟩
  rw [rowsOf_tagged]
  exact ⟨by decide +kernel, by decide +kernel⟩

end Sample

end ItemStore
