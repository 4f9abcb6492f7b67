import ItemStore.Proofs.Cursors
import ItemStore.Proofs.KeyedTables
import ItemStore.Proofs.Pages
import ItemStore.Proofs.Translation

/-!
# Draining a cursor

Main statement: a query on a table in memory gives the rows that its predicate holds of, each once
and in the order of their keys, in as many pages as the selected rows fill. A page starts where the
one before it ended (`rowsAhead_next`), so draining goes through all selected rows
(`Cursor.outcome_drainPages_eq`), and what they pass of the filter is what the predicate holds of.
-/

namespace ItemStore

namespace Store

open Query Memory Step

/-- How many pages some rows fill, one at least. -/
def pageCount (o : MemoryOptions) (count : Nat) : Nat :=
  max 1 ((count + (o.pageSize - 1)) / o.pageSize)

/-- Rows that fit a page make one. -/
theorem pageCount_of_le {o : MemoryOptions} {count : Nat} (h : count ≤ o.pageSize) :
    pageCount o count = 1 := by
  have hpos := o.pageSize_pos
  have hlt : (count + (o.pageSize - 1)) / o.pageSize < 2 :=
    (Nat.div_lt_iff_lt_mul hpos).2 (by omega)
  rw [pageCount]
  omega

/-- A full page and more rows make one page more than the rows. -/
theorem pageCount_add {o : MemoryOptions} {count : Nat} (h : 0 < count) :
    pageCount o (o.pageSize + count) = pageCount o count + 1 := by
  have hpos := o.pageSize_pos
  have hone : 1 ≤ (count + (o.pageSize - 1)) / o.pageSize :=
    (Nat.le_div_iff_mul_le hpos).2 (by omega)
  have hadd : (o.pageSize + count + (o.pageSize - 1)) / o.pageSize =
      (count + (o.pageSize - 1)) / o.pageSize + 1 := by
    rw [Nat.add_assoc, Nat.add_div_left _ hpos]
  rw [pageCount, pageCount, hadd]
  omega

variable {o : MemoryOptions} {s : Schema} {rows : List Item} {m m' : Memory} {after : Option Key}
  {t : Table Memory} {cursor : Cursor}

namespace Cursor

/-- Draining gives what passes the filter of the rows that lie ahead. -/
theorem outcome_drainPages_eq {c : Condition} (hfetch : t.fetch = fetchPage o s)
    (hcondition : checkPartition c = .ok ())
    (hrows : outcome (Memory.rows o .read s.table) m = (.ok rows, m')) (hkeyed : KeyedRows s rows)
    (hwords : InWords o rows) {limit : Nat} (hc : cursor.condition = c)
    (hcomplete : cursor.complete = false) (hstart : StartsAfter o s cursor.resume after)
    (hlimit : pageCount o (rowsAhead s c rows after).length < limit) :
    outcome (drainPages t limit) (m, cursor) =
      (.ok ((rowsAhead s c rows after).filter c.passes), m',
      { cursor with
        resume := none
        complete := true
        pages := cursor.pages + pageCount o (rowsAhead s c rows after).length }) := by
  -- On the limit, for any start: a page that is not the last leaves a later start and a fetch less.
  induction limit generalizing m cursor after with
  | zero => omega
  | succ limit ih =>
    rw [outcome_drainPages t limit m hcomplete, hfetch, hc]
    rcases outcome_fetchPage_cases hcondition hrows hkeyed hwords hstart with
      ⟨hle, hpage⟩ | ⟨taken, rest, key, hsplit, hfull, hne, hnext, -, hstart', hpage⟩
    · rw [pageCount_of_le hle] at hlimit ⊢
      obtain ⟨limit, rfl⟩ : ∃ n, limit = n + 1 := ⟨limit - 1, by omega⟩
      let next := afterPage ⟨(rowsAhead s c rows after).filter c.passes, none⟩ cursor.spent
      have hrest : outcome (drainPages t (limit + 1)) (m', next) = (.ok [], m', next) :=
        outcome_drainPages_of_complete t limit m' rfl
      simp only [hpage, next, hrest, Except.map, List.append_nil]
      simp only [afterPage, spent, Option.isNone_none, hc]
    · have hcount : pageCount o (rowsAhead s c rows after).length =
          pageCount o rest.length + 1 := by
        rw [hsplit, List.length_append, hfull, pageCount_add (List.length_pos_iff.2 hne)]
      rw [hcount] at hlimit ⊢
      let next := afterPage ⟨taken.filter c.passes, some (s.keyItem key)⟩ cursor.spent
      have hrest := @ih m' (some key) next (outcome_rows_again hrows) hc rfl hstart'
        (by rw [hnext]; omega)
      rw [hnext] at hrest
      simp only [hpage, next, hrest, Except.map, hsplit, List.filter_append]
      simp only [afterPage, spent, hc, Nat.add_assoc, Nat.add_comm 1]

/-- A fetch by a partition value that is no key fails before the table is read. -/
theorem outcome_drainPages_of_partitionValue {c : Condition} {key : KeyCondition}
    (hfetch : t.fetch = fetchPage o s) (hc : cursor.condition = c)
    (hcomplete : cursor.complete = false) (hkey : key ∈ c.key?)
    (hvalue : key.partition.isKeyType = false) (limit : Nat) :
    outcome (drainPages t (limit + 1)) (m, cursor) =
      (.error (.store .read (.partitionValue key.partition)), m, cursor.spent) := by
  have hcheck : checkPartition c = .error (.partitionValue key.partition) := by
    rw [checkPartition, Option.mem_def.1 hkey]
    simp [hvalue]
  rw [outcome_drainPages t limit m hcomplete, hfetch, hc, fetchPage, outcome_checked_bind, hcheck]

end Cursor

/-! ## Queries -/

/-- The answer to a query on some rows: those that its predicate holds of, no more and no fewer, in
strictly ascending order of their keys. -/
structure IsAnswer (s : Schema) (p : Predicate) (rows answer : List Item) : Prop where
  perm : answer.Perm (rows.filter p.holds)
  ascending : Ascending s answer

/-- The rows that a condition selects and passes are the answer of its predicate. -/
theorem isAnswer_of_ofPredicate {p : Predicate} {c : Condition} (hkeyed : KeyedRows s rows)
    (hc : Condition.ofPredicate s p = .ok c) :
    IsAnswer s p rows ((rowsAhead s c rows none).filter c.passes) := by
  have hpass : (rows.filter (c.selects s)).filter c.passes = rows.filter p.holds := by
    rw [List.filter_filter]
    refine List.filter_congr ?_
    intro row _
    rw [Bool.and_comm, Condition.selects_and_passes_of_ofPredicate hc]
  have hsorted := sortedRows_rowsAhead hkeyed c none
  refine ⟨?_, (hsorted.sublist List.filter_sublist).keys_ascend⟩
  rw [rowsAhead_none, candidates, ← hpass]
  exact (perm_sortRows s _).filter _

/-- Draining a query gives its answer, whatever the page size, in as many pages as the selected rows
fill; a query that looks for a partition by a value that is no key fails and gives nothing. The
table has the rows that any uses of the store left, by handles that share its key fields and write
numbers in number keys. -/
theorem drain_ofQuery {text : String} {bindings : Bindings} {c : Condition}
    (hquery : Condition.ofQuery s text bindings = .ok c) {uses : List Use}
    (huses : ∀ u ∈ uses, u.Orderly s SaysNumber) :
    ∃ p answer, Condition.boundPredicate s text bindings = .ok p ∧
      IsAnswer s p ((Memory.after {} uses).rowsOf s.table) answer ∧
      ∀ (o : MemoryOptions) (t : Table Memory) (rows : List Item) (m : Memory),
        (backend o).table s = .ok t →
        outcome (Memory.rows o .read s.table) (Memory.after {} uses) = (.ok rows, m) →
        InWords o rows →
        let pages := pageCount o (rows.filter (c.selects s)).length
        ((∀ key ∈ c.key?, key.partition.isKeyType = true) → ∀ limit, pages < limit →
          outcome (Cursor.drain t limit) (Memory.after {} uses, { condition := c }) =
            (.ok answer, m, { condition := c, complete := true, pages })) ∧
        ∀ key ∈ c.key?, key.partition.isKeyType = false → ∀ limit,
          outcome (Cursor.drain t (limit + 1)) (Memory.after {} uses, { condition := c }) =
            (.error (.store .read (.partitionValue key.partition)), Memory.after {} uses,
              { condition := c }) := by
  obtain ⟨p, hp, hc⟩ : ∃ p, Condition.boundPredicate s text bindings = .ok p ∧
      Condition.ofPredicate s p = .ok c := by
    rw [Condition.ofQuery_eq] at hquery
    cases hp : Condition.boundPredicate s text bindings with
    | error e => simp [hp, bind, Except.bind] at hquery
    | ok p => exact ⟨p, rfl, by simpa [hp, bind, Except.bind] using hquery⟩
  have hkeyed := keyedRows_after huses (keyedRows_empty s)
  refine ⟨p, _, hp, isAnswer_of_ofPredicate hkeyed hc, ?_⟩
  intro o t rows m htable hrows hwords
  have hfetch := fetch_of_backend htable
  obtain rfl := eq_rowsOf_of_outcome_rows hrows
  have hcount : (rowsAhead s c ((Memory.after {} uses).rowsOf s.table) none).length =
      (((Memory.after {} uses).rowsOf s.table).filter (c.selects s)).length := by
    rw [rowsAhead_none, candidates, length_sortRows]
  refine ⟨?_, ?_⟩
  · intro hkey limit hlimit
    have hcondition : checkPartition c = .ok () := by
      rw [checkPartition]
      cases hc : c.key? with
      | none => rfl
      | some key => simp [hkey key hc]
    rw [← hcount] at hlimit ⊢
    rw [Cursor.outcome_drain, Cursor.outcome_drainPages_eq hfetch hcondition hrows hkeyed hwords
      rfl rfl .first hlimit]
    simp [Except.map]
  · intro key hkey hvalue limit
    rw [Cursor.outcome_drain,
      Cursor.outcome_drainPages_of_partitionValue hfetch rfl rfl hkey hvalue limit]
    rfl

end Store

/-! ## Readings of two sensors -/

namespace Sample

open Query Store Memory Step

/-- A reading, by the texts of its attributes. -/
def measured (sensor ts value : String) : Item :=
  .ofList [("sensor", .text sensor), ("ts", .number ts), ("value", .number value)]

/-- Readings as they come in: late ones, one of another sensor, and one again. -/
def written : List Use :=
  [measured "s1" "10" "1", measured "s2" "7" "5", measured "s1" "9" "3",
    measured "s1" "-1.5" "0", measured "s1" "010" "2"].map fun item => .plain readings (.put item)

theorem orderly_written : ∀ u ∈ written, u.Orderly readings SaysNumber := by
  have hnumbers : ∀ u ∈ written, ∀ digits ∈ u.keyNumbers, SaysNumber digits := by
    decide +kernel
  intro u hu
  have hdigits := hnumbers u hu
  obtain ⟨item, -, rfl⟩ := List.mem_map.1 hu
  exact Use.orderly_plain hdigits

/-- A sensor that is asked for by its value alone, in pages of one reading. -/
theorem drain_ofQuery_sensor :
    Condition.ofQuery readings "sensor" (.positional [.text "s1"]) = .ok (.keyEquals (.text "s1")) ∧
      (∀ u ∈ written, u.Orderly readings SaysNumber) ∧
      ∃ p answer, IsAnswer readings p ((Memory.after {} written).rowsOf "sensor_readings") answer ∧
        ∀ t, (backend (.withPageSize {} 1)).table readings = .ok t →
          outcome (Cursor.drain t 4)
            (Memory.after {} written, { condition := .keyEquals (.text "s1") }) =
            (.ok answer, Memory.after {} written,
              { condition := .keyEquals (.text "s1"), complete := true, pages := 3 }) := by
  have hquery : Condition.ofQuery readings "sensor" (.positional [.text "s1"]) =
      .ok (.keyEquals (.text "s1")) := by
    rfl
  obtain ⟨p, answer, -, hanswer, hdrain⟩ := drain_ofQuery hquery orderly_written
  refine ⟨hquery, orderly_written, p, answer, hanswer, fun t ht => ?_⟩
  have hcontains : (Memory.after {} written).tables.contains "sensor_readings" = true := by
    decide +kernel
  have hwords : InWords (.withPageSize {} 1)
      ((Memory.after {} written).rowsOf "sensor_readings") := by
    constructor <;> decide +kernel
  have hrows := outcome_rows_of_contains (.withPageSize {} 1) .read hcontains
  have hkey : ∀ key ∈ (Condition.keyEquals (.text "s1")).key?, key.partition.isKeyType = true := by
    decide +kernel
  have hpages : pageCount (.withPageSize {} 1) (((Memory.after {} written).rowsOf
      "sensor_readings").filter ((Condition.keyEquals (.text "s1")).selects readings)).length =
      3 := by
    decide +kernel
  have h := (hdrain _ t _ _ ht hrows hwords).1 hkey 4
  simp only [hpages] at h
  exact h (by decide)

end Sample

end ItemStore
