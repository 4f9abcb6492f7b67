import ItemStore.Proofs.Contents

/-!
# Rows under their own keys

Two keys are the same if they say the same and their number texts say numbers (`Key.same_iff`). So
a key with a text that says no number is not the same as itself, though its values are of the
declared types and a row is stored under it. Main statement: whatever was done to a table by handles
that share its key fields, each of its rows can be got, put again and deleted by its own key if the
number texts of that key say numbers, and otherwise no call by that key finds the row
(`Memory.rows_by_own_keys`).
-/

namespace ItemStore

/-! ## Keys that are the same -/

/-- A value is ranked if it says something in a key. -/
theorem Value.ranked_iff_part {v : Value} :
    (∀ digits ∈ v.number?, SaysNumber digits) ↔ v.part ≠ .number none := by
  cases v <;> simp [number?, part, SaysNumber, Option.isSome_iff_ne_none]

/-- The places of a key's numbers say whether its number texts say numbers. -/
theorem Key.ranked_iff_id {key : Key} :
    key.Ranked ↔ key.id.partition ≠ .number none ∧ key.id.sort ≠ some (.number none) := by
  have hall : key.Ranked ↔ ∀ v ∈ key.partition :: key.sort.toList, v.part ≠ .number none := by
    simp only [← Value.ranked_iff_part]
    constructor
    · intro h v hv digits hd
      exact h digits (List.mem_filterMap.2 ⟨v, hv, hd⟩)
    · intro h digits hd
      obtain ⟨v, hv, hd⟩ := List.mem_filterMap.1 hd
      exact h v hv digits hd
  rw [hall, List.forall_mem_cons, id]
  cases key.sort <;> simp

theorem Key.ranked_congr {j k : Key} (h : j.id = k.id) : j.Ranked ↔ k.Ranked := by
  rw [ranked_iff_id, ranked_iff_id, h]

/-- What is the same as a value is ranked. -/
theorem Value.ranked_of_same {v w : Value} (h : v.same w = true) : v.part ≠ .number none := by
  cases v with
  | number a =>
    cases w with
    | number b =>
      intro hpart
      have hrank : numberRank? a = none := KeyPart.number.inj hpart
      simp [same, compare?, hrank] at h
    | _ => simp [same] at h
  | _ => simp [part]

/-- Two keys are the same if they say the same and their number texts say numbers. -/
theorem Key.same_iff {j k : Key} : j.same k = true ↔ j.Ranked ∧ j.id = k.id := by
  refine ⟨fun h => ?_, fun h => (same_iff_id h.1 k).2 h.2⟩
  have hranked : j.Ranked := by
    rw [same, Bool.and_eq_true] at h
    refine ranked_iff_id.2 ⟨Value.ranked_of_same h.1, ?_⟩
    cases hv : j.sort with
    | none => simp [id, hv]
    | some v =>
      cases hw : k.sort with
      | none => simp [hv, hw] at h
      | some w =>
        rw [hv, hw] at h
        simpa [id, hv] using Value.ranked_of_same h.2
  exact ⟨hranked, (same_iff_id hranked k).1 h⟩

namespace Store

variable {s s' : Schema} {rows : List Item} {row a b : Item} {key j k : Key}

/-- A row has a key if its own is ranked and says the same. -/
theorem hasKey_iff_id (h : s.keyOf row = .ok j) :
    hasKey s key row = true ↔ j.Ranked ∧ j.id = key.id := by
  rw [hasKey, h]
  exact Key.same_iff

/-- Rows whose keys say the same have the same keys. -/
theorem hasKey_congr (ha : s.keyOf a = .ok j) (hb : s.keyOf b = .ok k) (h : j.id = k.id)
    (key : Key) : hasKey s key a = hasKey s key b := by
  rw [Bool.eq_iff_iff, hasKey_iff_id ha, hasKey_iff_id hb, Key.ranked_congr h, h]

/-- A row has the keys that say the same, or none of them. -/
theorem hasKey_of_id (h : j.id = k.id) (row : Item) : hasKey s j row = hasKey s k row := by
  unfold hasKey
  cases s.keyOf row with
  | error fault => rfl
  | ok l =>
    rw [Bool.eq_iff_iff]
    simp only [Key.same_iff, h]

/-! ## Tables -/

/-- The rows have keys of the declared types, and no row has the key of one after it. -/
structure CheckedRows (s : Schema) (rows : List Item) : Prop where
  checked : ∀ r ∈ rows, ∃ key, Memory.itemKey s r = .ok key
  apart : rows.Pairwise fun a b => ∀ key, s.keyOf b = .ok key → hasKey s key a = false

namespace CheckedRows

theorem sublist {rows' : List Item} (h : CheckedRows s rows) (hrows : rows'.Sublist rows) :
    CheckedRows s rows' :=
  ⟨fun r hr => h.checked r (hrows.subset hr), h.apart.sublist hrows⟩

/-- Storing a row whose key says what another key says, under that key. -/
theorem storeRow (h : CheckedRows s rows) (hrow : Memory.itemKey s row = .ok k)
    (hid : k.id = key.id) : CheckedRows s (storeRow s key row rows) := by
  refine ⟨?_, ?_⟩
  · intro x hx
    rcases mem_storeRow hx with rfl | hx
    · exact ⟨k, hrow⟩
    · exact h.checked x hx
  · have hk := (itemKey_eq_ok_iff.1 hrow).1
    obtain ⟨hchecked, hapart⟩ := h
    induction rows with
    | nil => exact List.pairwise_singleton _ _
    | cons r rest ih =>
      obtain ⟨⟨l, hl⟩, hrest⟩ := List.forall_mem_cons.1 hchecked
      obtain ⟨hr, hapart⟩ := List.pairwise_cons.1 hapart
      have hl := (itemKey_eq_ok_iff.1 hl).1
      unfold Store.storeRow
      split
      · rename_i hhas
        -- The new row takes the place of `r`, and its key says what the key of `r` says.
        have hlk : k.id = l.id := hid.trans ((hasKey_iff_id hl).1 hhas).2.symm
        refine List.pairwise_cons.2 ⟨fun x hx kx hkx => ?_, hapart⟩
        rw [hasKey_congr hk hl hlk]
        exact hr x hx kx hkx
      · rename_i hhas
        refine List.pairwise_cons.2 ⟨fun x hx kx hkx => ?_, ih hrest hapart⟩
        rcases mem_storeRow hx with rfl | hx
        · obtain rfl := Except.ok.inj (hk.symm.trans hkx)
          rw [hasKey_of_id hid]
          exact Bool.eq_false_iff.2 hhas
        · exact hr x hx kx hkx

theorem removeRow (h : CheckedRows s rows) (key : Key) : CheckedRows s (removeRow s key rows) :=
  h.sublist List.eraseP_sublist

/-- An update stores a row with the key of the stored one, or with the item's if there is none. -/
theorem updatedRow {item : Item} (h : CheckedRows s rows)
    (hkey : Memory.itemKey s item = .ok key) : CheckedRows s
      (Store.storeRow s key (updatedRow s key item (findRow s key rows)) rows) := by
  obtain ⟨hkeyOf, hchecked⟩ := itemKey_eq_ok_iff.1 hkey
  cases hfind : findRow s key rows with
  | none => exact h.storeRow (itemKey_eq_ok_iff.2 ⟨keyOf_updatedRow_none hkeyOf, hchecked⟩) rfl
  | some stored =>
    obtain ⟨k, hk⟩ := h.checked stored (List.mem_of_find?_eq_some hfind)
    obtain ⟨hkOf, hkchecked⟩ := itemKey_eq_ok_iff.1 hk
    have hsame := ((hasKey_iff_id hkOf).1 (List.find?_some hfind)).2
    exact h.storeRow (itemKey_eq_ok_iff.2 ⟨keyOf_updatedRow_some hkOf key, hkchecked⟩) hsame

theorem of_sameKeys (hs : s.SameKeys s') (h : CheckedRows s rows) : CheckedRows s' rows := by
  refine ⟨fun r hr => ?_, h.apart.imp_of_mem fun {a b} ha _ hab key hb => ?_⟩
  · obtain ⟨key, hkey⟩ := h.checked r hr
    obtain ⟨hkeyOf, hchecked⟩ := itemKey_eq_ok_iff.1 hkey
    exact ⟨key, itemKey_eq_ok_iff.2 ⟨hs.keyOf_iff.1 hkeyOf, hs.checkKey_eq ▸ hchecked⟩⟩
  · obtain ⟨j, hj⟩ := h.checked a ha
    have hjOf := (itemKey_eq_ok_iff.1 hj).1
    have hnot := hab key (hs.keyOf_iff.2 hb)
    rw [hasKey, hjOf] at hnot
    rw [hasKey, hs.keyOf_iff.1 hjOf]
    exact hnot

/-- Any call keeps it, whether it is accepted or not. -/
theorem rowsAfter {o : MemoryOptions} {call : Call} (h : CheckedRows s rows) :
    CheckedRows s (call.rowsAfter o s rows) := by
  refine Call.rowsAfter_keeps (fun rows h e he => ?_) (fun rows h e he => ?_)
    (fun rows h key => h.removeRow key) h
  · exact h.storeRow (itemKey_of_mem_puts he) rfl
  · exact h.updatedRow (itemKey_of_mem_updates he)

end CheckedRows

open Memory Step

variable {o : MemoryOptions} {m : Memory} {uses : List Use} {before after : List Item}

/-- Uses by handles that share their key fields leave a table of checked rows. -/
theorem Memory.checkedRows_after
    (hkeys : ∀ u ∈ uses, u.schema.table = s.table → u.schema.SameKeys s)
    (h : CheckedRows s (m.rowsOf s.table)) : CheckedRows s ((m.after uses).rowsOf s.table) := by
  refine rowsOf_after_keeps (fun u hu ht rows h => ?_) h
  have hs := hkeys u hu ht
  exact (h.of_sameKeys hs.symm).rowsAfter.of_sameKeys hs

/-! ## A row among others -/

/-- A row is stored over the first one that has the key. -/
theorem storeRow_middle (h : ∀ r ∈ before, hasKey s key r = false) (hrow : hasKey s key row = true)
    (row' : Item) : storeRow s key row' (before ++ row :: after) = before ++ row' :: after := by
  induction before with
  | nil => rw [List.nil_append, storeRow, if_pos hrow, List.nil_append]
  | cons r rest ih =>
    obtain ⟨hr, hrest⟩ := List.forall_mem_cons.1 h
    rw [List.cons_append, storeRow, if_neg (by simp [hr]), ih hrest, List.cons_append]

/-- The first row with the key is found. -/
theorem findRow_middle (h : ∀ r ∈ before, hasKey s key r = false)
    (hrow : hasKey s key row = true) : findRow s key (before ++ row :: after) = some row := by
  have hbefore : before.find? (hasKey s key) = none := by
    rw [List.find?_eq_none]
    exact fun r hr => by simp [h r hr]
  rw [findRow, List.find?_append, hbefore, Option.none_or, List.find?_cons_of_pos hrow]

/-- The first row with the key is removed, and no other. -/
theorem removeRow_middle (h : ∀ r ∈ before, hasKey s key r = false)
    (hrow : hasKey s key row = true) :
    removeRow s key (before ++ row :: after) = before ++ after := by
  rw [removeRow, List.eraseP_append_right _ (by simpa using h), List.eraseP_cons_of_pos hrow]

/-- A row has its own key if the number texts of that key say numbers, and then no other row has
it. -/
theorem CheckedRows.only (h : CheckedRows s (before ++ row :: after)) (hkey : s.keyOf row = .ok key)
    (hranked : key.Ranked) : hasKey s key row = true ∧
      ∀ r ∈ before ++ after, hasKey s key r = false := by
  obtain ⟨hchecked, hapart⟩ := h
  obtain ⟨-, hafter, hbefore⟩ := List.pairwise_append.1 hapart
  refine ⟨(hasKey_iff_id hkey).2 ⟨hranked, rfl⟩,
    List.forall_mem_append.2 ⟨fun r hr => hbefore r hr row (.head _) key hkey, fun r hr => ?_⟩⟩
  obtain ⟨k, hk⟩ := hchecked r (List.mem_append_right _ (.tail _ hr))
  have hkOf := (itemKey_eq_ok_iff.1 hk).1
  have hnot := (List.pairwise_cons.1 hafter).1 r hr k hkOf
  refine Bool.eq_false_iff.2 fun hhas => ?_
  have hid := ((hasKey_iff_id hkOf).1 hhas).2
  rw [(hasKey_iff_id hkey).2 ⟨hranked, hid.symm⟩] at hnot
  exact nomatch hnot

/-- No row has a key with a number text that says no number. -/
theorem hasKey_of_not_ranked (h : ¬ key.Ranked) (row : Item) : hasKey s key row = false := by
  unfold hasKey
  cases s.keyOf row with
  | error fault => rfl
  | ok k =>
    refine Bool.eq_false_iff.2 fun hsame => ?_
    obtain ⟨hranked, hid⟩ := Key.same_iff.1 hsame
    exact h ((Key.ranked_congr hid).1 hranked)

/-! ## Calls by a row's own key -/

/-- The row is found by its key: it is got, putting it again changes nothing, and deleting it
leaves the other rows. -/
structure Reached (o : MemoryOptions) (s : Schema) (m : Memory) (key : Key) (row : Item) :
    Prop where
  got : (outcome (getItem o s key) m).1 = .ok (some row)
  put : (outcome (putItem o s row) m).1 = .ok () ∧
    (outcome (putItem o s row) m).2.rowsOf s.table = m.rowsOf s.table
  deleted : (outcome (deleteItem o s key) m).1 = .ok () ∧
    ∃ before after, m.rowsOf s.table = before ++ row :: after ∧ row ∉ before ++ after ∧
      (outcome (deleteItem o s key) m).2.rowsOf s.table = before ++ after

/-- The row is not found by its key: nothing is got, putting it again adds a row, and deleting it
leaves all rows. -/
structure Lost (o : MemoryOptions) (s : Schema) (m : Memory) (key : Key) (row : Item) : Prop where
  got : (outcome (getItem o s key) m).1 = .ok none
  put : (outcome (putItem o s row) m).1 = .ok () ∧
    (outcome (putItem o s row) m).2.rowsOf s.table = m.rowsOf s.table ++ [row]
  deleted : (outcome (deleteItem o s key) m).1 = .ok () ∧
    (outcome (deleteItem o s key) m).2.rowsOf s.table = m.rowsOf s.table

theorem contains_of_mem_rowsOf {table : String} (h : row ∈ m.rowsOf table) :
    m.tables.contains table = true := by
  rw [Dict.contains_eq_isSome]
  rw [rowsOf] at h
  cases hrows : m.tables.get? table with
  | none => simp [hrows] at h
  | some rows => rfl

/-- A lookup with an accepted key reads the rows and finds the first one that has it. -/
theorem outcome_getItem_eq (o : MemoryOptions) (hkey : checkKey s key = .ok ()) (m : Memory) :
    outcome (getItem o s key) m = match outcome (Memory.rows o .read s.table) m with
      | (.ok rows, m') => (.ok (findRow s key rows), m')
      | (.error e, m') => (.error e, m') := by
  rw [getItem, outcome_checked_bind, hkey]
  simp only [outcome_bind]
  rcases outcome (Memory.rows o .read s.table) m with ⟨_ | rows, m'⟩ <;> rfl

/-- A lookup with an accepted key gives the row that is found. -/
theorem outcome_getItem (o : MemoryOptions) (hkey : checkKey s key = .ok ())
    (ht : m.tables.contains s.table = true) :
    outcome (getItem o s key) m = (.ok (findRow s key (m.rowsOf s.table)), m) := by
  rw [outcome_getItem_eq o hkey, outcome_rows_of_contains o .read ht]

/-- An accepted change of a readable table. -/
theorem outcome_changeRows {α : Type} {r : Except StoreFault α} {a : α} {table : String}
    {change : α → List Item → List Item} (hr : r = .ok a) (h : Readable o m table) :
    ∃ m', outcome (changeRows o r table change) m = (.ok (), m') ∧
      m'.tables.contains table = true ∧ m'.rowsOf table = change a (m.rowsOf table) := by
  obtain ⟨m', hrows, -, -⟩ := h.outcome_rows .write
  refine ⟨_, ?_, ?_, rowsOf_insert m' _ _⟩
  · rw [changeRows, outcome_checked_bind, hr]
    simp only [outcome_bind, hrows, outcome_setRows]
  · simp [Dict.contains_eq_isSome, Dict.get?_insert]

/-- A put with an accepted key stores its row. -/
theorem outcome_putItem (hkey : itemKey s row = .ok key) (h : Readable o m s.table) :
    ∃ m', outcome (putItem o s row) m = (.ok (), m') ∧ m'.tables.contains s.table = true ∧
      m'.rowsOf s.table = storeRow s key row (m.rowsOf s.table) :=
  outcome_changeRows hkey h

/-- A deletion with an accepted key removes its row. -/
theorem outcome_deleteItem (hkey : checkKey s key = .ok ()) (h : Readable o m s.table) :
    ∃ m', outcome (deleteItem o s key) m = (.ok (), m') ∧ m'.tables.contains s.table = true ∧
      m'.rowsOf s.table = removeRow s key (m.rowsOf s.table) :=
  outcome_changeRows hkey h

/-- A row whose key has numbers only is found by it. -/
theorem CheckedRows.reached (h : CheckedRows s (m.rowsOf s.table))
    (hrow : row ∈ m.rowsOf s.table) (hkey : itemKey s row = .ok key) (hranked : key.Ranked)
    (o : MemoryOptions) : Reached o s m key row := by
  have ht := contains_of_mem_rowsOf hrow
  obtain ⟨hkeyOf, hchecked⟩ := itemKey_eq_ok_iff.1 hkey
  obtain ⟨before, after, hrows⟩ := List.append_of_mem hrow
  rw [hrows] at h
  obtain ⟨hown, hothers⟩ := h.only hkeyOf hranked
  have hbefore := (List.forall_mem_append.1 hothers).1
  obtain ⟨put, hput, -, hputRows⟩ := outcome_putItem (o := o) hkey (.inr ht)
  obtain ⟨deleted, hdelete, -, hdeleteRows⟩ := outcome_deleteItem (o := o) hchecked (.inr ht)
  refine ⟨?_, ?_, ?_⟩
  · rw [outcome_getItem o hchecked ht, hrows, findRow_middle hbefore hown]
  · rw [hput, hputRows, hrows, storeRow_middle hbefore hown]
    exact ⟨rfl, rfl⟩
  · rw [hdelete, hdeleteRows, hrows, removeRow_middle hbefore hown]
    refine ⟨rfl, before, after, rfl, fun hmem => ?_, rfl⟩
    rw [hothers row hmem] at hown
    exact nomatch hown

/-- A row whose key has a text that says no number is not. -/
theorem lost_of_not_ranked (hrow : row ∈ m.rowsOf s.table) (hkey : itemKey s row = .ok key)
    (hranked : ¬ key.Ranked) (o : MemoryOptions) : Lost o s m key row := by
  have ht := contains_of_mem_rowsOf hrow
  have hchecked := (itemKey_eq_ok_iff.1 hkey).2
  have hnone : ∀ r ∈ m.rowsOf s.table, hasKey s key r = false :=
    fun r _ => hasKey_of_not_ranked hranked r
  obtain ⟨put, hput, -, hputRows⟩ := outcome_putItem (o := o) hkey (.inr ht)
  obtain ⟨deleted, hdelete, -, hdeleteRows⟩ := outcome_deleteItem (o := o) hchecked (.inr ht)
  refine ⟨?_, ?_, ?_⟩
  · rw [outcome_getItem o hchecked ht, findRow, List.find?_eq_none.2 (by simpa using hnone)]
  · rw [hput, hputRows, storeRow_append hnone]
    exact ⟨rfl, rfl⟩
  · rw [hdelete, hdeleteRows, removeRow, List.eraseP_of_forall_not (by simpa using hnone)]
    exact ⟨rfl, rfl⟩

/-- What a row's own key is good for. Whatever calls were made on a table by handles that share its
key fields, every row in it has a key that the store accepts. The row is found by that key if all
number texts in the key say numbers, and never if one says none. -/
theorem Memory.rows_by_own_keys
    (hkeys : ∀ u ∈ uses, u.schema.table = s.table → u.schema.SameKeys s)
    (hrow : row ∈ (Memory.after {} uses).rowsOf s.table) (o : MemoryOptions) :
    ∃ key, itemKey s row = .ok key ∧
      (key.Ranked → Reached o s (Memory.after {} uses) key row) ∧
      (¬ key.Ranked → Lost o s (Memory.after {} uses) key row) := by
  have h : CheckedRows s ((Memory.after {} uses).rowsOf s.table) :=
    checkedRows_after hkeys ⟨nofun, .nil⟩
  obtain ⟨key, hkey⟩ := h.checked row hrow
  exact ⟨key, hkey, fun hranked => h.reached hrow hkey hranked o,
    fun hranked => lost_of_not_ranked hrow hkey hranked o⟩

end Store

/-! ## Counters under their own keys -/

namespace Sample

open Query Store Memory Step

/-- Two counters that are put, one of them with a text that says no number. -/
def uncounted : List Use :=
  ["5", "nan"].map fun digits => Use.plain counters (.put (counter digits))

/-- One row is found by its key, and the other is not. -/
theorem rows_by_own_keys_uncounted :
    (∀ u ∈ uncounted, u.schema.table = counters.table → u.schema.SameKeys counters) ∧
      (Memory.after {} uncounted).rowsOf counters.table = ["5", "nan"].map counter ∧
      Reached {} counters (Memory.after {} uncounted) ⟨.number "5", none⟩ (counter "5") ∧
      Lost {} counters (Memory.after {} uncounted) ⟨.number "nan", none⟩ (counter "nan") := by
  have hkeys : ∀ u ∈ uncounted, u.schema.table = counters.table → u.schema.SameKeys counters := by
    intro u hu _
    obtain ⟨_, -, rfl⟩ := List.mem_map.1 hu
    exact ⟨rfl, rfl⟩
  have hrows : (Memory.after {} uncounted).rowsOf counters.table =
      ["5", "nan"].map counter := by
    decide +kernel
  have hranked : ∀ digits ∈ (⟨.number "5", none⟩ : Key).numbers, SaysNumber digits := by
    decide
  have hnot : ¬∀ digits ∈ (⟨.number "nan", none⟩ : Key).numbers, SaysNumber digits := by
    decide
  have hfive : counter "5" ∈ (Memory.after {} uncounted).rowsOf counters.table := by
    simp [hrows]
  have hnan : counter "nan" ∈ (Memory.after {} uncounted).rowsOf counters.table := by
    simp [hrows]
  obtain ⟨key, hkey, hreached, -⟩ := rows_by_own_keys hkeys hfive {}
  obtain ⟨key', hkey', -, hlost⟩ := rows_by_own_keys hkeys hnan {}
  obtain rfl : ⟨.number "5", none⟩ = key := Except.ok.inj hkey
  obtain rfl : ⟨.number "nan", none⟩ = key' := Except.ok.inj hkey'
  exact ⟨hkeys, hrows, hreached hranked, hlost hnot⟩

/-- The put of a counter is accepted, and then nothing finds the row. -/
theorem nan_counter_is_lost :
    (outcome (putItem {} counters (counter "nan")) {}).1 = .ok () ∧
      counter "nan" ∈ (Memory.after {} [Use.plain counters (.put (counter "nan"))]).rowsOf
        counters.table ∧
      counters.keyOf (counter "nan") = .ok ⟨.number "nan", none⟩ ∧
      Lost {} counters (Memory.after {} [Use.plain counters (.put (counter "nan"))])
        ⟨.number "nan", none⟩ (counter "nan") := by
  refine ⟨rfl, by decide +kernel, rfl, ⟨by decide +kernel, ⟨rfl, by decide +kernel⟩, rfl, ?_⟩⟩
  decide +kernel

end Sample

end ItemStore
