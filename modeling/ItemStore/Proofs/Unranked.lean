import ItemStore.Proofs.Advancing
import ItemStore.Proofs.KeyedTables

/-!
# Keys without a place

A number key may have a text that says no number, and such a key compares as equal to all others.
Main statement: draining a table always ends if no key field is a number or all texts that may be
written there say numbers, and otherwise there is a table on which it never does (`ends_exactly`).

Rows with the keys `5`, a text that says no number, `3` and `4` are left by sorting as they are. A
page of three rows ends at `3`, and the first row after `3` is the first row of all, so every page
leads to the same page again (`outcome_fetchPage_around`).
-/

namespace ItemStore

/-- Some field of the key takes numbers. -/
def Schema.NumberKeyed (s : Schema) : Prop :=
  s.partitionKey.type = .number ∨ ∃ f ∈ s.sortKey, f.type = .number

namespace Store

open Query Memory Step

variable {s : Schema} {key : Key} {d e digits : String}

/-! ## Keys without numbers -/

theorem number?_eq_none {t : FieldType} {v : Value} (ht : t ≠ .number)
    (hv : t.acceptsKey v = true) : v.number? = none := by
  cases t <;> cases v <;> simp_all [FieldType.acceptsKey, Value.number?]

/-- Where no key field is a number, there is no number text in a key. -/
theorem numbers_eq_nil (hs : ¬ s.NumberKeyed) (hkey : checkKey s key = .ok ()) :
    key.numbers = [] := by
  rw [Schema.NumberKeyed, not_or] at hs
  obtain ⟨hpartition, hsort⟩ := checkKey_eq_ok_iff.1 hkey
  have hp := number?_eq_none hs.1 hpartition
  cases hf : s.sortKey <;> cases hv : key.sort <;> simp only [hf, hv] at hsort
  · simp [Key.numbers, hv, hp]
  · rename_i f v
    have hne : f.type ≠ .number := fun ht => hs.2 ⟨f, hf, ht⟩
    simp [Key.numbers, hv, hp, number?_eq_none hne hsort]

/-- Uses write numbers in number keys if the texts that they may write say numbers, or if there is
no number key. -/
theorem orderly_of_imp {admits : String → Prop} {u : Use} (h : u.Orderly s admits)
    (hadmits : s.NumberKeyed → ∀ digits, admits digits → SaysNumber digits) :
    u.Orderly s SaysNumber := by
  refine ⟨h.sameKeys, ?_⟩
  intro ht digits hd
  by_cases hs : s.NumberKeyed
  · exact hadmits hs digits (h.numbers ht digits hd)
  · obtain ⟨entry, hentry, hdigits⟩ := List.mem_flatMap.1 hd
    have hkey : itemKey u.schema entry.2 = .ok entry.1 := by
      rw [List.mem_append, Option.mem_toList] at hentry
      exact hentry.elim itemKey_of_mem_puts itemKey_of_mem_updates
    have hchecked := (itemKey_eq_ok_iff.1 hkey).2
    rw [(h.sameKeys ht).checkKey_eq] at hchecked
    rw [numbers_eq_nil hs hchecked] at hdigits
    exact absurd hdigits List.not_mem_nil

/-! ## Rows that differ in a number text -/

/-- A value for a key field: the number, if it takes numbers, and one and the same value if not. -/
def probeValue (t : FieldType) (digits : String) : Value :=
  match t with
  | .number => .number digits
  | .binary => .binary []
  | _ => .text ""

/-- A key with a number text in every field that takes numbers. -/
def probeKey (s : Schema) (digits : String) : Key where
  partition := probeValue s.partitionKey.type digits
  sort := s.sortKey.map fun f => probeValue f.type digits

/-- The row that has the key and nothing else. -/
def probe (s : Schema) (digits : String) : Item :=
  s.keyItem (probeKey s digits)

@[simp] theorem probeValue_number (digits : String) :
    probeValue .number digits = .number digits :=
  rfl

theorem acceptsKey_probeValue {t : FieldType} (ht : t.isKeyType = true) (digits : String) :
    t.acceptsKey (probeValue t digits) = true := by
  cases t <;> first | rfl | exact nomatch ht

theorem compareValues_probeValue {t : FieldType} (ht : t ≠ .number) (d e : String) :
    compareValues (probeValue t d) (probeValue t e) = .eq := by
  cases t <;> first | rfl | exact absurd rfl ht

/-- The key of a probe. -/
theorem keyOf_probe (s : Schema) (digits : String) :
    s.keyOf (probe s digits) = .ok (probeKey s digits) := by
  refine Schema.keyOf_keyItem_of_sort ?_
  rw [probeKey, Option.isSome_map]

/-- The key of a probe has the types of its table. -/
theorem checkKey_probeKey (s : Schema) (digits : String) :
    checkKey s (probeKey s digits) = .ok () := by
  rw [checkKey_eq_ok_iff]
  refine ⟨acceptsKey_probeValue s.partition_isKeyType digits, ?_⟩
  cases hf : s.sortKey with
  | none => simp [probeKey, hf]
  | some f => simpa [probeKey, hf] using acceptsKey_probeValue (s.sort_isKeyType f hf) digits

theorem itemKey_probe (s : Schema) (digits : String) :
    itemKey s (probe s digits) = .ok (probeKey s digits) :=
  itemKey_eq_ok_iff.2 ⟨keyOf_probe s digits, checkKey_probeKey s digits⟩

/-- Such keys compare as their number texts do. -/
theorem compareKeys_probeKey (hs : s.NumberKeyed) (d e : String) :
    compareKeys (probeKey s d) (probeKey s e) = compareValues (.number d) (.number e) := by
  unfold compareKeys probeKey
  by_cases hp : s.partitionKey.type = .number
  · cases hf : s.sortKey with
    | none => simp [hp]
    | some f =>
      by_cases hft : f.type = .number
      · simp [hp, hft]
      · simp [hp, compareValues_probeValue hft]
  · obtain ⟨f, hf, hft⟩ := hs.resolve_left hp
    rw [compareValues_probeValue hp, Option.mem_def.1 hf]
    simp [hft]

/-- Probes are compared by their numbers. -/
theorem rowPrecedes_probe (hs : s.NumberKeyed) (d e : String) :
    rowPrecedes s (probe s d) (probe s e) =
      (compareValues (.number d) (.number e) == .lt) := by
  rw [rowPrecedes, keyOf_probe, keyOf_probe]
  simp only [compareKeys_probeKey hs]

/-- A probe follows a key by its number. -/
theorem rowFollows_probe (hs : s.NumberKeyed) (d e : String) :
    rowFollows s (probeKey s d) (probe s e) =
      (compareValues (.number e) (.number d) == .gt) := by
  rw [rowFollows, keyOf_probe]
  simp only [compareKeys_probeKey hs]

theorem not_hasKey_probe (hs : s.NumberKeyed)
    (hne : Value.same (.number e) (.number d) = false) :
    hasKey s (probeKey s d) (probe s e) = false := by
  rw [hasKey, keyOf_probe]
  simp only [Key.same, probeKey]
  by_cases hp : s.partitionKey.type = .number
  · simp [hp, hne]
  · obtain ⟨f, hf, hft⟩ := hs.resolve_left hp
    simp [Option.mem_def.1 hf, hft, hne]

/-! ## Storing such rows -/

variable {o : MemoryOptions} {m m' : Memory} {item : Item} {rows : List Item}

/-- A row whose key no row has is stored after the last one. -/
theorem storeRow_append (h : ∀ r ∈ rows, hasKey s key r = false) :
    storeRow s key item rows = rows ++ [item] := by
  induction rows with
  | nil => rfl
  | cons r rest ih =>
    obtain ⟨hr, hrest⟩ := List.forall_mem_cons.1 h
    rw [storeRow, hr, if_neg Bool.false_ne_true, ih hrest, List.cons_append]

/-- An accepted put stores its row. -/
theorem rowsOf_run_put (hkey : itemKey s item = .ok key) :
    ((Use.plain s (.put item)).run m).rowsOf s.table =
      storeRow s key item (m.rowsOf s.table) := by
  have hreadable : Readable {} m s.table := .inl rfl
  obtain ⟨m', hrows, -, -⟩ := hreadable.outcome_rows .write
  show rowsOf (outcome (putItem {} s item) m).2 s.table = _
  rw [putItem, outcome_checked_bind, hkey]
  simp only [outcome_bind, hrows, outcome_setRows]
  exact rowsOf_insert _ _ _

/-- Puts rows with number texts, one after the other. -/
def putProbes (s : Schema) (texts : List String) : List Use :=
  texts.map fun digits => Use.plain s (.put (probe s digits))

/-- Rows whose number texts are not the same stand in the order in which they were put. -/
theorem rowsOf_after_putProbes (hs : s.NumberKeyed) {texts : List String} (stored : List String)
    (hne : (stored ++ texts).Pairwise fun d e => Value.same (.number d) (.number e) = false)
    (hstored : m.rowsOf s.table = stored.map (probe s)) :
    (Memory.after m (putProbes s texts)).rowsOf s.table = (stored ++ texts).map (probe s) := by
  induction texts generalizing m stored with
  | nil =>
    rw [List.append_nil]
    exact hstored
  | cons d texts ih =>
    have hput : ((Use.plain s (.put (probe s d))).run m).rowsOf s.table =
        (stored ++ [d]).map (probe s) := by
      have hother : ∀ r ∈ stored.map (probe s), hasKey s (probeKey s d) r = false := by
        intro r hr
        obtain ⟨e, he, rfl⟩ := List.mem_map.1 hr
        have hsame := (List.pairwise_append.1 hne).2.2 e he d List.mem_cons_self
        exact not_hasKey_probe hs hsame
      rw [rowsOf_run_put (itemKey_probe s d), hstored, List.map_append]
      exact storeRow_append hother
    rw [List.append_cons] at hne ⊢
    exact ih _ hne hput

theorem eq_of_mem_numbers_probeKey (h : e ∈ (probeKey s d).numbers) : e = d := by
  have hvalue : ∀ {t : FieldType}, e ∈ (probeValue t d).number? → e = d := by
    intro t ht
    cases t <;> simp_all [probeValue, Value.number?]
  obtain ⟨v, hv, he⟩ := List.mem_filterMap.1 h
  rcases List.mem_cons.1 hv with rfl | hv
  · exact hvalue he
  · obtain ⟨f, -, rfl⟩ := Option.map_eq_some_iff.1 (Option.mem_toList.1 hv)
    exact hvalue he

theorem orderly_putProbes {admits : String → Prop} {texts : List String}
    (h : ∀ d ∈ texts, admits d) : ∀ u ∈ putProbes s texts, u.Orderly s admits := by
  intro u hu
  obtain ⟨d, hd, rfl⟩ := List.mem_map.1 hu
  refine Use.orderly_plain ?_
  intro digits hdigits
  have hnumbers : digits ∈ (probeKey s d).numbers := by
    simpa [Use.keyNumbers, Use.plain, Call.puts, Call.updates, itemKey_probe] using hdigits
  rw [eq_of_mem_numbers_probeKey hnumbers]
  exact h d hd

/-! ## Pages that go round -/

/-- A text that says no number compares as equal with every value. -/
theorem compareValues_unranked (hd : ¬ SaysNumber d) (v : Value) :
    compareValues (.number d) v = .eq := by
  rw [SaysNumber, Bool.not_eq_true, Option.isSome_eq_false_iff, Option.isNone_iff_eq_none] at hd
  cases v <;> simp [compareValues, Value.compare?, hd]

/-- A text that says no number is the same as none. -/
theorem same_unranked (hd : ¬ SaysNumber d) (e : String) :
    Value.same (.number d) (.number e) = false ∧ Value.same (.number e) (.number d) = false := by
  rw [SaysNumber, Bool.not_eq_true, Option.isSome_eq_false_iff, Option.isNone_iff_eq_none] at hd
  constructor <;> simp [Value.same, Value.compare?, hd]

/-- Four texts, of which the second one says no number, are left by sorting as they are. -/
def around (d : String) : List String :=
  ["5", d, "3", "4"]

/-- No two of these texts are the same number. -/
theorem pairwise_around (hd : ¬ SaysNumber d) :
    (around d).Pairwise fun d e => Value.same (.number d) (.number e) = false := by
  have hnumbers : Value.same (.number "5") (.number "3") = false ∧
      Value.same (.number "5") (.number "4") = false ∧
      Value.same (.number "3") (.number "4") = false := by
    decide
  simp [around, same_unranked hd, hnumbers]

/-- The rows stay in the order in which they were put: sorting does not move them. -/
theorem candidates_around (hs : s.NumberKeyed) (hd : ¬ SaysNumber d) {c : Condition}
    (hc : c.key? = none) :
    candidates s c ((around d).map (probe s)) = (around d).map (probe s) := by
  have hleft : ∀ e, compareValues (.number d) (.number e) = .eq := fun e =>
    compareValues_unranked hd _
  have hright : ∀ e, compareValues (.number e) (.number d) = .eq := fun e => by
    rw [compareValues_swap, hleft]
    rfl
  have hnumbers : compareValues (.number "4") (.number "3") = .gt := by
    decide
  have hall : ∀ rows : List Item, rows.filter (c.selects s) = rows := fun rows =>
    List.filter_eq_self.2 fun r _ => by rw [Condition.selects, hc, Option.all_none]
  rw [candidates, hall]
  simp [around, sortRows, insertDescending, rowPrecedes_probe hs, hleft, hright, hnumbers]

/-- A fetch from the first row or from three gives the first three rows, and three to go on from. -/
theorem outcome_fetchPage_around (hs : s.NumberKeyed) (hd : ¬ SaysNumber d) {c : Condition}
    (hc : c.key? = none) {start : Option Item}
    (hstart : start = none ∨ start = some (probe s "3"))
    (hrows : outcome (Memory.rows (.withPageSize {} 3) .read s.table) m =
      (.ok ((around d).map (probe s)), m')) :
    outcome (fetchPage (.withPageSize {} 3) s c start) m =
      (.ok ⟨(["5", d, "3"].map (probe s)).filter c.passes, some (probe s "3")⟩, m') := by
  have hcondition : checkPartition c = .ok () := by
    rw [checkPartition, hc]
  have hoffset : offsetAfter s ((around d).map (probe s)) start = .ok 0 := by
    rcases hstart with rfl | rfl
    · rfl
    · have hfirst : rowFollows s (probeKey s "3") (probe s "5") = true := by
        rw [rowFollows_probe hs]
        decide
      rw [offsetAfter, keyOf_probe]
      simp [around, hfirst, List.findIdx?_cons, bind, Except.bind, pure,
        Except.pure]
  have hpage : pageAt (.withPageSize {} 3) s c ((around d).map (probe s)) 0 =
      .ok ⟨(["5", d, "3"].map (probe s)).filter c.passes, some (probe s "3")⟩ := by
    have hend : pageEnd (.withPageSize {} 3) 0 4 = .ok 3 :=
      pageEnd_of_fits 4 (by decide)
    simp [pageAt, pageBetween, examined, around, hend, keyOf_probe, Except.map, bind, Except.bind,
      pure, Except.pure]
    rfl
  rw [outcome_fetchPage_eq, hcondition, hrows]
  simp only [candidates_around hs hd hc, hoffset, hpage]

/-- A cursor over these rows comes to the same page again and again. -/
theorem drain_around_never_ends (hs : s.NumberKeyed) (hd : ¬ SaysNumber d) {c : Condition}
    (hc : c.key? = none) {t : Table Memory} (ht : (backend (.withPageSize {} 3)).table s = .ok t)
    (hrows : m.rowsOf s.table = (around d).map (probe s)) (limit : Nat) :
    (outcome (Cursor.drain t limit) (m, { condition := c })).1 = .error tooMany := by
  let going : Memory → Option Item → Prop := fun m start =>
    (start = none ∨ start = some (probe s "3")) ∧ ∃ m',
      outcome (Memory.rows (.withPageSize {} 3) .read s.table) m =
        (.ok ((around d).map (probe s)), m')
  have hgoing : ∀ m start, going m start → ∃ page resume m',
      outcome (t.fetch c start) m = (.ok page, m') ∧ page.resume = some resume ∧
        going m' (some resume) := by
    rintro m start ⟨hstart, m', hread⟩
    rw [fetch_of_backend ht]
    exact ⟨_, probe s "3", m', outcome_fetchPage_around hs hd hc hstart hread, rfl, .inr rfl, m',
      outcome_rows_again hread⟩
  have hfirst : going m none := by
    have hreadable : Readable (.withPageSize {} 3) m s.table := .inl rfl
    obtain ⟨m', hread, -, -⟩ := hreadable.outcome_rows .read
    exact ⟨.inl rfl, m', hrows ▸ hread⟩
  let cursor : Cursor := { condition := c }
  have hpages : (outcome (Cursor.drainPages t limit) (m, cursor)).1 = .error tooMany :=
    Cursor.drainPages_never_ends hgoing limit rfl rfl hfirst
  rw [Cursor.outcome_drain]
  show (outcome (Cursor.drainPages t limit) (m, cursor)).1.map _ = _
  rw [hpages]
  rfl

/-! ## When draining ends -/

/-- Draining always ends if there is no number key or the texts in number keys say numbers. -/
theorem ends_of_saysNumber {uses : List Use} (huses : ∀ u ∈ uses, u.Orderly s SaysNumber)
    {t : Table Memory} (ht : (backend o).table s = .ok t) (cursor : Cursor) :
    Cursor.Ends t (Memory.after {} uses) cursor := by
  have hkeyed := keyedRows_after huses (keyedRows_empty s)
  refine Cursor.ends_of_pagesEnd ?_ ?_ <;> rw [fetch_of_backend ht]
  · intro start m
    exact outcome_fetchPage_ne_tooMany o s _ start m
  · exact pagesEnd_of_placed o _ _ hkeyed.placed

/-- Let number texts of some more kinds be written in keys. If the key has a number field and one of
the texts says no number, there is a table on which draining a new cursor never ends. If not, pages,
draining and looking for the next item end on every table and from every cursor. -/
theorem ends_exactly (s : Schema) (extra : String → Prop) :
    ((s.NumberKeyed → ∀ d, extra d → SaysNumber d) →
      ∀ uses : List Use, (∀ u ∈ uses, u.Orderly s fun d => SaysNumber d ∨ extra d) →
        ∀ o t cursor, (backend o).table s = .ok t →
          Cursor.Ends t (Memory.after {} uses) cursor) ∧
    (¬ (s.NumberKeyed → ∀ d, extra d → SaysNumber d) →
      ∃ uses : List Use, (∀ u ∈ uses, u.Orderly s fun d => SaysNumber d ∨ extra d) ∧
        ∃ o t, (backend o).table s = .ok t ∧ ∀ limit,
          (outcome (Cursor.drain t limit)
            (Memory.after {} uses, { condition := .everything })).1 = .error tooMany) := by
  refine ⟨?_, ?_⟩
  · intro hnumbers uses huses o t cursor ht
    have horderly : ∀ u ∈ uses, u.Orderly s SaysNumber := by
      intro u hu
      exact orderly_of_imp (huses u hu) fun hs d hd => hd.elim id (hnumbers hs d)
    exact ends_of_saysNumber horderly ht cursor
  · intro hnot
    obtain ⟨hs, hnot⟩ := Classical.not_imp.1 hnot
    obtain ⟨d, hd⟩ := Classical.not_forall.1 hnot
    obtain ⟨hextra, hd⟩ := Classical.not_imp.1 hd
    -- Pages of three rows go round for ever among the keys 5, `d`, 3 and 4.
    have hadmits : ∀ e ∈ around d, SaysNumber e ∨ extra e := by
      have h5 : SaysNumber "5" := by decide
      have h3 : SaysNumber "3" := by decide
      have h4 : SaysNumber "4" := by decide
      simp [around, h5, h3, h4, hextra]
    have hrows : (Memory.after {} (putProbes s (around d))).rowsOf s.table =
        (around d).map (probe s) :=
      rowsOf_after_putProbes hs [] (pairwise_around hd) rfl
    refine ⟨putProbes s (around d), orderly_putProbes hadmits, .withPageSize {} 3, _, rfl, ?_⟩
    intro limit
    exact drain_around_never_ends hs hd rfl rfl hrows limit

end Store

/-! ## Counters -/

namespace Sample

open Query Store Memory Step

theorem isKeyType_of_no_sort : ∀ f ∈ (none : Option Field), f.type.isKeyType = true := by
  simp

/-- Counters by their numbers. -/
def counters : Schema where
  entity := "Counter"
  table := "counters"
  fields := [⟨"id", .number⟩]
  partitionKey := ⟨"id", .number⟩
  sortKey := none
  entity_ne := by decide
  names_nodup := by decide
  partition_mem := by decide
  partition_isKeyType := by decide
  sort_mem := by decide
  sort_isKeyType := isKeyType_of_no_sort
  sort_ne := by decide

/-- A counter, which has nothing but its number. -/
def counter (digits : String) : Item :=
  .ofList [("id", .number digits)]

/-- Four counters that are put, one of them with a text that says no number. -/
def counted : List Use :=
  ["5", "nan", "3", "4"].map fun digits => Use.plain counters (.put (counter digits))

/-- The four puts are accepted, and draining the table by three rows a page ends within no limit. -/
theorem drain_counted_never_ends :
    (Memory.after {} counted).rowsOf "counters" = ["5", "nan", "3", "4"].map counter ∧
      ∃ t, (backend (.withPageSize {} 3)).table counters = .ok t ∧ ∀ limit,
        (outcome (Cursor.drain t limit)
          (Memory.after {} counted, { condition := .everything })).1 = .error tooMany := by
  have hrows : (Memory.after {} counted).rowsOf "counters" =
      ["5", "nan", "3", "4"].map counter := by
    decide +kernel
  have hnan : ¬ SaysNumber "nan" := by
    decide
  refine ⟨hrows, _, rfl, ?_⟩
  intro limit
  exact drain_around_never_ends (.inl rfl) hnan rfl rfl hrows limit

end Sample

end ItemStore
