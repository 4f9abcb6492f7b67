import ItemStore.Entity.Sample
import ItemStore.Proofs.Actions
import ItemStore.Proofs.Draining
import ItemStore.Proofs.KeyedQueries
import ItemStore.Proofs.OwnKeys
import ItemStore.Proofs.PrintedQueries

/-!
# Looking up one key

A row is looked up by its key in two ways that share no code: a table gives the first row with the
key, and a query selects rows by their key values, sorts them and pages through them. Main
statement: they give the same. Whatever calls were made on a table by handles that share its key
fields, the row under a key of the declared types is what a query for that key lists, there is none
if the query lists none, and both fail alike (`Repository.lookups_agree`).

It rests on two facts. Where a row has a key at all, the condition of a key selects it just if it
has that key (`Condition.selects_ofKey`). And no two rows of a table have one key, though a row
need not have the key that it is stored under (`CheckedRows.filter_hasKey`).
-/

namespace ItemStore

open Query Store Memory Step

/-! ## The condition of a key -/

namespace Query.Condition

/-- The condition that asks for the rows with a key. -/
def ofKey (key : Key) : Condition :=
  match key.sort with
  | none => keyEquals key.partition
  | some w => filter (some ⟨key.partition, some ⟨.eq, w⟩⟩) none

variable {s : Schema} {key k : Key} {row : Item}

/-- The condition of a key reads its partition, and says of the sort key that it is equal. -/
theorem key?_ofKey (key : Key) :
    (ofKey key).key? = some ⟨key.partition, key.sort.map fun w => ⟨.eq, w⟩⟩ := by
  unfold ofKey
  cases key.sort <;> rfl

theorem passes_ofKey (key : Key) (row : Item) : (ofKey key).passes row = true := by
  unfold ofKey
  cases key.sort <;> rfl

/-- A key of the declared types can be asked for. -/
theorem checkPartition_ofKey (hkey : checkKey s key = .ok ()) :
    checkPartition (ofKey key) = .ok () := by
  have haccepted := (checkKey_eq_ok_iff.1 hkey).1
  rw [checkPartition, key?_ofKey]
  exact if_pos (FieldType.isKeyType_of_acceptsKey haccepted).2

/-- The condition of a key selects the rows with that key. -/
theorem selects_ofKey (hkey : checkKey s key = .ok ()) (hrow : s.keyOf row = .ok k) :
    (ofKey key).selects s row = hasKey s key row := by
  obtain ⟨hpartition, hsort⟩ := Schema.keyOf_eq_ok_iff.1 hrow
  have hshape := (checkKey_eq_ok_iff.1 hkey).2
  have hhas : hasKey s key row = k.same key := by rw [hasKey, hrow]
  rw [hhas, Key.same, selects, key?_ofKey, Option.all_some, KeyCondition.selects_eq, hpartition]
  cases hf : s.sortKey with
  | none =>
    rw [hf] at hsort hshape
    cases hw : key.sort with
    | none => simp only [hsort, Option.map_none, CompareOp.holds]
    | some w => simp [hw] at hshape
  | some f =>
    rw [hf] at hsort hshape
    obtain ⟨v, hv, hk⟩ := hsort
    cases hw : key.sort with
    | none => simp [hw] at hshape
    | some w => simp only [hk, hv, Option.map_some, CompareOp.holds]

end Query.Condition

/-! ## The rows with a key -/

namespace Store

variable {s : Schema} {key : Key} {rows : List Item} {o : MemoryOptions} {m : Memory}
  {t : Table Memory}

/-- At most one row has a key: the one that is found. -/
theorem CheckedRows.filter_hasKey (h : CheckedRows s rows) (key : Key) :
    rows.filter (hasKey s key) = (findRow s key rows).toList := by
  induction rows with
  | nil => rfl
  | cons r rest ih =>
    have hrest := ih (h.sublist (List.sublist_cons_self r rest))
    rw [findRow] at hrest ⊢
    rw [List.filter_cons, List.find?_cons]
    cases hr : hasKey s key r with
    | false => exact hrest
    | true =>
      -- A second row with the key would be one whose own key `r` has.
      have hnone : rest.filter (hasKey s key) = [] := by
        refine List.filter_eq_nil_iff.2 fun x hx hhas => ?_
        obtain ⟨k, hk⟩ := h.checked x (.tail _ hx)
        have hkOf := (itemKey_eq_ok_iff.1 hk).1
        have hid := ((hasKey_iff_id hkOf).1 hhas).2
        have hnot := (List.pairwise_cons.1 h.apart).1 x hx k hkOf
        rw [hasKey_of_id hid, hr] at hnot
        cases hnot
      rw [if_pos rfl, hnone]
      rfl

/-- What the condition of a key selects is the row that is found. -/
theorem CheckedRows.candidates_ofKey (h : CheckedRows s rows) (hkey : checkKey s key = .ok ()) :
    candidates s (.ofKey key) rows = (findRow s key rows).toList := by
  have hselects : rows.filter ((Condition.ofKey key).selects s) = rows.filter (hasKey s key) := by
    refine List.filter_congr fun r hr => ?_
    obtain ⟨k, hk⟩ := h.checked r hr
    exact Condition.selects_ofKey hkey (itemKey_eq_ok_iff.1 hk).1
  rw [candidates, hselects, h.filter_hasKey key]
  cases findRow s key rows <;> rfl

/-- A page that starts at the first of at most one row is the last one. -/
theorem pageAt_toList (hpage : o.pageSize < 1 <<< 64) (s : Schema) (key : Key)
    (row? : Option Item) :
    pageAt o s (.ofKey key) row?.toList 0 = .ok ⟨row?.toList, none⟩ := by
  have hpos := o.pageSize_pos
  have hend : min (0 + o.pageSize) row?.toList.length = row?.toList.length := by
    have hle : row?.toList.length ≤ 1 := by cases row? <;> simp
    omega
  have hpasses : row?.toList.filter (Condition.ofKey key).passes = row?.toList :=
    List.filter_eq_self.2 fun r _ => Condition.passes_ofKey key r
  rw [pageAt, pageEnd_of_fits _ (by rwa [Nat.zero_add]), hend]
  show pageBetween s (.ofKey key) row?.toList 0 row?.toList.length = _
  rw [pageBetween, examined, Nat.zero_min, List.drop_zero, List.take_length]
  simp only [Nat.lt_irrefl, if_false, hpasses]
  cases row? <;> rfl

/-- The first page of a key's condition has the row that is got, and is the last one. -/
theorem outcome_fetchPage_ofKey (h : CheckedRows s (m.rowsOf s.table))
    (hkey : checkKey s key = .ok ()) (hpage : o.pageSize < 1 <<< 64) :
    outcome (fetchPage o s (.ofKey key) none) m =
      (((outcome (getItem o s key) m).1.map Option.toList).map fun items => ⟨items, none⟩,
        (outcome (getItem o s key) m).2) := by
  rw [outcome_fetchPage_eq, outcome_getItem_eq o hkey, Condition.checkPartition_ofKey hkey]
  rcases hrows : outcome (Memory.rows o .read s.table) m with ⟨_ | rows, m'⟩
  · rfl
  · obtain rfl := eq_rowsOf_of_outcome_rows hrows
    simp only [offsetAfter, h.candidates_ofKey hkey, pageAt_toList hpage]
    rfl

theorem get_of_backend (h : (backend o).table s = .ok t) : t.get = getItem o s :=
  congrArg Table.get (table_of_backend h)

/-- Draining the condition of a key gives the row that is got, if there is one. -/
theorem drain_ofKey (h : CheckedRows s (m.rowsOf s.table)) (htable : (backend o).table s = .ok t)
    (hkey : checkKey s key = .ok ()) (hpage : o.pageSize < 1 <<< 64) {limit : Nat}
    (hlimit : 2 ≤ limit) :
    outcome (Cursor.runNew (.ofKey key) (Cursor.drain t limit)) m =
      ((outcome (t.get key) m).1.map Option.toList, (outcome (t.get key) m).2) := by
  refine Cursor.outcome_runNew_drain ?_ hlimit
  rw [fetch_of_backend htable, get_of_backend htable]
  exact outcome_fetchPage_ofKey h hkey hpage

end Store

/-! ## Query texts -/

namespace Query

/-- A name that a query text can have for a field. -/
structure IsFieldName (name : String) : Prop where
  isName : IsName name
  not_isKeyword : ¬IsKeyword name

/-- The query texts that ask for a key, with its values: a text that says nothing about its one
value, or an equality with each of the key fields. -/
inductive KeyQuery (s : Schema) : Key → String → Bindings → Prop where
  | shorthand {text : String} (v : Value) (htext : Condition.isShorthand text 1 = true) :
    KeyQuery s ⟨v, none⟩ text (.positional [v])
  | partition (v : Value) (hname : IsFieldName s.partitionKey.name) :
    KeyQuery s ⟨v, none⟩ (s.partitionKey.name ++ " = ?1") (.positional [v])
  | sort {f : Field} (v w : Value) (hsort : s.sortKey = some f)
    (hname : IsFieldName s.partitionKey.name) (hsortName : IsFieldName f.name) :
    KeyQuery s ⟨v, some w⟩ (s.partitionKey.name ++ " = ?1 AND " ++ f.name ++ " = ?2")
      (.positional [v, w])

variable {s : Schema} {f : Field} {key : Key} {text : String} {bindings : Bindings}

/-- A field is equal to the parameter at a place. -/
def equality (name : String) (i : Nat) : Comparison := ⟨name, .eq, .placeholder (.positional i)⟩

theorem display_equality (name : String) (i : Nat) :
    (equality name i).display = name ++ (" = ?" ++ toString i) := by
  simp only [equality, Comparison.display, Operand.display, Placeholder.display,
    String.append_assoc]
  rfl

theorem writable_equality {name : String} (hname : IsFieldName name) {i : Nat}
    (hi : 1 ≤ i ∧ i < 1 <<< 64) : (equality name i).Writable :=
  ⟨hname.isName, hname.not_isKeyword, .positional hi⟩

/-- The query for a partition value. -/
theorem parse_partition {name : String} (hname : IsFieldName name) :
    parse (name ++ " = ?1") = .ok (.compare (equality name 1)) := by
  have hwritable := writable_equality hname (i := 1) (by decide)
  have htext : (Predicate.compare (equality name 1)).display = name ++ " = ?1" := by
    rw [Predicate.display, display_equality]
    rfl
  rw [← htext]
  exact parse_of_printed
    ((Predicate.Flat.compare _).printed (List.forall_mem_singleton.2 hwritable))

/-- The query for both values of a key. -/
theorem parse_sort {name name' : String} (hname : IsFieldName name) (hname' : IsFieldName name') :
    parse (name ++ " = ?1 AND " ++ name' ++ " = ?2") =
      .ok (.and [.compare (equality name 1), .compare (equality name' 2)]) := by
  have hwritable := writable_equality hname (i := 1) (by decide)
  have hwritable' := writable_equality hname' (i := 2) (by decide)
  have hflat : (Predicate.Joint.and.group
      [.compare (equality name 1), .compare (equality name' 2)]).Flat :=
    .group .and (Nat.le_refl 2) (by simp [Predicate.joint?])
      (by simpa using ⟨.compare _, .compare _⟩)
  have htext : (Predicate.and [.compare (equality name 1), .compare (equality name' 2)]).display =
      name ++ " = ?1 AND " ++ name' ++ " = ?2" := by
    rw [Predicate.display]
    simp only [Predicate.displayParts, display_equality, String.intercalate_cons_cons,
      String.intercalate_singleton, String.append_assoc]
    rfl
  rw [← htext]
  exact parse_of_printed (hflat.printed
    (List.forall_mem_cons.2 ⟨hwritable, List.forall_mem_singleton.2 hwritable'⟩))

namespace Condition

/-- A conjunction that is split becomes what it is split into. -/
theorem ofPredicate_of_keyed? {parts : List Predicate} {c : Condition}
    (hparts : ∀ d ∈ (Predicate.and parts).comparisons,
      s.hasField d.field = true ∧ d.operand.literal?.isSome = true)
    (hkeyed : keyed? s parts = some c) : ofPredicate s (.and parts) = .ok c := by
  obtain ⟨c', hc⟩ := exists_ofPredicate_iff.2 hparts
  rcases ofPredicate_cases hc with ⟨_, hp, -⟩ | ⟨parts', hp, hkeyed'⟩ | ⟨hnone, -⟩
  · cases hp
  · obtain rfl := Predicate.and.inj hp
    rw [hc, Option.some.inj (hkeyed'.symm.trans hkeyed)]
  · rw [hnone parts rfl] at hkeyed
    cases hkeyed

/-- An equality with each of the key fields becomes the condition of the key. -/
theorem ofPredicate_key (hsort : s.sortKey = some f) (v w : Value) :
    ofPredicate s (.and [.compare ⟨s.partitionKey.name, .eq, .literal v⟩,
      .compare ⟨f.name, .eq, .literal w⟩]) = .ok (ofKey ⟨v, some w⟩) := by
  have hpartition : s.hasField s.partitionKey.name = true :=
    Schema.hasField_iff.2 (List.mem_map_of_mem s.partition_mem)
  have hfield : s.hasField f.name = true :=
    Schema.hasField_iff.2 (List.mem_map_of_mem (s.sort_mem f hsort))
  have hne := s.sort_ne f hsort
  refine ofPredicate_of_keyed? ?_ ?_
  · simp only [Predicate.comparisons, Predicate.comparisonsOf]
    exact List.forall_mem_cons.2 ⟨⟨hpartition, rfl⟩, List.forall_mem_singleton.2 ⟨hfield, rfl⟩⟩
  · simp [keyed?, comparisonOn, sortConditionOf, hsort, hne, Ne.symm hne,
      CompareOp.isKeyConditionOp, ofKey]

/-- A query for a key has the condition of that key. -/
theorem ofQuery_of_keyQuery (h : KeyQuery s key text bindings) :
    ofQuery s text bindings = .ok (ofKey key) := by
  cases h with
  | shorthand v htext =>
    rw [ofQuery, if_pos htext]
    rfl
  | partition v hname =>
    rw [ofQuery]
    split
    · rfl
    · rw [ofText_eq, bindText, parse_partition hname]
      exact ofPredicate_partition s v
  | sort v w hsort hname hsortName =>
    show ofText s _ _ = _
    rw [ofText_eq, bindText, parse_sort hname hsortName]
    exact ofPredicate_key hsort v w

end Condition

end Query

/-! ## Lookups -/

/-- A search for one element and a listing agree: one is found if it is all that is listed, nothing
is found if nothing is listed, and both fail with one error. -/
structure Agree {α : Type} (found : Except Error (Option α)) (listed : Except Error (List α)) :
    Prop where
  some (a : α) : found = .ok (some a) ↔ listed = .ok [a]
  none : found = .ok none ↔ listed = .ok []
  error (e : Error) : found = .error e ↔ listed = .error e

/-- What is found and what is listed agree when the list has it or is empty. -/
theorem agree_toList {α : Type} (found : Except Error (Option α)) :
    Agree found (found.map Option.toList) := by
  refine ⟨fun a => ?_, ?_, fun e => ?_⟩ <;> rcases found with _ | _ | _ <;> simp [Except.map]

theorem mapM_toList {α β : Type} (f : α → Except Error β) (a? : Option α) :
    a?.toList.mapM f = (a?.mapM f).map Option.toList := by
  cases a? with
  | none => rfl
  | some a =>
    rw [Option.toList_some, List.mapM_cons, Option.mapM_some]
    cases f a <;> rfl

namespace Repository

variable {α : Type} {e : Entity α} {s : Schema} {registry registry' : Registry} {o : MemoryOptions}
  {t : Table Memory} {key : Key} {text : String} {bindings : Bindings} {m : Memory} {limit : Nat}

/-- A query for a key lists the entity that is found under it, if there is one. -/
theorem outcome_list_of_keyQuery (hschema : registry.schema e = (.ok s, registry'))
    (htable : (Memory.backend o).table s = .ok t) (h : CheckedRows s (m.rowsOf s.table))
    (hkey : checkKey s key = .ok ()) (hpage : o.pageSize < 1 <<< 64) (hlimit : 2 ≤ limit)
    (hquery : KeyQuery s key text bindings) :
    (outcome (list (Memory.backend o) e text bindings limit) ⟨registry, m⟩).1 =
      (outcome (findByKey (Memory.backend o) e key) ⟨registry, m⟩).1.map Option.toList := by
  rw [outcome_list hschema htable (Condition.ofQuery_of_keyQuery hquery),
    drain_ofKey h htable hkey hpage hlimit, outcome_findByKey hschema htable, outcome_getEntity]
  rcases outcome (t.get key) m with ⟨_ | row?, m'⟩
  · rfl
  · exact mapM_toList _ row?

/-- Without a sort key, finding by the partition value is finding by the key. -/
theorem findById_eq (hschema : registry.schema e = (.ok s, registry'))
    (htable : (Memory.backend o).table s = .ok t) (hkey : checkKey s key = .ok ())
    (hsort : s.sortKey = none) :
    outcome (findById (Memory.backend o) e key.partition) ⟨registry, m⟩ =
      outcome (findByKey (Memory.backend o) e key) ⟨registry, m⟩ := by
  obtain ⟨haccepted, hshape⟩ := checkKey_eq_ok_iff.1 hkey
  have hkind := (FieldType.isKeyType_of_acceptsKey haccepted).2
  obtain ⟨v, _ | w⟩ := key
  · have hnone : t.schema.sortKey = none := by
      rw [table_of_backend htable, hsort]
    rw [findById, if_neg (by simp [hkind]), outcome_onTable hschema htable,
      outcome_findByKey hschema htable]
    simp only [hnone]
  · rw [hsort] at hshape
    cases hshape

/-- Looking up one key and querying for it agree. Whatever calls were made on a table by handles
that share its key fields, whatever word the page size is, and for every key of the declared types,
the table gives the row that draining the key's condition gives, and nothing or an error just if
draining does. The queries for the key have that condition, so they agree with finding the entity by
its key, and by its partition value where that is all of the key. -/
theorem lookups_agree {uses : List Use} {session : Session Memory}
    (hkeys : ∀ u ∈ uses, u.schema.table = s.table → u.schema.SameKeys s)
    (hstore : session.store = Memory.after {} uses)
    (hschema : session.registry.schema e = (.ok s, registry'))
    (htable : (Memory.backend o).table s = .ok t) (hpage : o.pageSize < 1 <<< 64)
    (hkey : checkKey s key = .ok ()) (hlimit : 2 ≤ limit) :
    Agree (outcome (t.get key) session.store).1
        (outcome (Cursor.runNew (.ofKey key) (Cursor.drain t limit)) session.store).1 ∧
      (Readable o session.store s.table →
        ∃ row?, (outcome (t.get key) session.store).1 = .ok row?) ∧
      (s.sortKey = none → outcome (findById (Memory.backend o) e key.partition) session =
        outcome (findByKey (Memory.backend o) e key) session) ∧
      ∀ text bindings, KeyQuery s key text bindings →
        Condition.ofQuery s text bindings = .ok (.ofKey key) ∧
          Agree (outcome (findByKey (Memory.backend o) e key) session).1
            (outcome (list (Memory.backend o) e text bindings limit) session).1 := by
  obtain ⟨registry, store⟩ := session
  obtain rfl : store = Memory.after {} uses := hstore
  have hrows : CheckedRows s ((Memory.after {} uses).rowsOf s.table) :=
    checkedRows_after hkeys ⟨nofun, .nil⟩
  refine ⟨?_, fun hreadable => ?_, findById_eq hschema htable hkey, fun text bindings hquery =>
    ⟨Condition.ofQuery_of_keyQuery hquery, ?_⟩⟩
  · rw [drain_ofKey hrows htable hkey hpage hlimit]
    exact agree_toList _
  · obtain ⟨m', hread, -, -⟩ := hreadable.outcome_rows .read
    rw [get_of_backend htable, outcome_getItem_eq o hkey, hread]
    exact ⟨_, rfl⟩
  · rw [outcome_list_of_keyQuery hschema htable hrows hkey hpage hlimit hquery]
    exact agree_toList _

end Repository

/-! ## A reading by its time -/

namespace Sample

open Repository

/-- A sensor and a time, in another text than the one that was written last. -/
def tenth : Key := ⟨.text "s1", some (.number "10.0")⟩

/-- The reading that was written last at that time is found by the key and listed by a query. -/
theorem lookups_agree_tenth :
    (∀ u ∈ written, u.schema.table = readings.table → u.schema.SameKeys readings) ∧
      checkKey readings tenth = .ok () ∧
      KeyQuery readings tenth "sensor = ?1 AND ts = ?2"
        (.positional [.text "s1", .number "10.0"]) ∧
      ∃ a, reading.ofItem (measured "s1" "010" "2") = .ok a ∧
        (outcome (list (Memory.backend (.withPageSize {} 1)) reading "sensor = ?1 AND ts = ?2"
          (.positional [.text "s1", .number "10.0"]) 2) ⟨{}, Memory.after {} written⟩).1 =
            .ok [a] := by
  have hkeys : ∀ u ∈ written, u.schema.table = readings.table → u.schema.SameKeys readings :=
    fun u hu => (orderly_written u hu).sameKeys
  have hsensor : IsFieldName "sensor" := ⟨.of_toList rfl (by decide) (by decide), by decide⟩
  have hts : IsFieldName "ts" := ⟨.of_toList rfl (by decide) (by decide), by decide⟩
  have hquery : KeyQuery readings tenth "sensor = ?1 AND ts = ?2"
      (.positional [.text "s1", .number "10.0"]) := by
    have htext : "sensor" ++ " = ?1 AND " ++ "ts" ++ " = ?2" = "sensor = ?1 AND ts = ?2" := by
      decide
    rw [← htext]
    exact .sort (f := ⟨"ts", .number⟩) (.text "s1") (.number "10.0") rfl hsensor hts
  obtain ⟨registry, hschema⟩ : ∃ registry, ({} : Registry).schema reading =
      (.ok readings, registry) := ⟨_, rfl⟩
  obtain ⟨t, htable⟩ : ∃ t, (Memory.backend (.withPageSize {} 1)).table readings = .ok t :=
    ⟨_, rfl⟩
  obtain ⟨m, hgot⟩ : ∃ m, outcome (getItem (.withPageSize {} 1) readings tenth)
      (Memory.after {} written) = (.ok (some (measured "s1" "010" "2")), m) :=
    ⟨_, Prod.ext (by decide +kernel) rfl⟩
  obtain ⟨a, ha⟩ : ∃ a, reading.ofItem (measured "s1" "010" "2") = .ok a := ⟨_, rfl⟩
  have hfound : (outcome (findByKey (Memory.backend (.withPageSize {} 1)) reading tenth)
      ⟨{}, Memory.after {} written⟩).1 = .ok (some a) := by
    rw [outcome_findByKey hschema htable, outcome_getEntity, get_of_backend htable,
      hgot]
    simp only [Option.mapM_some, ha]
    rfl
  have hstore : (Session.mk {} (Memory.after {} written)).store = Memory.after {} written := rfl
  have hkey : checkKey readings tenth = .ok () := by decide +kernel
  obtain ⟨-, -, -, hlists⟩ :=
    lookups_agree hkeys hstore hschema htable (by decide) hkey (Nat.le_refl 2)
  exact ⟨hkeys, hkey, hquery, a, ha, ((hlists _ _ hquery).2.some a).1 hfound⟩

end Sample

end ItemStore
