import ItemStore.Proofs.UpdatedRows
import ItemStore.Proofs.Unranked

/-!
# A store in memory is a map

The rows of a table stand for a map from keys to attributes, in which two number texts of one number
are one key (`contents`). The store is run beside a store of such maps, on which every call does
what it is meant to do and nothing else (`Call.effect`). Main statement: as long as calls are
accepted, the tables stand for the maps, no two rows have one key, what is got is what the map has,
and a call leaves all other tables and rows alone (`Memory.acts_as_maps`).
-/

namespace ItemStore

/-! ## What a key says -/

/-- A key value, where of a number only its place counts. -/
inductive KeyPart where
  | number (place : Option Int)
  | plain (v : Value)
  deriving DecidableEq

/-- What a key says. -/
structure KeyId where
  partition : KeyPart
  sort : Option KeyPart
  deriving DecidableEq

/-- What a value says in a key: numbers say their place, whatever their texts. -/
def Value.part : Value → KeyPart
  | .number digits => .number (numberRank? digits)
  | v => .plain v

/-- What a key says, which tells the keys of different rows apart. -/
def Key.id (key : Key) : KeyId := ⟨key.partition.part, key.sort.map Value.part⟩

/-- Values are the same if they say the same in a key, when those that are numbers say one. -/
theorem Value.same_iff_part {v : Value} (hv : ∀ digits ∈ v.number?, SaysNumber digits) (w : Value) :
    v.same w = true ↔ v.part = w.part := by
  cases v with
  | number a =>
    obtain ⟨m, hm⟩ := Option.isSome_iff_exists.1 (hv a rfl)
    cases w with
    | number b => cases hb : numberRank? b <;> simp [same, compare?, part, hm, hb]
    | _ => simp [same, part]
  | _ => cases w <;> simp [same, part]

/-- A key whose number texts say numbers is the same as another if they say the same. -/
theorem Key.same_iff_id {j : Key} (hj : j.Ranked) (k : Key) : j.same k = true ↔ j.id = k.id := by
  have hpartition : ∀ digits ∈ j.partition.number?, SaysNumber digits := by
    intro digits hd
    exact hj digits (List.mem_filterMap.2 ⟨j.partition, List.mem_cons_self, hd⟩)
  have hsort : ∀ v ∈ j.sort, ∀ digits ∈ v.number?, SaysNumber digits := by
    intro v hv digits hd
    exact hj digits (List.mem_filterMap.2 ⟨v, by simp [Option.mem_def.1 hv], hd⟩)
  rw [same, id, id, Bool.and_eq_true, Value.same_iff_part hpartition, KeyId.mk.injEq]
  refine and_congr_right fun _ => ?_
  cases hv : j.sort with
  | none => cases k.sort <;> simp
  | some v =>
    cases k.sort with
    | none => simp
    | some w => simpa using Value.same_iff_part (hsort v hv) w

/-- What the key of an item says, if it has one. -/
def Schema.idOf? (s : Schema) (item : Item) : Option KeyId :=
  (s.keyOf item).toOption.map Key.id

/-- An item with a key is found under what the key says. -/
theorem Schema.idOf?_of_keyOf {s : Schema} {item : Item} {key : Key} (h : s.keyOf item = .ok key) :
    s.idOf? item = some key.id := by
  rw [idOf?, h]
  rfl

/-- Schemas with the same keys find an item in the same place. -/
theorem Schema.SameKeys.idOf?_eq {s s' : Schema} (h : s.SameKeys s') (item : Item) :
    s.idOf? item = s'.idOf? item := by
  cases hkey : s.keyOf item with
  | ok key => rw [idOf?_of_keyOf hkey, idOf?_of_keyOf (h.keyOf_iff.1 hkey)]
  | error e =>
    cases hkey' : s'.keyOf item with
    | ok key =>
      rw [h.keyOf_iff.2 hkey'] at hkey
      exact nomatch hkey
    | error e' => simp [idOf?, hkey, hkey', Except.toOption]

namespace Store

open Memory Step

/-! ## Maps -/

/-- Attributes by what a key says. -/
abbrev Contents := KeyId → Option Attributes

namespace Contents

/-- The map with another row, or no row, for a key. -/
def set (c : Contents) (id : KeyId) (row : Option Attributes) : Contents :=
  fun i => if i = id then row else c i

/-- The map with an item under its key. -/
def put (s : Schema) (c : Contents) (item : Item) : Contents :=
  match s.idOf? item with
  | some id => c.set id (some item.get?)
  | none => c

variable {s : Schema} {item : Item} {id : KeyId} {c : Contents}

theorem put_of_idOf? (h : s.idOf? item = some id) : c.put s item = c.set id (some item.get?) := by
  rw [put, h]

theorem put_of_none (h : s.idOf? item = none) : c.put s item = c := by
  rw [put, h]

end Contents

namespace Call

/-- What the call is meant to do. -/
def effect (s : Schema) (call : Call) (c : Contents) : Contents :=
  match call with
  | put item => c.put s item
  | update item => match s.idOf? item with
    | some id => c.set id (some (s.updated item.get? (c id)))
    | none => c
  | delete key => c.set key.id none
  | putBatch items => items.foldl (Contents.put s) c
  | get _ | fetch _ _ | create => c

/-- The keys of the rows that the call writes or deletes. -/
def ids (s : Schema) : Call → List KeyId
  | put item | update item => (s.idOf? item).toList
  | delete key => [key.id]
  | putBatch items => items.filterMap s.idOf?
  | get _ | fetch _ _ | create => []

/-- Putting items under other keys leaves what is under a key. -/
theorem foldl_put_of_not_mem {s : Schema} {id : KeyId} :
    ∀ {items : List Item} (c : Contents), id ∉ items.filterMap s.idOf? →
      items.foldl (Contents.put s) c id = c id
  | [], _, _ => rfl
  | item :: items, c, h => by
    rw [List.foldl_cons]
    cases hid : s.idOf? item with
    | none =>
      rw [List.filterMap_cons_none hid] at h
      rw [Contents.put_of_none hid, foldl_put_of_not_mem c h]
    | some i =>
      rw [List.filterMap_cons_some hid, List.mem_cons, not_or] at h
      rw [Contents.put_of_idOf? hid, foldl_put_of_not_mem _ h.2, Contents.set, if_neg h.1]

/-- A call is not meant to do anything to other rows. -/
theorem effect_of_not_mem {s : Schema} {call : Call} {id : KeyId} (h : id ∉ call.ids s)
    (c : Contents) : call.effect s c id = c id := by
  cases call with
  | put item =>
    cases hid : s.idOf? item with
    | none => rw [effect, Contents.put_of_none hid]
    | some i =>
      have hne : id ≠ i := by simpa [ids, hid] using h
      rw [effect, Contents.put_of_idOf? hid, Contents.set, if_neg hne]
  | update item =>
    cases hid : s.idOf? item with
    | none => simp [effect, hid]
    | some i =>
      have hne : id ≠ i := by simpa [ids, hid] using h
      simp [effect, hid, Contents.set, hne]
  | delete key =>
    have hne : id ≠ key.id := by simpa [ids] using h
    simp [effect, Contents.set, hne]
  | putBatch items => exact foldl_put_of_not_mem c h
  | get | fetch | create => rfl

end Call

/-! ## Rows as a map -/

variable {s s' : Schema} {rows : List Item} {row : Item} {key : Key} {id : KeyId}

/-- The map that rows stand for. -/
def contents (s : Schema) (rows : List Item) : Contents :=
  fun id => (rows.find? fun row => s.idOf? row == some id).map Dict.get?

/-- Schemas with the same keys see the same contents. -/
theorem contents_of_sameKeys (h : s.SameKeys s') (rows : List Item) :
    contents s rows = contents s' rows := by
  funext id
  simp only [contents, h.idOf?_eq]

/-- A row has a key if it says the same. -/
theorem hasKey_eq (hrow : PlacedRow s row) (key : Key) :
    hasKey s key row = (s.idOf? row == some key.id) := by
  obtain ⟨k, hk, placed⟩ := hrow
  rw [hasKey, hk, Schema.idOf?_of_keyOf hk, Bool.eq_iff_iff, Key.same_iff_id placed.ranked]
  simp

/-- The row that is found is what the contents have under the key. -/
theorem map_findRow (hrows : ∀ r ∈ rows, PlacedRow s r) (key : Key) :
    (findRow s key rows).map Dict.get? = contents s rows key.id := by
  unfold findRow contents
  congr 1
  induction rows with
  | nil => rfl
  | cons r rest ih =>
    obtain ⟨hr, hrest⟩ := List.forall_mem_cons.1 hrows
    rw [List.find?_cons, List.find?_cons, hasKey_eq hr, ih hrest]

/-- The first row with a key is the one that counts. -/
theorem contents_cons (s : Schema) (row : Item) (rows : List Item) (id : KeyId) :
    contents s (row :: rows) id =
      if s.idOf? row = some id then some row.get? else contents s rows id := by
  by_cases h : s.idOf? row = some id <;> simp [contents, h]

/-- Storing a row sets what is under its key. -/
theorem contents_storeRow (hrows : ∀ r ∈ rows, PlacedRow s r) (hid : s.idOf? row = some key.id) :
    contents s (storeRow s key row rows) = (contents s rows).set key.id (some row.get?) := by
  funext id
  induction rows with
  | nil => simp [storeRow, contents_cons, hid, Contents.set, eq_comm]
  | cons r rest ih =>
    obtain ⟨hr, hrest⟩ := List.forall_mem_cons.1 hrows
    rw [storeRow, hasKey_eq hr]
    by_cases hsame : s.idOf? r = some key.id
    · by_cases hi : id = key.id
      · simp [hsame, contents_cons, hid, Contents.set, hi]
      · simp [hsame, contents_cons, hid, Contents.set, hi, Ne.symm hi]
    · rw [if_neg (by simpa using hsame), contents_cons, ih hrest]
      by_cases hi : id = key.id
      · simp [hsame, Contents.set, hi]
      · simp [contents_cons, Contents.set, hi]

/-- No two rows have one key. -/
def Distinct (s : Schema) (rows : List Item) : Prop :=
  rows.Pairwise fun a b => s.idOf? a ≠ s.idOf? b

theorem KeyedRows.distinct (h : KeyedRows s rows) : Distinct s rows := by
  refine h.apart.imp_of_mem fun {a b} ha hb hab => ?_
  obtain ⟨j, hj, pj⟩ := h.placed a ha
  obtain ⟨k, hk, pk⟩ := h.placed b hb
  rw [apart_iff hj hk, ne_eq, ← pj.same_iff pk, Key.same_iff_id pj.ranked] at hab
  rw [Schema.idOf?_of_keyOf hj, Schema.idOf?_of_keyOf hk]
  exact fun heq => hab (Option.some.inj heq)

/-- A row is in a table if the map has its attributes. -/
theorem mem_iff_contents (h : Distinct s rows) (hid : s.idOf? row = some id) :
    row ∈ rows ↔ contents s rows id = some row.get? := by
  induction rows with
  | nil => simp [contents]
  | cons r rest ih =>
    obtain ⟨hr, hrest⟩ := List.pairwise_cons.1 h
    rw [contents_cons, List.mem_cons, ih hrest]
    by_cases hsame : s.idOf? r = some id
    · rw [if_pos hsame, ← ih hrest]
      constructor
      · rintro (rfl | hmem)
        · rfl
        · exact absurd (hsame.trans hid.symm) (hr row hmem)
      · intro heq
        refine .inl (Dict.ext_get? fun name => ?_)
        rw [← Option.some.inj heq]
    · have hne : row ≠ r := by
        rintro rfl
        exact hsame hid
      simp [hsame, hne]

/-- Removing a row leaves nothing under its key. -/
theorem contents_removeRow (h : KeyedRows s rows) (key : Key) :
    contents s (removeRow s key rows) = (contents s rows).set key.id none := by
  have hdistinct := h.distinct
  have hrows := h.placed
  clear h
  funext id
  unfold removeRow
  induction rows with
  | nil => simp [contents, Contents.set]
  | cons r rest ih =>
    obtain ⟨hr, hrest⟩ := List.forall_mem_cons.1 hrows
    obtain ⟨hapart, hdistinct⟩ := List.pairwise_cons.1 hdistinct
    have hkey := hasKey_eq hr key
    by_cases hsame : s.idOf? r = some key.id
    · rw [List.eraseP_cons_of_pos (by simpa [hkey] using hsame), Contents.set, contents_cons]
      by_cases hi : id = key.id
      · -- No row after the one that is removed has its key.
        rw [if_pos hi, hi, contents, Option.map_eq_none_iff, List.find?_eq_none]
        intro x hx hxid
        exact hapart x hx (hsame.trans (eq_of_beq hxid).symm)
      · rw [if_neg hi, if_neg]
        rw [hsame, Option.some.injEq]
        exact Ne.symm hi
    · rw [List.eraseP_cons_of_neg (by simpa [hkey] using hsame), contents_cons,
        ih hdistinct hrest]
      by_cases hi : id = key.id
      · simp [Contents.set, hi, hsame]
      · simp [Contents.set, hi, contents_cons]

/-- Storing rows one after the other puts them one after the other. -/
theorem contents_storeRows (h : KeyedRows s rows) {entries : List (Key × Item)}
    (hentries : ∀ e ∈ entries, s.keyOf e.2 = .ok e.1 ∧ Placed s e.1) :
    contents s (storeRows s entries rows) =
      (entries.map Prod.snd).foldl (Contents.put s) (contents s rows) := by
  induction entries generalizing rows with
  | nil => rfl
  | cons e entries ih =>
    obtain ⟨⟨hkey, placed⟩, hrest⟩ := List.forall_mem_cons.1 hentries
    have hid := Schema.idOf?_of_keyOf hkey
    have hfirst : KeyedRows s (storeRow s e.1 e.2 rows) :=
      h.storeRow placed hkey placed (compareKeys_self e.1)
    rw [storeRows, List.foldl_cons, List.map_cons, List.foldl_cons, Contents.put_of_idOf? hid,
      ← contents_storeRow h.placed hid]
    exact ih hfirst hrest

/-- Updating a row sets what is under its key to the updated attributes. -/
theorem contents_updatedRow (h : KeyedRows s rows) {item : Item} (hkey : s.keyOf item = .ok key) :
    contents s (storeRow s key (updatedRow s key item (findRow s key rows)) rows) =
      (contents s rows).set key.id (some (s.updated item.get? (contents s rows key.id))) := by
  have hid : s.idOf? (updatedRow s key item (findRow s key rows)) = some key.id := by
    cases hfind : findRow s key rows with
    | none => exact Schema.idOf?_of_keyOf (keyOf_updatedRow_none hkey)
    | some stored =>
      have hmem := List.mem_of_find?_eq_some hfind
      have hsame := List.find?_some hfind
      rw [hasKey_eq (h.placed stored hmem), beq_iff_eq] at hsame
      obtain ⟨k, hk, -⟩ := h.placed stored hmem
      rw [Schema.idOf?_of_keyOf (keyOf_updatedRow_some hk key), ← hsame,
        Schema.idOf?_of_keyOf hk]
  rw [contents_storeRow h.placed hid, get?_updatedRow_eq hkey, map_findRow h.placed]

/-! ## Accepted calls -/

variable {o : MemoryOptions} {m : Memory} {item : Item}

/-- A step that went well passed its check. -/
theorem outcome_of_checked {α β : Type} {access : Access} {r : Except StoreFault α}
    {f : α → Step Memory β} {b : β} (h : (outcome (checked access r >>= f) m).1 = .ok b) :
    ∃ a, r = .ok a ∧ outcome (checked access r >>= f) m = outcome (f a) m := by
  rw [outcome_checked_bind] at h ⊢
  cases r with
  | ok a => exact ⟨a, rfl, rfl⟩
  | error fault => exact nomatch h

/-- A step that went well could read the rows. -/
theorem outcome_of_rows {β : Type} {access : Access} {table : String}
    {f : List Item → Step Memory β} {b : β}
    (h : (outcome (Memory.rows o access table >>= f) m).1 = .ok b) :
    ∃ m', outcome (Memory.rows o access table >>= f) m = outcome (f (m.rowsOf table)) m' := by
  rw [outcome_bind] at h ⊢
  rcases hrows : outcome (Memory.rows o access table) m with ⟨e | rows, m'⟩
  · simp [hrows] at h
  · rw [eq_rowsOf_of_outcome_rows hrows]
    exact ⟨m', rfl⟩

/-- A check, and then a change of the rows. -/
def changeRows {α : Type} (o : MemoryOptions) (r : Except StoreFault α) (table : String)
    (change : α → List Item → List Item) : Step Memory Unit := do
  let a ← checked .write r
  setRows table (change a (← Memory.rows o .write table))

/-- A change that is accepted was made to the rows of its table. -/
theorem changeRows_accepted {α : Type} {r : Except StoreFault α} {table : String}
    {change : α → List Item → List Item}
    (h : (outcome (changeRows o r table change) m).1 = .ok ()) :
    ∃ a, r = .ok a ∧
      (outcome (changeRows o r table change) m).2.rowsOf table = change a (m.rowsOf table) := by
  unfold changeRows at h ⊢
  obtain ⟨a, ha, hchecked⟩ := outcome_of_checked h
  rw [hchecked] at h ⊢
  obtain ⟨m', hread⟩ := outcome_of_rows h
  rw [hread]
  exact ⟨a, ha, rowsOf_insert _ _ _⟩

/-- A put that is accepted has stored its row. -/
theorem putItem_accepted (h : (outcome (putItem o s item) m).1 = .ok ()) :
    ∃ key, itemKey s item = .ok key ∧ (outcome (putItem o s item) m).2.rowsOf s.table =
      storeRow s key item (m.rowsOf s.table) :=
  changeRows_accepted h

/-- An update that is accepted has stored the updated row. -/
theorem updateItem_accepted (h : (outcome (updateItem o s item) m).1 = .ok ()) :
    ∃ key, itemKey s item = .ok key ∧ (outcome (updateItem o s item) m).2.rowsOf s.table =
      storeRow s key (updatedRow s key item (findRow s key (m.rowsOf s.table)))
        (m.rowsOf s.table) :=
  changeRows_accepted h

/-- A deletion that is accepted has removed the row. -/
theorem deleteItem_accepted (h : (outcome (deleteItem o s key) m).1 = .ok ()) :
    (outcome (deleteItem o s key) m).2.rowsOf s.table = removeRow s key (m.rowsOf s.table) := by
  obtain ⟨_, -, hrows⟩ := changeRows_accepted h
  exact hrows

/-- A lookup that is accepted gives the row that is found. -/
theorem getItem_accepted {found : Option Item}
    (h : (outcome (getItem o s key) m).1 = .ok found) :
    found = findRow s key (m.rowsOf s.table) := by
  unfold getItem at h
  obtain ⟨_, -, hchecked⟩ := outcome_of_checked h
  rw [hchecked] at h
  obtain ⟨m', hread⟩ := outcome_of_rows h
  rw [hread] at h
  exact (Except.ok.inj h).symm

/-- An accepted batch is put as a whole. -/
theorem putBatch_accepted {items : List Item} (h : (outcome (putBatch o s items) m).1 = .ok ()) :
    ((Call.putBatch items).puts o s).map Prod.snd = items ∧
      (outcome (putBatch o s items) m).2.rowsOf s.table =
        storeRows s ((Call.putBatch items).puts o s) (m.rowsOf s.table) := by
  unfold putBatch at h ⊢
  cases items with
  | nil => exact ⟨rfl, rfl⟩
  | cons item items =>
    simp only [List.isEmpty_cons, Bool.false_eq_true, if_false] at h ⊢
    by_cases hlimit : batchLimit < (item :: items).length
    · rw [if_pos hlimit] at h
      exact nomatch h
    · rw [if_neg hlimit] at h ⊢
      obtain ⟨keys, hkeys, hchecked⟩ := outcome_of_checked h
      have hlength := (mapM_eq_ok hkeys).length_eq
      rw [hchecked] at h ⊢
      simp only [outcome_bind (modify _), outcome_modify] at h ⊢
      obtain ⟨m', hread⟩ := outcome_of_rows h
      rw [hread] at h ⊢
      simp only [outcome_bind (setRows _ _), outcome_setRows] at h ⊢
      by_cases hcapacity : min (item :: items).length o.batchCapacity < (item :: items).length
      · rw [if_pos hcapacity] at h
        exact nomatch h
      · have hputs : (Call.putBatch (item :: items)).puts o s =
            (keys.zip (item :: items)).take (min (item :: items).length o.batchCapacity) := by
          simp only [Call.puts, if_neg hlimit, hkeys]
        -- Nothing was left over, so the whole batch fits the capacity.
        have hall : (keys.zip (item :: items)).length ≤
            min (item :: items).length o.batchCapacity := by
          rw [List.length_zip]
          omega
        rw [if_neg hcapacity, hputs]
        refine ⟨?_, rowsOf_insert _ _ _⟩
        rw [List.take_of_length_le hall, List.map_snd_zip (Nat.le_of_eq hlength.symm)]

/-- An accepted call does to its table what it is meant to do. -/
theorem contents_run {u : Use} (h : KeyedRows u.schema (m.rowsOf u.schema.table))
    (hnumbers : ∀ digits ∈ u.keyNumbers, SaysNumber digits)
    (haccepted : (outcome (u.call.step u.options u.schema) m).1 = .ok ()) :
    contents u.schema ((u.run m).rowsOf u.schema.table) =
      u.call.effect u.schema (contents u.schema (m.rowsOf u.schema.table)) := by
  have hputs : ∀ e ∈ u.call.puts u.options u.schema,
      u.schema.keyOf e.2 = .ok e.1 ∧ Placed u.schema e.1 :=
    fun e he => placed_of_keyNumbers hnumbers (.inl he)
  obtain ⟨o, s, call⟩ := u
  have hsame := rowsOf_run ⟨o, s, call⟩ m s.table
  cases call with
  | put item =>
    obtain ⟨key, hkey, hrows⟩ := putItem_accepted haccepted
    have hid := Schema.idOf?_of_keyOf (itemKey_eq_ok_iff.1 hkey).1
    show contents s (rowsOf (outcome (putItem o s item) m).2 s.table) = _
    rw [hrows, contents_storeRow h.placed hid, Call.effect, Contents.put_of_idOf? hid]
  | update item =>
    obtain ⟨key, hkey, hrows⟩ := updateItem_accepted haccepted
    have hkeyOf := (itemKey_eq_ok_iff.1 hkey).1
    show contents s (rowsOf (outcome (updateItem o s item) m).2 s.table) = _
    rw [hrows, contents_updatedRow h hkeyOf]
    simp only [Call.effect, Schema.idOf?_of_keyOf hkeyOf]
  | delete key =>
    show contents s (rowsOf (outcome (deleteItem o s key) m).2 s.table) = _
    rw [deleteItem_accepted haccepted, contents_removeRow h, Call.effect]
  | putBatch items =>
    obtain ⟨hitems, hrows⟩ := putBatch_accepted haccepted
    show contents s (rowsOf (outcome (putBatch o s items) m).2 s.table) = _
    rw [hrows, contents_storeRows h hputs, hitems, Call.effect]
  | get | fetch | create =>
    -- The table may come to be, without rows.
    rw [hsame.elim id And.right]
    rfl

/-! ## Runs -/

/-- A map for each table. -/
abbrev Maps := String → Contents

/-- The maps after a use, of which it changes one. -/
def Use.effect (u : Use) (maps : Maps) : Maps := fun table =>
  if table = u.schema.table then u.call.effect u.schema (maps table) else maps table

/-- The maps after some uses. -/
def Maps.after (maps : Maps) (uses : List Use) : Maps :=
  uses.foldl (fun maps u => u.effect maps) maps

/-- Each use is accepted in its turn. -/
def Accepted (m : Memory) : List Use → Prop
  | [] => True
  | u :: uses =>
    (outcome (u.call.step u.options u.schema) m).1 = .ok () ∧ Accepted (u.run m) uses

/-- The handles of one table have the same key fields. -/
def ShareKeys (uses : List Use) : Prop :=
  ∀ u ∈ uses, ∀ v ∈ uses, u.schema.table = v.schema.table → u.schema.SameKeys v.schema

/-- The rows of a table stand for a map, each for a key of its own. -/
structure StandFor (s : Schema) (m : Memory) (maps : Maps) : Prop where
  distinct : Distinct s (m.rowsOf s.table)
  contents : Store.contents s (m.rowsOf s.table) = maps s.table

/-- What a use is to give, and what it is to leave alone. -/
structure Use.Faithful (u : Use) (m : Memory) (maps : Maps) : Prop where
  got : ∀ key, u.call = .get key → ∃ found,
    (outcome (getItem u.options u.schema key) m).1 = .ok found ∧
      found.map Dict.get? = maps u.schema.table key.id
  tables : ∀ table, table ≠ u.schema.table → (u.run m).tables.get? table = m.tables.get? table
  rows : ∀ row id, u.schema.idOf? row = some id → id ∉ u.call.ids u.schema →
    (row ∈ (u.run m).rowsOf u.schema.table ↔ row ∈ m.rowsOf u.schema.table)

variable {u : Use} {uses before later : List Use} {maps : Maps}

theorem accepted_append {m : Memory} :
    Accepted m (before ++ later) ↔ Accepted m before ∧ Accepted (m.after before) later := by
  induction before generalizing m with
  | nil => simp [Accepted, Memory.after]
  | cons u before ih =>
    rw [List.cons_append, Accepted, Accepted, ih, and_assoc]
    rfl

theorem rowsOf_run_of_ne (u : Use) (m : Memory) {table : String} (h : table ≠ u.schema.table) :
    (u.run m).rowsOf table = m.rowsOf table := by
  rw [rowsOf, (u.changesTo m).frame table h, ← rowsOf]

/-- A use takes tables that stand for maps to tables that stand for the maps after it. -/
theorem contents_effect (hu : u.Orderly s SaysNumber) (h : KeyedRows s (m.rowsOf s.table))
    (haccepted : (outcome (u.call.step u.options u.schema) m).1 = .ok ())
    (hmaps : contents s (m.rowsOf s.table) = maps s.table) :
    contents s ((u.run m).rowsOf s.table) = u.effect maps s.table := by
  by_cases ht : s.table = u.schema.table
  · have hs := hu.sameKeys ht.symm
    have hkeyed : KeyedRows u.schema (m.rowsOf u.schema.table) := ht ▸ h.of_sameKeys hs.symm
    have hrun := contents_run hkeyed (hu.numbers ht.symm) haccepted
    rw [Use.effect, if_pos ht, ← hmaps, ← contents_of_sameKeys hs, ← contents_of_sameKeys hs, ht,
      hrun]
  · rw [rowsOf_run_of_ne u m ht, Use.effect, if_neg ht, hmaps]

/-- After accepted uses the rows of a table stand for what the maps say of it. -/
theorem contents_after (huses : ∀ u ∈ uses, u.Orderly s SaysNumber) (haccepted : Accepted m uses)
    (h : KeyedRows s (m.rowsOf s.table)) (hmaps : contents s (m.rowsOf s.table) = maps s.table) :
    contents s ((m.after uses).rowsOf s.table) = maps.after uses s.table := by
  induction uses generalizing m maps with
  | nil => exact hmaps
  | cons u uses ih =>
    obtain ⟨hu, hrest⟩ := List.forall_mem_cons.1 huses
    have heffect := contents_effect hu h haccepted.1 hmaps
    exact ih hrest haccepted.2 (keyedRows_run hu h) heffect

theorem orderly_of_shareKeys {v : Use} (hkeys : ShareKeys uses)
    (hnumbers : ∀ u ∈ uses, ∀ digits ∈ u.keyNumbers, SaysNumber digits) (hv : v ∈ uses) :
    ∀ u ∈ uses, u.Orderly v.schema SaysNumber :=
  fun u hu => ⟨hkeys u hu v hv, fun _ => hnumbers u hu⟩

/-- A history from the empty store leaves a store that stands for its maps. -/
theorem standFor_after (horderly : ∀ u ∈ uses, u.Orderly s SaysNumber)
    (haccepted : Accepted {} uses) :
    StandFor s (Memory.after {} uses) (Maps.after (fun _ _ => none) uses) where
  distinct := (keyedRows_after horderly (keyedRows_empty s)).distinct
  contents := contents_after horderly haccepted (keyedRows_empty s) rfl

/-- An accepted call for a row gets what the map has. -/
theorem getItem_contents (hrows : ∀ r ∈ m.rowsOf s.table, PlacedRow s r)
    (haccepted : (outcome ((Call.get key).step o s) m).1 = .ok ()) :
    ∃ found, (outcome (getItem o s key) m).1 = .ok found ∧
      found.map Dict.get? = contents s (m.rowsOf s.table) key.id := by
  have hstep : (outcome ((Call.get key).step o s) m).1 =
      (outcome (getItem o s key) m).1.map fun _ => () := by
    show (outcome ((fun _ => ()) <$> getItem o s key) m).1 = _
    rw [outcome_map]
  rw [hstep] at haccepted
  cases hget : (outcome (getItem o s key) m).1 with
  | error e => simp [hget, Except.map] at haccepted
  | ok found =>
    refine ⟨found, rfl, ?_⟩
    rw [getItem_accepted hget, map_findRow hrows]

/-- A store is a map for each of its tables. Calls that are accepted keep the tables standing for
the maps, get what the maps have, and change no other table and no row of another key. -/
theorem Memory.acts_as_maps (hkeys : ShareKeys uses)
    (hnumbers : ∀ u ∈ uses, ∀ digits ∈ u.keyNumbers, SaysNumber digits)
    (haccepted : Accepted {} uses) (huses : uses = before ++ u :: later) :
    let m := Memory.after {} before
    let maps := Maps.after (fun _ _ => none) before
    u.Faithful m maps ∧ ∀ v ∈ uses, StandFor v.schema (u.run m) (u.effect maps) := by
  intro m maps
  have hu : u ∈ uses := by simp [huses]
  have horderly : ∀ v ∈ uses, ∀ w ∈ before, w.Orderly v.schema SaysNumber := by
    intro v hv w hw
    exact orderly_of_shareKeys hkeys hnumbers hv w (by simp [huses, hw])
  rw [huses, accepted_append] at haccepted
  obtain ⟨hfirst, hnow, -⟩ := haccepted
  have hstand := standFor_after (horderly u hu) hfirst
  have hplaced := (keyedRows_after (horderly u hu) (keyedRows_empty u.schema)).placed
  have hafter : ∀ v ∈ uses, StandFor v.schema (u.run m) (u.effect maps) := by
    intro v hv
    have hboth : Accepted {} (before ++ [u]) := accepted_append.2 ⟨hfirst, hnow, trivial⟩
    have hupto : ∀ w ∈ before ++ [u], w.Orderly v.schema SaysNumber := by
      rw [List.forall_mem_append, List.forall_mem_singleton]
      exact ⟨horderly v hv, orderly_of_shareKeys hkeys hnumbers hv u hu⟩
    have h := standFor_after hupto hboth
    rwa [Memory.after, Maps.after, List.foldl_append, List.foldl_append] at h
  refine ⟨⟨?_, fun table ht => (u.changesTo m).frame table ht, ?_⟩, hafter⟩
  · intro key hcall
    have hmaps : contents u.schema (m.rowsOf u.schema.table) = maps u.schema.table :=
      hstand.contents
    rw [hcall] at hnow
    rw [← hmaps]
    exact getItem_contents hplaced hnow
  · intro row id hid hids
    rw [mem_iff_contents (hafter u hu).distinct hid, mem_iff_contents hstand.distinct hid,
      (hafter u hu).contents, hstand.contents, Use.effect, if_pos rfl,
      Call.effect_of_not_mem hids]

theorem shareKeys_plain (s : Schema) (calls : List Call) :
    ShareKeys (calls.map (Use.plain s)) := by
  intro u hu v hv _
  obtain ⟨_, -, rfl⟩ := List.mem_map.1 hu
  obtain ⟨_, -, rfl⟩ := List.mem_map.1 hv
  exact ⟨rfl, rfl⟩

end Store

/-! ## Counters as a map -/

namespace Sample

open Query Store Memory Step

/-- Calls on counters, with several texts of one number. -/
def countings : List Use :=
  [.put ((counter "5").insert "by" (.text "ann")), .update ((counter "5.0").insert "n" .null),
    .putBatch [counter "7", counter "8"], .delete ⟨.number "7e0", none⟩,
    .get ⟨.number "05", none⟩].map (Use.plain counters)

/-- The last call gets the first row, updated. -/
theorem acts_as_maps_countings :
    (Use.plain counters (.get ⟨.number "05", none⟩)).Faithful
        (Memory.after {} (countings.take 4)) (Maps.after (fun _ _ => none) (countings.take 4)) ∧
      (outcome (getItem {} counters ⟨.number "05", none⟩) (Memory.after {} (countings.take 4))).1 =
        .ok (some (.ofList [("id", .number "5"), ("by", .text "ann"), ("n", .null)])) := by
  have hnumbers : ∀ u ∈ countings, ∀ digits ∈ u.keyNumbers, SaysNumber digits := by
    decide +kernel
  have haccepted : Accepted {} countings := by
    exact ⟨rfl, rfl, rfl, rfl, rfl, trivial⟩
  have huses : countings =
      countings.take 4 ++ Use.plain counters (.get ⟨.number "05", none⟩) :: [] := rfl
  exact ⟨(acts_as_maps (shareKeys_plain counters _) hnumbers haccepted huses).1, rfl⟩

end Sample

end ItemStore
