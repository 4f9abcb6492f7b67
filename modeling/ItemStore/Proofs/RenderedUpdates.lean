import ItemStore.Proofs.Aliases
import ItemStore.Proofs.ReadingUpdates
import ItemStore.Proofs.Translation
import ItemStore.Proofs.UpdatedRows
import ItemStore.Remote.Table

/-!
# Rendered updates do what the store in memory does

An item's update is read as assignments of its attributes outside the key and removals of the
declared fields that it lacks (`execute_renderUpdate`). These concern different fields, so it does
not matter which are done first. Main statement: executing the update on the stored row, or on the
item of the key if there is none, leaves the row that the store in memory puts in its place
(`updates_alike`).
-/

namespace ItemStore

namespace Remote

open Query Store

variable {s : Schema} {item row : Item} {key : Key}

/-! ## The acts of an update -/

/-- The attributes that an update sets. -/
def assigned (s : Schema) (item : Item) : List (String × Value) :=
  item.entries.filter fun e => !s.isKeyField e.1

/-- The fields that an update removes. -/
def removed (s : Schema) (item : Item) : List String :=
  (s.fields.map Field.name).filter fun name => !s.isKeyField name && !item.contains name

/-- What an update changes. -/
def changes (s : Schema) (item : Item) : List Change :=
  (assigned s item).map (fun e => (e.1, some e.2)) ++ (removed s item).map fun name => (name, none)

/-- Numbered assignments stand for their fields and values, with more aliases too. -/
theorem numberAssignments_spec : ∀ (entries : List (String × Value)) (a : Aliases),
    a.Extends (numberAssignments a entries).2 ∧
      ∀ b, (numberAssignments a entries).2.Extends b →
        List.Forall₂ (fun p e => b.fields[p.1]? = some e.1 ∧ b.values[p.2]? = some e.2)
          (numberAssignments a entries).1 entries
  | [], a => ⟨.refl a, fun _ _ => .nil⟩
  | (name, v) :: entries, a => by
    obtain ⟨hfirst, hfield⟩ := a.field_spec name
    obtain ⟨hsecond, hvalue⟩ := (a.field name).2.value_spec v
    obtain ⟨hrest, hall⟩ := numberAssignments_spec entries ((a.field name).2.value v).2
    refine ⟨(hfirst.trans hsecond).trans hrest, fun b hb => .cons ⟨?_, ?_⟩ (hall b hb)⟩
    · exact ((hsecond.trans hrest).trans hb).field hfield
    · exact (hrest.trans hb).value hvalue

/-- Numbered fields stand for themselves, with more aliases too. -/
theorem numberFields_spec : ∀ (names : List String) (a : Aliases),
    a.Extends (numberFields a names).2 ∧ ∀ b, (numberFields a names).2.Extends b →
      List.Forall₂ (fun i name => b.fields[i]? = some name) (numberFields a names).1 names
  | [], a => ⟨.refl a, fun _ _ => .nil⟩
  | name :: names, a => by
    obtain ⟨hfirst, hfield⟩ := a.field_spec name
    obtain ⟨hrest, hall⟩ := numberFields_spec names (a.field name).2
    exact ⟨hfirst.trans hrest, fun b hb => .cons ((hrest.trans hb).field hfield) (hall b hb)⟩

/-- A list is read element by element. -/
theorem mapM_eq_some {α β γ : Type} {f : α → Option β} {g : γ → β} {l : List α} {m : List γ}
    (h : List.Forall₂ (fun x y => f x = some (g y)) l m) : l.mapM f = some (m.map g) := by
  induction h with
  | nil => rfl
  | cons hx _ ih => rw [List.mapM_cons, hx, ih]; rfl

theorem updateClause_eq_nil {keyword : String} {parts : List String} :
    updateClause keyword parts = [] ↔ parts = [] := by
  cases parts <;> simp [updateClause]

/-- The text of an update is read as what it changes, and there is none if that is nothing. -/
theorem read_renderUpdate (s : Schema) (item : Item) :
    (renderUpdate s item).text = none ∧ changes s item = [] ∨
      ∃ text acts, (renderUpdate s item).text = some text ∧ readUpdate text = some acts ∧
        acts.mapM (fun a => a.change? (renderUpdate s item).names (renderUpdate s item).values) =
          some (changes s item) := by
  let sets := numberAssignments {} (assigned s item)
  let removes := numberFields sets.2 (removed s item)
  let clauses := updateClause "SET" (sets.1.map assignText) ++
    updateClause "REMOVE" (removes.1.map Aliases.fieldAlias)
  have hrender : renderUpdate s item = {
      text := if clauses.isEmpty then none else some (" ".intercalate clauses)
      names := removes.2.names
      values := removes.2.valueTable } := rfl
  obtain ⟨-, hsets⟩ := numberAssignments_spec (assigned s item) {}
  obtain ⟨hextends, hremoves⟩ := numberFields_spec (removed s item) sets.2
  -- The removals are numbered after the assignments and leave the numbers of those as they are.
  have hsets := hsets removes.2 hextends
  have hremoves := hremoves removes.2 (.refl _)
  by_cases hempty : clauses = []
  · left
    obtain ⟨hset, hremove⟩ := List.append_eq_nil_iff.1 hempty
    rw [updateClause_eq_nil, List.map_eq_nil_iff] at hset hremove
    rw [hset, List.forall₂_nil_left_iff] at hsets
    rw [hremove, List.forall₂_nil_left_iff] at hremoves
    refine ⟨by simp [hrender, hempty], ?_⟩
    rw [changes, hsets, hremoves]
    rfl
  · right
    have htext : (renderUpdate s item).text = some (" ".intercalate clauses) := by
      simp [hrender, hempty]
    refine ⟨_, _, htext, readUpdate_of_updateClauses sets.1 removes.1 hempty, ?_⟩
    rw [hrender, List.mapM_append]
    have hassign : (sets.1.map assignAct).mapM
        (fun a => a.change? removes.2.names removes.2.valueTable) =
          some ((assigned s item).map fun e => (e.1, some e.2)) := by
      refine mapM_eq_some (List.forall₂_map_left_iff.2 (hsets.imp fun p e hp => ?_))
      simp only [assignAct, Act.change?, Aliases.get?_names, Aliases.get?_valueTable, hp.1, hp.2]
      rfl
    have hremove : (removes.1.map removeAct).mapM
        (fun a => a.change? removes.2.names removes.2.valueTable) =
          some ((removed s item).map fun name => (name, none)) := by
      refine mapM_eq_some (List.forall₂_map_left_iff.2 (hremoves.imp fun i name hi => ?_))
      simp only [removeAct, Act.change?, Aliases.get?_names, hi]
      rfl
    simp only [hassign, hremove]
    rfl

/-! ## What the acts leave -/

/-- The changes insert what is assigned and erase what is removed. -/
theorem foldl_changed (s : Schema) (item row : Item) :
    (changes s item).foldl changed row = (removed s item).foldl (fun row name => row.erase name)
      ((assigned s item).foldl (fun row e => row.insert e.1 e.2) row) := by
  rw [changes, List.foldl_append, List.foldl_map, List.foldl_map]
  rfl

/-- It does not matter whether fields are set or removed first, since they are different ones. -/
theorem foldl_changed_eq_updatedRow (s : Schema) (key : Key) (item : Item) (stored : Option Item) :
    (changes s item).foldl changed (stored.getD (s.keyItem key)) =
      updatedRow s key item stored := by
  rw [foldl_changed]
  refine Dict.ext_get? fun name => ?_
  show _ = ((assigned s item).foldl (fun row e => row.insert e.1 e.2)
    ((removed s item).foldl (fun row name => row.erase name)
      (stored.getD (s.keyItem key)))).get? name
  generalize stored.getD (s.keyItem key) = row
  have hset : ∀ base : Item,
      ((assigned s item).foldl (fun row e => row.insert e.1 e.2) base).get? name =
        if !s.isKeyField name then (item.get? name).or (base.get? name) else base.get? name :=
    fun base => Dict.get?_foldl_insert_filter item base fun name => !s.isKeyField name
  by_cases hremoved : name ∈ removed s item
  · -- The item lacks what is removed, so nothing sets it.
    obtain ⟨hkey, hlacks⟩ : (!s.isKeyField name) = true ∧ item.get? name = none := by
      simpa [Dict.contains_eq_isSome] using (List.mem_filter.1 hremoved).2
    rw [hset, if_pos hkey, hlacks, Option.none_or, Dict.get?_foldl_erase_of_mem hremoved,
      Dict.get?_foldl_erase_of_mem hremoved]
  · rw [Dict.get?_foldl_erase name _ _ hremoved, hset, hset,
      Dict.get?_foldl_erase name _ _ hremoved]

theorem map_fst_changes (s : Schema) (item : Item) :
    (changes s item).map Prod.fst = (assigned s item).map Prod.fst ++ removed s item := by
  simp [changes, Function.comp_def]

/-- No field is changed twice, and no field of the key is. -/
theorem changes_admitted (s : Schema) (item : Item) :
    ((changes s item).map Prod.fst).Nodup ∧
      ((changes s item).map Prod.fst).all (fun field => !s.isKeyField field) = true := by
  have hassigned : ((assigned s item).map Prod.fst).Nodup := by
    refine List.pairwise_map.2 ((item.ordered.filter _).imp fun h => ?_)
    exact String.ne_of_lt h
  have hremoved : (removed s item).Nodup := s.names_nodup.filter _
  rw [map_fst_changes, List.nodup_append]
  refine ⟨⟨hassigned, hremoved, ?_⟩, ?_⟩
  · rintro field hset _ hremove rfl
    obtain ⟨e, he, rfl⟩ := List.mem_map.1 hset
    have hget : item.get? e.1 = some e.2 := Dict.get?_eq_some_iff.2 (List.mem_filter.1 he).1
    have hlacks := (List.mem_filter.1 hremove).2
    simp [Dict.contains_eq_isSome, hget] at hlacks
  · rw [List.all_eq_true]
    intro field hfield
    rcases List.mem_append.1 hfield with hset | hremove
    · obtain ⟨e, he, rfl⟩ := List.mem_map.1 hset
      exact (List.mem_filter.1 he).2
    · exact (Bool.and_eq_true_iff.1 (List.mem_filter.1 hremove).2).1

/-- Executing an update on the row that is stored, or on the item of the key, leaves the updated
row. -/
theorem execute_renderUpdate (s : Schema) (key : Key) (item : Item) (stored : Option Item) :
    execute? s.isKeyField (renderUpdate s item) (stored.getD (s.keyItem key)) =
      some (updatedRow s key item stored) := by
  have hfold := foldl_changed_eq_updatedRow s key item stored
  rcases read_renderUpdate s item with ⟨htext, hnone⟩ | ⟨text, acts, htext, hread, hchanges⟩
  · rw [hnone] at hfold
    rw [execute?, htext]
    exact congrArg some hfold
  · rw [execute?, htext]
    simp only [hread, hchanges, Option.bind_eq_bind, Option.bind_some]
    rw [if_pos (changes_admitted s item), hfold]

/-! ## Both stores update alike -/

open Memory Step

/-- What an update of an item leaves of a stored row, or of none. -/
structure Updated (s : Schema) (item : Item) (stored : Option Item) (row : Item) : Prop where
  /-- The key is that of the stored row, or else of the item. -/
  key : ∀ name, s.isKeyField name = true → row.get? name = (stored.getD item).get? name
  /-- A declared field is there if the item has it. -/
  declared : ∀ name, s.isKeyField name = false → s.hasField name = true →
    row.get? name = item.get? name
  /-- What is not declared is set if the item has it, and else stays. -/
  undeclared : ∀ name, s.isKeyField name = false → s.hasField name = false →
    row.get? name = (item.get? name).or (stored.bind fun r => r.get? name)

/-- The row in memory is updated as the rendered update says. -/
theorem updated_updatedRow (hkey : s.keyOf item = .ok key) (stored : Option Item) :
    Updated s item stored (updatedRow s key item stored) := by
  have hget := get?_updatedRow_eq hkey stored
  refine ⟨fun name hname => ?_, fun name hname hfield => ?_, fun name hname hfield => ?_⟩
  · rw [congrFun hget name, Schema.updated, if_pos hname]
    cases stored <;> rfl
  · rw [congrFun hget name, Schema.updated, if_neg (by simp [hname])]
    cases item.get? name <;> simp [hfield]
  · rw [congrFun hget name, Schema.updated, if_neg (by simp [hname])]
    cases item.get? name <;> cases stored <;> simp [hfield]

/-- A row takes the place of the stored one, or comes last. -/
theorem storeRow_eq (s : Schema) (key : Key) (row : Item) (rows : List Item) :
    ∃ before after, rows = before ++ (findRow s key rows).toList ++ after ∧
      storeRow s key row rows = before ++ row :: after := by
  induction rows with
  | nil => exact ⟨[], [], rfl, rfl⟩
  | cons r rest ih =>
    by_cases hhas : hasKey s key r = true
    · refine ⟨[], rest, ?_, ?_⟩
      · rw [findRow, List.find?_cons_of_pos hhas]
        rfl
      · rw [storeRow, if_pos hhas]
        rfl
    · obtain ⟨before, after, hrows, hstore⟩ := ih
      refine ⟨r :: before, after, ?_, ?_⟩
      · rw [findRow, List.find?_cons_of_neg hhas, ← findRow, List.cons_append, List.cons_append,
          ← hrows]
      · rw [storeRow, if_neg hhas, hstore, List.cons_append]

/-- An item that has a key can be updated in a table that can be read. -/
theorem outcome_updateItem {o : MemoryOptions} {m : Memory} (hkey : itemKey s item = .ok key)
    (hreadable : Readable o m s.table) :
    ∃ m', outcome (Memory.updateItem o s item) m = (.ok (), m') ∧ m'.rowsOf s.table =
      storeRow s key (updatedRow s key item (findRow s key (m.rowsOf s.table)))
        (m.rowsOf s.table) := by
  obtain ⟨m', hrows, -, -⟩ := hreadable.outcome_rows .write
  rw [Memory.updateItem, outcome_checked_bind, hkey]
  simp only [outcome_bind, hrows, outcome_setRows]
  exact ⟨_, rfl, rowsOf_insert _ _ _⟩

/-- A call sends its request. -/
theorem sent_call {α : Type} (r : Request) (read? : Json → Option α) (t : Transport) :
    (outcome (call r read?) t).2.sent = r :: t.sent := by
  rw [call, outcome_bind_snd]
  · rcases t with ⟨_ | ⟨response, rest⟩, sent⟩ <;> rfl
  · intro response t'
    cases response with
    | fault name => rfl
    | body j =>
      dsimp only
      split <;> rfl

/-- The request of an update has the item's key and its rendered update. -/
theorem sent_updateItem (name : String) (hkey : s.keyOf item = .ok key) (t : Transport) :
    (outcome (updateItem name s item) t).2.sent =
      .updateItem name (s.keyItem key) (renderUpdate s item) :: t.sent := by
  rw [updateItem, hkey, outcome_bind, mapError_ok, outcome_ofExcept]
  exact sent_call _ _ t

/-- Both stores update alike: the update that a remote store is sent, executed on the stored row or
on the item of the key, leaves the row that the store in memory puts in its place. -/
theorem updates_alike (s : Schema) (item : Item) {key : Key} (hkey : itemKey s item = .ok key)
    (o : MemoryOptions) (m : Memory) (hreadable : Readable o m s.table) :
    let stored := findRow s key (m.rowsOf s.table)
    ∃ row, execute? s.isKeyField (renderUpdate s item) (stored.getD (s.keyItem key)) = some row ∧
      Updated s item stored row ∧
      (∃ m' before after, outcome (Memory.updateItem o s item) m = (.ok (), m') ∧
        m.rowsOf s.table = before ++ stored.toList ++ after ∧
        m'.rowsOf s.table = before ++ row :: after) ∧
      ∀ name t, (outcome (updateItem name s item) t).2.sent =
        .updateItem name (s.keyItem key) (renderUpdate s item) :: t.sent := by
  intro stored
  have hkeyOf := (itemKey_eq_ok_iff.1 hkey).1
  obtain ⟨m', houtcome, hrows⟩ := outcome_updateItem hkey hreadable
  obtain ⟨before, after, hbefore, hafter⟩ :=
    storeRow_eq s key (updatedRow s key item stored) (m.rowsOf s.table)
  refine ⟨updatedRow s key item stored, execute_renderUpdate s key item stored,
    updated_updatedRow hkeyOf stored, ⟨m', before, after, houtcome, hbefore, ?_⟩,
    fun name t => sent_updateItem name hkeyOf t⟩
  rw [hrows, hafter]

end Remote

/-! ## A correction -/

namespace Sample

open Query Store Memory Remote

/-- A reading with a note that is not declared. -/
def measurement : Item :=
  .ofList [("sensor", .text "s1"), ("ts", .number "10.0"), ("value", .number "3"),
    ("note", .text "x")]

/-- A reading without its value, and with a unit. -/
def correction : Item :=
  .ofList [("sensor", .text "s1"), ("ts", .number "10"), ("unit", .text "C")]

/-- The value is removed, the unit is set, and the time keeps its text. -/
theorem updates_alike_correction :
    ∃ row, execute? readings.isKeyField (renderUpdate readings correction) measurement = some row ∧
      Updated readings correction (some measurement) row ∧
      row = .ofList [("sensor", .text "s1"), ("ts", .number "10.0"), ("note", .text "x"),
        ("unit", .text "C")] := by
  let m := Memory.after {} [Use.plain readings (.put measurement)]
  have hkey : itemKey readings correction = .ok ⟨.text "s1", some (.number "10")⟩ := rfl
  obtain ⟨row, hrow, hupdated, -⟩ := updates_alike readings correction hkey {} m (.inl rfl)
  have hstored : findRow readings ⟨.text "s1", some (.number "10")⟩ (m.rowsOf readings.table) =
      some measurement := rfl
  rw [hstored] at hrow hupdated
  refine ⟨row, hrow, hupdated, Option.some.inj (hrow.symm.trans ?_)⟩
  decide +kernel

example : (renderUpdate readings correction).text = some "SET #f0 = :v0 REMOVE #f1" := by
  decide +kernel

end Sample

end ItemStore
