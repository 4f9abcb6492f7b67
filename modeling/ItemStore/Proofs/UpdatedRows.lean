import ItemStore.Proofs.KeyedTables

/-!
# The attributes of updated rows

What an update leaves is said name by name (`Schema.updated`): key fields stay as they are stored,
other names get what the item has, declared ones that it lacks are gone, and the rest is kept. The
row that `updatedRow` makes is just that (`get?_updatedRow_eq`).
-/

namespace ItemStore

/-- What is found under each name. -/
abbrev Attributes := String → Option Value

/-- What a row has after an update, by what the item has and what is stored, if anything is. -/
def Schema.updated (s : Schema) (item : Attributes) (stored : Option Attributes) : Attributes :=
  fun name =>
    if s.isKeyField name then stored.getD item name
    else match item name with
      | some v => some v
      | none => if s.hasField name then none else stored.bind fun row => row name

namespace Schema

variable {s : Schema} {item : Item} {key : Key} {name : String}

theorem hasField_iff : s.hasField name = true ↔ name ∈ s.fields.map Field.name := by
  simp [hasField, field?, List.find?_isSome, List.mem_map]

/-- The item of an item's key has the key fields of the item. -/
theorem get?_keyItem (hkey : s.keyOf item = .ok key) (name : String) :
    (s.keyItem key).get? name = if s.isKeyField name then item.get? name else none := by
  obtain ⟨hpartition, hsort⟩ := keyOf_eq_ok_iff.1 hkey
  unfold keyItem isKeyField sortName?
  cases hf : s.sortKey with
  | none =>
    by_cases hp : s.partitionKey.name = name
    · simp [Dict.get?_insert, ← hp, hpartition]
    · simp [Dict.get?_insert, hp]
  | some f =>
    obtain ⟨v, hv, hv'⟩ : ∃ v, item.get? f.name = some v ∧ key.sort = some v := by
      simpa only [hf] using hsort
    by_cases hname : f.name = name
    · simp [Dict.get?_insert, hv', ← hname, hv]
    · by_cases hp : s.partitionKey.name = name
      · simp [Dict.get?_insert, hv', hname, hp, ← hpartition]
      · simp [Dict.get?_insert, hv', hname, hp]

end Schema

namespace Store

variable {s : Schema} {item : Item} {key : Key}

/-- The row of an update has the attributes that `Schema.updated` says. -/
theorem get?_updatedRow_eq (hkey : s.keyOf item = .ok key) (stored : Option Item) :
    (updatedRow s key item stored).get? = s.updated item.get? (stored.map Dict.get?) := by
  funext name
  by_cases hname : s.isKeyField name = true
  · rw [get?_updatedRow hname, Schema.updated, if_pos hname]
    cases stored with
    | some row => rfl
    | none =>
      rw [Option.getD_none, Schema.get?_keyItem hkey, if_pos hname, Option.map_none,
        Option.getD_none]
  · rw [updatedRow, Dict.get?_foldl_insert_filter _ _ fun name => !s.isKeyField name,
      Schema.updated, if_neg hname, if_pos (by simpa using hname)]
    cases hitem : item.get? name with
    | some v => rw [Option.some_or]
    | none =>
      rw [Option.none_or]
      by_cases hfield : s.hasField name = true
      · rw [Dict.get?_foldl_erase_of_mem, if_pos hfield]
        simp [Schema.hasField_iff.1 hfield, hname, Dict.contains_eq_isSome, hitem]
      · have hkept : name ∉ (s.fields.map Field.name).filter fun name =>
            !s.isKeyField name && !item.contains name := by
          intro hmem
          exact hfield (Schema.hasField_iff.2 (List.mem_filter.1 hmem).1)
        rw [Dict.get?_foldl_erase name _ _ hkept, if_neg hfield]
        cases stored with
        | some row => rfl
        | none =>
          rw [Option.getD_none, Schema.get?_keyItem hkey, if_neg hname]
          rfl

end Store

end ItemStore
