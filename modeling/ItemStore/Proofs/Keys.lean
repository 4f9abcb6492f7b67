import ItemStore.Store.Memory

/-!
# The key of an item

The key of an item is what stands in its key fields (`Schema.keyOf_eq_ok_iff`). So items that agree
there have one key, schemas with the same key fields read the same key (`Schema.SameKeys`), and the
item of a key has that key (`Schema.keyOf_keyItem`).
-/

namespace ItemStore

/-- Schemas with the same key fields. -/
structure Schema.SameKeys (s s' : Schema) : Prop where
  partition : s.partitionKey = s'.partitionKey
  sort : s.sortKey = s'.sortKey

namespace Schema

variable {s s' : Schema} {item item' : Item} {key : Key}

/-- An item has a key if it has a partition value and, where there is a sort key, a sort value. -/
theorem keyOf_eq_ok_iff : s.keyOf item = .ok key ↔
    item.get? s.partitionKey.name = some key.partition ∧
      match s.sortKey with
      | some f => ∃ v, item.get? f.name = some v ∧ key.sort = some v
      | none => key.sort = none := by
  obtain ⟨partition, sort⟩ := key
  unfold keyOf keyValue
  cases item.get? s.partitionKey.name with
  | none => simp [bind, Except.bind]
  | some p =>
    cases s.sortKey with
    | none => simp [bind, Except.bind, pure, Except.pure, eq_comm]
    | some f =>
      cases hv : item.get? f.name with
      | none => simp [bind, Except.bind, hv]
      | some v => simp [bind, Except.bind, pure, Except.pure, hv, eq_comm]

theorem isKeyField_partition (s : Schema) : s.isKeyField s.partitionKey.name = true := by
  simp [isKeyField]

theorem isKeyField_sort {f : Field} (hf : s.sortKey = some f) : s.isKeyField f.name = true := by
  simp [isKeyField, sortName?, hf]

/-- Items that agree in the key fields have one key. -/
theorem keyOf_congr (h : ∀ name, s.isKeyField name = true → item.get? name = item'.get? name)
    (hkey : s.keyOf item' = .ok key) : s.keyOf item = .ok key := by
  rw [keyOf_eq_ok_iff] at hkey ⊢
  refine ⟨(h _ s.isKeyField_partition).trans hkey.1, ?_⟩
  cases hf : s.sortKey with
  | none => simpa only [hf] using hkey.2
  | some f =>
    obtain ⟨v, hv, hsort⟩ : ∃ v, item'.get? f.name = some v ∧ key.sort = some v := by
      simpa only [hf] using hkey.2
    exact ⟨v, (h _ (isKeyField_sort hf)).trans hv, hsort⟩

/-- The item of a key has that key, if the key has a sort value where the schema has a sort key. -/
theorem keyOf_keyItem_of_sort (h : key.sort.isSome = s.sortKey.isSome) :
    s.keyOf (s.keyItem key) = .ok key := by
  refine keyOf_eq_ok_iff.2 ⟨?_, ?_⟩
  · unfold keyItem
    cases hf : s.sortKey with
    | none => simp [Dict.get?_insert]
    | some f =>
      have hne := s.sort_ne f hf
      cases key.sort <;> simp [Dict.get?_insert, hne]
  · cases hf : s.sortKey with
    | none => simpa [hf] using h
    | some f =>
      obtain ⟨v, hv⟩ : ∃ v, key.sort = some v := by
        simpa [hf, Option.isSome_iff_exists] using h
      exact ⟨v, by simp [keyItem, hf, hv, Dict.get?_insert], hv⟩

/-- The key item of a key of the table has that key. -/
theorem keyOf_keyItem (h : s.keyOf item = .ok key) : s.keyOf (s.keyItem key) = .ok key := by
  refine keyOf_keyItem_of_sort ?_
  obtain ⟨-, hsort⟩ := keyOf_eq_ok_iff.1 h
  cases hf : s.sortKey with
  | none =>
    rw [hf] at hsort
    rw [hsort]
    rfl
  | some f =>
    rw [hf] at hsort
    obtain ⟨v, -, hv⟩ := hsort
    rw [hv]
    rfl

namespace SameKeys

theorem symm (h : s.SameKeys s') : s'.SameKeys s :=
  ⟨h.partition.symm, h.sort.symm⟩

theorem keyOf_iff (h : s.SameKeys s') : s.keyOf item = .ok key ↔ s'.keyOf item = .ok key := by
  rw [keyOf_eq_ok_iff, keyOf_eq_ok_iff, h.partition, h.sort]

theorem checkKey_eq (h : s.SameKeys s') :
    Store.Memory.checkKey s key = Store.Memory.checkKey s' key := by
  rw [Store.Memory.checkKey, Store.Memory.checkKey, h.partition, h.sort]

end SameKeys

end Schema

end ItemStore
