import ItemStore.Proofs.Dictionaries
import ItemStore.Query.Expression
import Mathlib

/-!
# Aliases stand for what was numbered

An expression's tables say of every alias the field that has its number (`Aliases.get?_names`), and
of every placeholder the value (`Aliases.get?_valueTable`). Numbering more fields and values leaves
the numbers that are given as they are (`Aliases.Extends`).
-/

namespace ItemStore.Query

namespace Aliases

/-! ## Different numbers have different aliases -/

theorem fieldAlias_inj {i j : Nat} : fieldAlias i = fieldAlias j ↔ i = j := by
  rw [fieldAlias, fieldAlias, String.append_right_inj]
  exact Nat.repr_inj

theorem valueAlias_inj {i j : Nat} : valueAlias i = valueAlias j ↔ i = j := by
  rw [valueAlias, valueAlias, String.append_right_inj]
  exact Nat.repr_inj

section Numbered

variable {α : Type} {label : Nat → String} (hlabel : ∀ {i j}, label i = label j ↔ i = j)

include hlabel

/-- Numbered entries are found by the labels of their numbers. -/
theorem get?_ofList_mapIdx_eq_some {l : List α} {name : String} {x : α} :
    (Dict.ofList (l.mapIdx fun i x => (label i, x))).get? name = some x ↔
      ∃ i, name = label i ∧ l[i]? = some x := by
  have hnames : (l.mapIdx fun i x => (label i, x)).Pairwise fun a b => a.1 ≠ b.1 := by
    rw [List.pairwise_iff_getElem]
    intro m n hm hn hlt
    simp only [List.getElem_mapIdx, ne_eq, hlabel]
    omega
  rw [Dict.get?_ofList hnames, List.mem_mapIdx]
  constructor
  · rintro ⟨i, hi, heq⟩
    obtain ⟨rfl, rfl⟩ := Prod.mk.inj heq
    exact ⟨i, rfl, List.getElem?_eq_getElem hi⟩
  · rintro ⟨i, rfl, hx⟩
    obtain ⟨hi, rfl⟩ := List.getElem?_eq_some_iff.1 hx
    exact ⟨i, hi, rfl⟩

/-- In a table by numbered labels, each label stands for the element at its number. -/
theorem get?_ofList_mapIdx (l : List α) (i : Nat) :
    (Dict.ofList (l.mapIdx fun i x => (label i, x))).get? (label i) = l[i]? := by
  refine Option.ext fun x => ?_
  rw [get?_ofList_mapIdx_eq_some hlabel]
  constructor
  · rintro ⟨j, heq, hx⟩
    rwa [hlabel.1 heq]
  · exact fun hx => ⟨i, rfl, hx⟩

end Numbered

theorem get?_names (a : Aliases) (i : Nat) : a.names.get? (fieldAlias i) = a.fields[i]? :=
  get?_ofList_mapIdx fieldAlias_inj a.fields i

theorem get?_valueTable (a : Aliases) (i : Nat) :
    a.valueTable.get? (valueAlias i) = a.values[i]? :=
  get?_ofList_mapIdx valueAlias_inj a.values i

/-- A label stands for a field if it is the alias of its number. -/
theorem get?_names_eq_some {a : Aliases} {label field : String} :
    a.names.get? label = some field ↔ ∃ i, label = fieldAlias i ∧ a.fields[i]? = some field :=
  get?_ofList_mapIdx_eq_some fieldAlias_inj

/-- A label stands for a value if it is the placeholder of its number. -/
theorem get?_valueTable_eq_some {a : Aliases} {label : String} {v : Value} :
    a.valueTable.get? label = some v ↔ ∃ i, label = valueAlias i ∧ a.values[i]? = some v :=
  get?_ofList_mapIdx_eq_some valueAlias_inj

/-! ## Numbering more -/

/-- The numbers of the first aliases are the same in the second. -/
structure Extends (a b : Aliases) : Prop where
  fields : a.fields <+: b.fields
  values : a.values <+: b.values

variable {a b c : Aliases} {i : Nat} {name : String} {v : Value}

theorem Extends.refl (a : Aliases) : a.Extends a :=
  ⟨List.prefix_refl _, List.prefix_refl _⟩

theorem Extends.trans (hab : a.Extends b) (hbc : b.Extends c) : a.Extends c :=
  ⟨hab.fields.trans hbc.fields, hab.values.trans hbc.values⟩

/-- A field keeps its number. -/
theorem Extends.field (h : a.Extends b) (hi : a.fields[i]? = some name) :
    b.fields[i]? = some name := by
  obtain ⟨more, hmore⟩ := h.fields
  rw [← hmore, List.getElem?_append_left (List.getElem?_eq_some_iff.1 hi).1, hi]

/-- A value keeps its number. -/
theorem Extends.value (h : a.Extends b) (hi : a.values[i]? = some v) :
    b.values[i]? = some v := by
  obtain ⟨more, hmore⟩ := h.values
  rw [← hmore, List.getElem?_append_left (List.getElem?_eq_some_iff.1 hi).1, hi]

/-- A field has the number that it is given. -/
theorem field_spec (a : Aliases) (name : String) :
    a.Extends (a.field name).2 ∧ (a.field name).2.fields[(a.field name).1]? = some name := by
  unfold field
  cases h : a.fields.idxOf? name with
  | some i =>
    obtain ⟨hi, heq, -⟩ := List.idxOf?_eq_some_iff.1 h
    exact ⟨.refl a, by rw [List.getElem?_eq_getElem hi, heq]⟩
  | none => exact ⟨⟨List.prefix_append _ _, List.prefix_refl _⟩, by simp⟩

theorem value_spec (a : Aliases) (v : Value) :
    a.Extends (a.value v).2 ∧ (a.value v).2.values[(a.value v).1]? = some v :=
  ⟨⟨List.prefix_refl _, List.prefix_append _ _⟩, by simp [value]⟩

end Aliases

end ItemStore.Query
