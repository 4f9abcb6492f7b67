import ItemStore.Proofs.ValueOrder
import ItemStore.Store.Memory

/-!
# The order of keys

`compareKeys` takes two values that do not compare as equal, so it orders keys only where all values
compare. Keys of one table have values of the declared types (`Memory.checkKey`), which leaves
number texts that say no number. A key without such a text is `Ranked`, and a ranked key of the
declared types is `Placed`. On placed keys `compareKeys` is a total preorder
(`transCmp_compareKeys`), whose equality is that of `Key.same` (`Placed.same_iff`).
-/

namespace ItemStore

/-- The number texts of a key. -/
def Key.numbers (key : Key) : List String :=
  (key.partition :: key.sort.toList).filterMap Value.number?

/-- A number text says a number, and so has a place in the order of numbers. -/
def SaysNumber (digits : String) : Prop :=
  (Value.numberRank? digits).isSome = true

instance : DecidablePred SaysNumber := fun _ => inferInstanceAs (Decidable (_ = true))

/-- Every number text of the key says a number. -/
def Key.Ranked (key : Key) : Prop :=
  ∀ digits ∈ key.numbers, SaysNumber digits

namespace Store

open Memory

/-! ## Values -/

/-- A value that a key field of a type takes, and that has a place in the order of its kind. -/
structure PlacedValue (t : FieldType) (v : Value) : Prop where
  accepted : t.acceptsKey v = true
  ranked : ∀ digits ∈ v.number?, SaysNumber digits

theorem compareValues_swap (a b : Value) : compareValues a b = (compareValues b a).swap := by
  rw [compareValues, compareValues, Value.compare?_swap b a]
  cases b.compare? a <;> rfl

namespace PlacedValue

variable {t : FieldType} {v w u : Value}

/-- A placed value is a text, a number with a rank, or binary, after its type. -/
theorem cases (h : PlacedValue t v) :
    (t = .string ∧ ∃ a, v = .text a) ∨ (t = .binary ∧ ∃ a, v = .binary a) ∨
      t = .number ∧ ∃ a m, v = .number a ∧ Value.numberRank? a = some m := by
  obtain ⟨haccepted, hranked⟩ := h
  cases t <;> cases v <;>
    simp_all [FieldType.acceptsKey, Value.number?, SaysNumber, Option.isSome_iff_exists]

/-- Placed values of one type compare. -/
theorem exists_compare? (hv : PlacedValue t v) (hw : PlacedValue t w) :
    ∃ o, v.compare? w = some o := by
  rcases hv.cases with ⟨rfl, a, rfl⟩ | ⟨rfl, a, rfl⟩ | ⟨rfl, a, m, rfl, ha⟩ <;>
    rcases hw.cases with ⟨ht, b, rfl⟩ | ⟨ht, b, rfl⟩ | ⟨ht, b, n, rfl, hb⟩ <;> cases ht
  · exact ⟨_, rfl⟩
  · exact ⟨_, rfl⟩
  · exact ⟨_, Value.compare?_of_compares (.number ha hb)⟩

theorem isLE_trans (hv : PlacedValue t v) (hw : PlacedValue t w) (hu : PlacedValue t u)
    (hvw : (compareValues v w).isLE = true) (hwu : (compareValues w u).isLE = true) :
    (compareValues v u).isLE = true := by
  obtain ⟨o, ho⟩ := hv.exists_compare? hw
  obtain ⟨p, hp⟩ := hw.exists_compare? hu
  rw [compareValues, ho] at hvw
  rw [compareValues, hp] at hwu
  rw [compareValues, Value.compare?_trans ho hp hvw hwu]
  exact Ordering.isLE_then_iff_and.2 ⟨hvw, .inr hwu⟩

/-- Placed values are the same if they compare as equal. -/
theorem same_iff (hv : PlacedValue t v) (hw : PlacedValue t w) :
    v.same w = true ↔ compareValues v w = .eq := by
  obtain ⟨o, ho⟩ := hv.exists_compare? hw
  rw [Value.same_iff_of_isScalar (Value.compares_of_compare? ho).isScalar_left, compareValues, ho]
  exact Option.some_inj

end PlacedValue

/-! ## Keys -/

/-- A key of the declared types that has a place in the order of keys. -/
structure Placed (s : Schema) (key : Key) : Prop where
  checked : checkKey s key = .ok ()
  ranked : key.Ranked

/-- A key is accepted if its values have the types of the key fields, and there is one for each. -/
theorem checkKey_eq_ok_iff {s : Schema} {key : Key} :
    checkKey s key = .ok () ↔ s.partitionKey.type.acceptsKey key.partition = true ∧
      match s.sortKey, key.sort with
      | none, none => True
      | some f, some v => f.type.acceptsKey v = true
      | _, _ => False := by
  unfold checkKey
  by_cases hp : s.partitionKey.type.acceptsKey key.partition = true
  · cases s.sortKey <;> cases key.sort <;> simp [hp]
  · simp [hp]

namespace Placed

variable {s : Schema} {j k l : Key}

theorem partition (h : Placed s k) : PlacedValue s.partitionKey.type k.partition where
  accepted := (checkKey_eq_ok_iff.1 h.checked).1
  ranked := by
    intro digits hd
    have hmem : digits ∈ k.numbers :=
      List.mem_filterMap.2 ⟨k.partition, List.mem_cons_self, hd⟩
    exact h.ranked digits hmem

theorem sort_of_none (h : Placed s k) (hf : s.sortKey = none) : k.sort = none := by
  have hsort := (checkKey_eq_ok_iff.1 h.checked).2
  rw [hf] at hsort
  cases hv : k.sort with
  | none => rfl
  | some v => simp [hv] at hsort

/-- A placed key has a placed value for the sort key of its table. -/
theorem sort_of_some {f : Field} (h : Placed s k) (hf : s.sortKey = some f) :
    ∃ v, k.sort = some v ∧ PlacedValue f.type v := by
  have hsort := (checkKey_eq_ok_iff.1 h.checked).2
  rw [hf] at hsort
  cases hv : k.sort with
  | none => simp [hv] at hsort
  | some v =>
    simp only [hv] at hsort
    refine ⟨v, rfl, hsort, ?_⟩
    intro digits hd
    have hmem : v ∈ k.partition :: k.sort.toList := by
      simp [hv]
    exact h.ranked digits (List.mem_filterMap.2 ⟨v, hmem, hd⟩)

end Placed

/-- Comparing the other way round gives the swapped order. -/
theorem compareKeys_swap (j k : Key) : compareKeys j k = (compareKeys k j).swap := by
  unfold compareKeys
  rw [Ordering.swap_then, ← compareValues_swap]
  congr 1
  cases j.sort <;> cases k.sort <;> try rfl
  exact compareValues_swap _ _

theorem compareKeys_self (k : Key) : compareKeys k k = .eq :=
  Ordering.eq_eq_of_eq_swap (compareKeys_swap k k)

theorem compareKeys_eq_gt_iff {j k : Key} : compareKeys j k = .gt ↔ compareKeys k j = .lt := by
  rw [compareKeys_swap j k, Ordering.swap_eq_gt]

/-- The keys of a schema that have a place. -/
abbrev PlacedKey (s : Schema) :=
  { key : Key // Placed s key }

instance (s : Schema) : Ord (PlacedKey s) := ⟨fun j k => compareKeys j.1 k.1⟩

/-- Keys by their partition values. -/
def comparePartitions (s : Schema) (j k : PlacedKey s) : Ordering :=
  compareValues j.1.partition k.1.partition

/-- Keys by their sort values. -/
def compareSorts (s : Schema) (j k : PlacedKey s) : Ordering :=
  match j.1.sort, k.1.sort with
  | some v, some w => compareValues v w
  | _, _ => .eq

instance (s : Schema) : Std.TransCmp (comparePartitions s) where
  eq_swap := compareValues_swap _ _
  isLE_trans {j k l} := j.2.partition.isLE_trans k.2.partition l.2.partition

instance (s : Schema) : Std.TransCmp (compareSorts s) where
  eq_swap {j k} := by
    unfold compareSorts
    cases j.1.sort <;> cases k.1.sort <;> try rfl
    exact compareValues_swap _ _
  isLE_trans {j k l} hjk hkl := by
    unfold compareSorts at *
    cases hf : s.sortKey with
    | none =>
      rw [j.2.sort_of_none hf]
      rfl
    | some f =>
      obtain ⟨v, hj, hv⟩ := j.2.sort_of_some hf
      obtain ⟨w, hk, hw⟩ := k.2.sort_of_some hf
      obtain ⟨u, hl, hu⟩ := l.2.sort_of_some hf
      simp only [hj, hk, hl] at hjk hkl ⊢
      exact hv.isLE_trans hw hu hjk hkl

/-- On placed keys, comparing partition values and then sort values is transitive. -/
instance transCmp_compareKeys (s : Schema) :
    Std.TransCmp (compare : PlacedKey s → PlacedKey s → Ordering) :=
  inferInstanceAs (Std.TransCmp (compareLex (comparePartitions s) (compareSorts s)))

namespace Placed

variable {s : Schema} {j k l : Key}

/-- What comes before what comes before a key comes before it. -/
theorem lt_trans (hj : Placed s j) (hk : Placed s k) (hl : Placed s l)
    (hjk : compareKeys j k = .lt) (hkl : compareKeys k l = .lt) : compareKeys j l = .lt := by
  show compare (⟨j, hj⟩ : PlacedKey s) ⟨l, hl⟩ = .lt
  exact Std.TransCmp.lt_trans (b := ⟨k, hk⟩) hjk hkl

theorem isLE_trans (hj : Placed s j) (hk : Placed s k) (hl : Placed s l)
    (hjk : (compareKeys j k).isLE = true) (hkl : (compareKeys k l).isLE = true) :
    (compareKeys j l).isLE = true := by
  show (compare (⟨j, hj⟩ : PlacedKey s) ⟨l, hl⟩).isLE = true
  exact Std.TransCmp.isLE_trans (b := ⟨k, hk⟩) hjk hkl

/-- Keys of one row compare alike. -/
theorem congr_left (hj : Placed s j) (hk : Placed s k) (hl : Placed s l)
    (hjk : compareKeys j k = .eq) : compareKeys j l = compareKeys k l := by
  show compare (⟨j, hj⟩ : PlacedKey s) ⟨l, hl⟩ = compare (⟨k, hk⟩ : PlacedKey s) ⟨l, hl⟩
  exact Std.TransCmp.congr_left hjk

/-- Placed keys are the same if they compare as equal. -/
theorem same_iff (hj : Placed s j) (hk : Placed s k) :
    j.same k = true ↔ compareKeys j k = .eq := by
  unfold Key.same compareKeys
  rw [Bool.and_eq_true, Ordering.then_eq_eq, hj.partition.same_iff hk.partition]
  refine and_congr_right fun _ => ?_
  cases hf : s.sortKey with
  | none => simp [hj.sort_of_none hf, hk.sort_of_none hf]
  | some f =>
    obtain ⟨v, hj', hv⟩ := hj.sort_of_some hf
    obtain ⟨w, hk', hw⟩ := hk.sort_of_some hf
    simpa only [hj', hk'] using hv.same_iff hw

end Placed

end Store

end ItemStore
