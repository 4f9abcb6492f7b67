import ItemStore.Store.Selection

/-!
# A condition selects what its predicate holds of

`Condition.ofPredicate` turns a predicate into a condition whose key part and filter are run one
after the other. Main statement: an item is selected by the key and passes the filter if and only
if the predicate holds of it, for every item, with or without its key fields.

A group holds as `List.all` or `List.any` of its children (`holds_and`, `holds_or`), and joining
groups keeps what they say (`holds_conjoin`). A conjunction is split by the field that its
comparisons are on (`all_holds_eq`): those on the field, and the rest. The split by the partition
key and then by the sort key gives the key part (`KeyCondition.selects_eq`) and the filter.
-/

namespace ItemStore

namespace Predicate

variable (item : Item)

@[simp] theorem holds_compare (c : Comparison) : (compare c).holds item = c.holds item := by
  rw [holds]

theorem allHold_eq_all : ∀ ps : List Predicate, allHold item ps = ps.all (holds item)
  | [] => by simp [allHold]
  | p :: ps => by simp [allHold, allHold_eq_all ps]

theorem anyHolds_eq_any : ∀ ps : List Predicate, anyHolds item ps = ps.any (holds item)
  | [] => by simp [anyHolds]
  | p :: ps => by simp [anyHolds, anyHolds_eq_any ps]

@[simp] theorem holds_and (ps : List Predicate) : (and ps).holds item = ps.all (holds item) := by
  rw [holds, allHold_eq_all]

@[simp] theorem holds_or (ps : List Predicate) : (or ps).holds item = ps.any (holds item) := by
  rw [holds, anyHolds_eq_any]

section Join

variable {f : Predicate → Bool}

/-- Merging groups does not change what a conjunction says, in whatever way it says it. -/
theorem all_conjoin (hand : ∀ ps, f (and ps) = ps.all f) (ps : List Predicate) :
    f (conjoin ps) = ps.all f := by
  have hparts : ∀ p, p.conjuncts.all f = f p := by
    intro p
    cases p <;> simp [conjuncts, hand]
  have hflat : (ps.flatMap conjuncts).all f = ps.all f := by
    rw [List.all_flatMap]
    exact congrArg _ (funext hparts)
  unfold conjoin
  split
  · rename_i p hp
    rw [← hflat, hp]
    simp
  · rw [hand, hflat]

theorem any_disjoin (hor : ∀ ps, f (or ps) = ps.any f) (ps : List Predicate) :
    f (disjoin ps) = ps.any f := by
  have hparts : ∀ p, p.disjuncts.any f = f p := by
    intro p
    cases p <;> simp [disjuncts, hor]
  have hflat : (ps.flatMap disjuncts).any f = ps.any f := by
    rw [List.any_flatMap]
    exact congrArg _ (funext hparts)
  unfold disjoin
  split
  · rename_i p hp
    rw [← hflat, hp]
    simp
  · rw [hor, hflat]

end Join

theorem holds_conjoin (ps : List Predicate) : (conjoin ps).holds item = ps.all (holds item) :=
  all_conjoin (holds_and item) ps

end Predicate

namespace Query

open Predicate

/-! ## Splitting a conjunction -/

namespace Condition

/-- The comparison on a field is a part that compares it. -/
theorem comparisonOn_eq_some {field : String} {p : Predicate} {c : Comparison} :
    comparisonOn field p = some c ↔ p = .compare c ∧ c.field = field := by
  cases p with
  | compare d =>
    rw [comparisonOn]
    by_cases hd : d.field = field
    · simp only [hd, if_pos, Option.some.injEq, Predicate.compare.injEq]
      exact ⟨fun h => ⟨h, h ▸ hd⟩, And.left⟩
    · simp only [hd, if_neg, not_false_iff, Predicate.compare.injEq]
      exact ⟨nofun, fun ⟨h, hc⟩ => absurd (h ▸ hc) hd⟩
  | and _ => simp [comparisonOn]
  | or _ => simp [comparisonOn]

/-- A conjunct compares one field only. -/
theorem comparisonOn_eq_none_of_ne {f g : String} (hne : g ≠ f) {p : Predicate} {c : Comparison}
    (h : comparisonOn g p = some c) : comparisonOn f p = none := by
  obtain ⟨rfl, hc⟩ := comparisonOn_eq_some.1 h
  simp [comparisonOn, hc, hne]

/-- A conjunction says what its comparisons on a field say, and what the rest says. -/
theorem all_holds_eq (item : Item) (field : String) (ps : List Predicate) :
    ps.all (holds item) = ((ps.filterMap (comparisonOn field)).all (Comparison.holds item) &&
      (ps.filter fun p => (comparisonOn field p).isNone).all (holds item)) := by
  induction ps with
  | nil => rfl
  | cons p ps ih =>
    rw [List.all_cons, ih]
    cases h : comparisonOn field p with
    | none => simp [h, Bool.and_left_comm]
    | some c =>
      obtain ⟨rfl, -⟩ := comparisonOn_eq_some.1 h
      simp [h, Bool.and_assoc]

/-- Taking the comparisons on one field away leaves those on another. -/
theorem filterMap_filter_isNone {f g : String} (hne : g ≠ f) (ps : List Predicate) :
    (ps.filter fun p => (comparisonOn f p).isNone).filterMap (comparisonOn g) =
      ps.filterMap (comparisonOn g) := by
  rw [List.filterMap_filter]
  congr 1
  funext p
  cases h : comparisonOn g p with
  | none => simp
  | some c => simp [comparisonOn_eq_none_of_ne hne h]

/-- With one comparison on a field, a conjunction says that one and the rest. -/
theorem all_holds_of_only (item : Item) {field name : String} {op : CompareOp} {v : Value}
    {ps : List Predicate} (h : ps.filterMap (comparisonOn field) = [⟨name, op, .literal v⟩]) :
    ps.all (holds item) = (op.holds (item.get? field) v &&
      (ps.filter fun p => (comparisonOn field p).isNone).all (holds item)) := by
  have hmem : ⟨name, op, .literal v⟩ ∈ ps.filterMap (comparisonOn field) := by simp [h]
  obtain ⟨p, -, hp⟩ := List.mem_filterMap.1 hmem
  obtain rfl : name = field := (comparisonOn_eq_some.1 hp).2
  rw [all_holds_eq item name ps, h]
  simp [Comparison.holds]

/-- A sort condition comes of the only comparison of the sort key. -/
theorem sortConditionOf_eq_some {f : Field} {ps : List Predicate} {c : SortCondition}
    (h : sortConditionOf f ps = some c) :
    ∃ name, ps.filterMap (comparisonOn f.name) = [⟨name, c.op, .literal c.value⟩] := by
  unfold sortConditionOf at h
  split at h
  · rename_i name op v heq
    split at h
    · obtain rfl := Option.some.inj h
      exact ⟨name, heq⟩
    · simp at h
  · simp at h

end Condition

/-- The partition part of a key condition is an equality, and its sort part a comparison. -/
theorem KeyCondition.selects_eq (s : Schema) (k : KeyCondition) (item : Item) :
    k.selects s item = (CompareOp.eq.holds (item.get? s.partitionKey.name) k.partition &&
      match k.sort, s.sortKey with
      | some c, some f => c.op.holds (item.get? f.name) c.value
      | _, _ => true) := by
  unfold KeyCondition.selects CompareOp.holds
  cases item.get? s.partitionKey.name <;> rfl

namespace Condition

@[simp] theorem selects_filter (s : Schema) (k : Option KeyCondition) (p : Option Predicate)
    (item : Item) : (filter k p).selects s item = k.all fun k => k.selects s item :=
  rfl

@[simp] theorem passes_filter (k : Option KeyCondition) (p : Option Predicate) (item : Item) :
    (filter k p).passes item = p.all (holds item) :=
  rfl

/-- What is left of a conjunction, joined again, or no filter if nothing is. -/
theorem all_rest (item : Item) (rest : List Predicate) :
    (if rest.isEmpty then none else some (conjoin rest)).all (holds item) =
      rest.all (holds item) := by
  cases rest with
  | nil => rfl
  | cons p ps => simpa using holds_conjoin item (p :: ps)

/-- The split of a conjunction into key and filter keeps what it says. -/
theorem selects_and_passes_of_keyed? {s : Schema} {ps : List Predicate} {c : Condition}
    (h : keyed? s ps = some c) (item : Item) :
    (c.selects s item && c.passes item) = ps.all (holds item) := by
  unfold keyed? at h
  split at h
  case h_2 => simp at h
  rename_i name v hpart
  obtain rfl := Option.some.inj h
  rw [selects_filter, passes_filter, all_rest, Option.all_some, KeyCondition.selects_eq,
    all_holds_of_only item hpart, Bool.and_assoc]
  congr 1
  cases hs : s.sortKey with
  | none => simp
  | some f =>
    cases hc : sortConditionOf f ps with
    | none => simp [hc]
    | some c =>
      obtain ⟨name', hsort⟩ := sortConditionOf_eq_some hc
      rw [← filterMap_filter_isNone (s.sort_ne f hs)] at hsort
      rw [all_holds_of_only item hsort, List.filter_filter]
      simp [hc, Bool.and_comm]

/-! ## When there is a condition -/

/-- A comparison is accepted if its field is declared and its operand is a value. -/
theorem check_eq_ok_iff {s : Schema} {c : Comparison} :
    check s c = .ok () ↔ s.hasField c.field = true ∧ c.operand.literal?.isSome = true := by
  obtain ⟨field, op, operand⟩ := c
  unfold check
  by_cases h : s.hasField field = true
  · cases operand <;> simp [h, Operand.literal?]
  · simp [h]

/-- A check of all elements succeeds if it does for each. -/
theorem forM_eq_ok_iff {α ε : Type} {f : α → Except ε Unit} :
    ∀ {l : List α}, l.forM f = .ok () ↔ ∀ a ∈ l, f a = .ok ()
  | [] => by simp [pure, Except.pure]
  | a :: l => by
    rw [List.forall_mem_cons, ← forM_eq_ok_iff]
    show (f a >>= fun _ => l.forM f) = _ ↔ _
    cases f a <;> simp [bind, Except.bind]

/-- A predicate has a condition if its fields are declared and its parameters bound. -/
theorem exists_ofPredicate_iff {s : Schema} {p : Predicate} :
    (∃ c, ofPredicate s p = .ok c) ↔
      ∀ d ∈ p.comparisons, s.hasField d.field = true ∧ d.operand.literal?.isSome = true := by
  simp only [← check_eq_ok_iff, ← forM_eq_ok_iff]
  unfold ofPredicate
  cases p.comparisons.forM (check s) with
  | error e => simp [bind, Except.bind]
  | ok u =>
    refine ⟨fun _ => rfl, fun _ => ?_⟩
    simp only [bind, Except.bind]
    split <;> exact ⟨_, rfl⟩

/-- A condition looks up the partition that its predicate asks for, or is the split of a
conjunction, or filters everything by the predicate. -/
theorem ofPredicate_cases {s : Schema} {p : Predicate} {c : Condition}
    (h : ofPredicate s p = .ok c) :
    (∃ v, p = .compare ⟨s.partitionKey.name, .eq, .literal v⟩ ∧ c = keyEquals v) ∨
      (∃ parts, p = .and parts ∧ keyed? s parts = some c) ∨
      (∀ parts, p = .and parts → keyed? s parts = none) ∧ c = filter none (some p) := by
  unfold ofPredicate at h
  cases hcheck : p.comparisons.forM (check s) with
  | error e => simp [hcheck, bind, Except.bind] at h
  | ok u =>
    simp only [hcheck, bind, Except.bind, pure, Except.pure] at h
    split at h
    · rename_i field v
      obtain rfl := Except.ok.inj h
      split
      · rename_i hfield
        exact .inl ⟨v, by rw [hfield], rfl⟩
      · exact .inr (.inr ⟨nofun, rfl⟩)
    · rename_i parts
      obtain rfl := Except.ok.inj h
      cases hk : keyed? s parts with
      | none => exact .inr (.inr ⟨fun _ hparts => Predicate.and.inj hparts ▸ hk, rfl⟩)
      | some c => exact .inr (.inl ⟨parts, rfl, hk⟩)
    · rename_i hand
      obtain rfl := Except.ok.inj h
      exact .inr (.inr ⟨fun parts hparts => absurd hparts (hand parts), rfl⟩)

/-- What a condition selects and passes is what its predicate holds of. -/
theorem selects_and_passes_of_ofPredicate {s : Schema} {p : Predicate} {c : Condition}
    (h : ofPredicate s p = .ok c) (item : Item) :
    (c.selects s item && c.passes item) = p.holds item := by
  rcases ofPredicate_cases h with ⟨v, rfl, rfl⟩ | ⟨parts, rfl, hk⟩ | ⟨-, rfl⟩
  · simp [selects, passes, key?, residual?, KeyCondition.selects_eq, Comparison.holds]
  · simpa using selects_and_passes_of_keyed? hk item
  · simp

/-- Translation keeps meaning. A predicate without parameters has a condition if and only if its
fields are declared, and then an item is selected by key and passes the filter if and only if the
predicate holds of it. -/
theorem ofPredicate_keeps_meaning (s : Schema) (p : Predicate)
    (hliteral : ∀ d ∈ p.comparisons, d.operand.literal?.isSome = true) :
    ((∃ c, ofPredicate s p = .ok c) ↔ ∀ d ∈ p.comparisons, s.hasField d.field = true) ∧
      ∀ c, ofPredicate s p = .ok c → ∀ item,
        (c.selects s item && c.passes item) = p.holds item := by
  refine ⟨?_, fun c hc item => selects_and_passes_of_ofPredicate hc item⟩
  rw [exists_ofPredicate_iff]
  exact forall₂_congr fun d hd => and_iff_left (hliteral d hd)

/-! ## Query texts -/

/-- The predicate of a query text, with the values put in. -/
def bindText (text : String) (bindings : Bindings) : Except Error Predicate := do
  let p ← (parse text).mapError .badSyntax
  (bindings.bind p).mapError .binding

/-- The predicate that a query asks for. A text that says nothing about its single value asks for
that partition. -/
def boundPredicate (s : Schema) (text : String) : Bindings → Except Error Predicate
  | .positional [v] =>
    if isShorthand text 1 then .ok (.compare ⟨s.partitionKey.name, .eq, .literal v⟩)
    else bindText text (.positional [v])
  | bindings => bindText text bindings

theorem ofText_eq (s : Schema) (text : String) (bindings : Bindings) :
    ofText s text bindings = bindText text bindings >>= ofPredicate s := by
  rw [ofText, bindText, bind_assoc]

/-- An equality with the partition key is read by key. -/
theorem ofPredicate_partition (s : Schema) (v : Value) :
    ofPredicate s (.compare ⟨s.partitionKey.name, .eq, .literal v⟩) = .ok (keyEquals v) := by
  have hfield : s.hasField s.partitionKey.name = true := by
    rw [Schema.hasField, Schema.field?, List.find?_isSome]
    exact ⟨s.partitionKey, s.partition_mem, by simp⟩
  have hcheck : check s ⟨s.partitionKey.name, .eq, .literal v⟩ = .ok () :=
    check_eq_ok_iff.2 ⟨hfield, rfl⟩
  have hall : (comparisons (.compare ⟨s.partitionKey.name, .eq, .literal v⟩)).forM (check s) =
      .ok () := by
    rw [forM_eq_ok_iff, comparisons]
    exact List.forall_mem_singleton.2 hcheck
  rw [ofPredicate, hall]
  simp only [bind, Except.bind, if_true]
  rfl

/-- A query's condition is that of the predicate that it asks for. -/
theorem ofQuery_eq (s : Schema) (text : String) (bindings : Bindings) :
    ofQuery s text bindings = boundPredicate s text bindings >>= ofPredicate s := by
  unfold ofQuery
  split
  · rename_i v
    rw [boundPredicate]
    split
    · exact (ofPredicate_partition s v).symm
    · exact ofText_eq s text _
  · rename_i h
    rw [boundPredicate]
    · exact ofText_eq s text bindings
    · exact h

end Condition

end Query

/-! ## A table of readings -/

namespace Sample

open Query

/-- Readings of a sensor, sorted by time. -/
def readings : Schema where
  entity := "Reading"
  table := "sensor_readings"
  fields := [⟨"sensor", .string⟩, ⟨"ts", .number⟩, ⟨"value", .number⟩]
  partitionKey := ⟨"sensor", .string⟩
  sortKey := some ⟨"ts", .number⟩
  entity_ne := by decide
  names_nodup := by decide
  partition_mem := by decide
  partition_isKeyType := by decide
  sort_mem := by decide
  sort_isKeyType := by decide
  sort_ne := by decide

/-- The readings of one sensor from a time on that have one of two values. -/
def recent : Predicate :=
  .and [.compare ⟨"value", .ne, .literal (.number "0")⟩,
    .compare ⟨"ts", .ge, .literal (.number "10")⟩,
    .compare ⟨"sensor", .eq, .literal (.text "s1")⟩,
    .or [.compare ⟨"value", .eq, .literal (.number "1")⟩, .and []]]

/-- A query by key with a bound for the sort key and a filter. -/
theorem ofPredicate_keeps_meaning_recent :
    (∀ d ∈ recent.comparisons, d.operand.literal?.isSome = true) ∧
      ∃ c, Condition.ofPredicate readings recent = .ok c ∧
        ∀ item, (c.selects readings item && c.passes item) = recent.holds item := by
  have hliteral : ∀ d ∈ recent.comparisons, d.operand.literal?.isSome = true := by decide
  have h := Condition.ofPredicate_keeps_meaning readings recent hliteral
  obtain ⟨c, hc⟩ := h.1.2 (by decide)
  exact ⟨hliteral, c, hc, h.2 c hc⟩

end Sample

end ItemStore
