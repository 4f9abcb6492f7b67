import Mathlib.Control.Monad.Basic
import ItemStore.Proofs.Joining
import ItemStore.Proofs.Translation

/-!
# Comparisons of the partition key

A conjunction is run by key if exactly one of its parts compares the partition key, as an equality.
Groups among the parts are not looked into. Main statement: the filter of such a condition makes all
the other comparisons of the partition key that the predicate makes, so it makes none if and only if
the predicate compares the partition key once, at whatever depth (`Condition.keyed_exactly`).
-/

namespace ItemStore

namespace Predicate

open Query.Condition

/-- The comparisons of a field, at any depth. -/
def comparisonsOn (field : String) (p : Predicate) : List Comparison :=
  p.comparisons.filter fun c => c.field = field

variable {field other : String}

theorem comparisonsOn_compare (c : Comparison) :
    (compare c).comparisonsOn field = (comparisonOn field (compare c)).toList := by
  by_cases hc : c.field = field <;> simp [comparisonsOn, comparisons, comparisonOn, hc]

/-- Joining keeps the comparisons of a field, in order. -/
theorem comparisonsOn_join (j : Joint) (ps : List Predicate) :
    (j.join ps).comparisonsOn field = ps.flatMap (comparisonsOn field) := by
  rw [comparisonsOn, Joint.comparisons_join, List.filter_flatMap]
  rfl

theorem comparisonsOn_and (ps : List Predicate) :
    (and ps).comparisonsOn field = ps.flatMap (comparisonsOn field) := by
  rw [comparisonsOn, comparisons, comparisonsOf_eq, List.filter_flatMap]
  rfl

/-- The comparisons of a field in some parts are the parts that compare it and those in the rest. -/
theorem flatMap_comparisonsOn_perm (ps : List Predicate) :
    (ps.flatMap (comparisonsOn field)).Perm (ps.filterMap (comparisonOn field) ++
      (ps.filter fun p => (comparisonOn field p).isNone).flatMap (comparisonsOn field)) := by
  induction ps with
  | nil => exact .refl _
  | cons p ps ih =>
    rw [List.flatMap_cons]
    cases h : comparisonOn field p with
    | none =>
      rw [List.filterMap_cons_none h, List.filter_cons_of_pos (by simp [h]), List.flatMap_cons]
      exact (ih.append_left _).trans (List.perm_append_comm_assoc _ _ _)
    | some c =>
      obtain ⟨rfl, -⟩ := comparisonOn_eq_some.1 h
      rw [List.filterMap_cons_some h, List.filter_cons_of_neg (by simp [h]), comparisonsOn_compare,
        h]
      exact ih.cons c

/-- Taking parts away that compare another field leaves the comparisons of the field. -/
theorem flatMap_comparisonsOn_filter (hne : other ≠ field) (ps : List Predicate) :
    (ps.filter fun p => (comparisonOn other p).isNone).flatMap (comparisonsOn field) =
      ps.flatMap (comparisonsOn field) := by
  induction ps with
  | nil => rfl
  | cons p ps ih =>
    cases h : comparisonOn other p with
    | none => rw [List.filter_cons_of_pos (by simp [h]), List.flatMap_cons, List.flatMap_cons, ih]
    | some c =>
      obtain ⟨rfl, -⟩ := comparisonOn_eq_some.1 h
      rw [List.filter_cons_of_neg (by simp [h]), List.flatMap_cons, comparisonsOn_compare,
        comparisonOn_eq_none_of_ne hne h, ih]
      rfl

end Predicate

namespace Query.Condition

open Predicate

variable {s : Schema} {p : Predicate} {parts : List Predicate} {c : Condition}

/-- The parts of a conjunction that compare the partition key are one equality with a value. -/
def PinsPartition (s : Schema) (parts : List Predicate) (v : Value) : Prop :=
  parts.filterMap (comparisonOn s.partitionKey.name) = [⟨s.partitionKey.name, .eq, .literal v⟩]

/-- A conjunction is split by the partition that it pins, and the comparisons of the partition key
are then those of the key and of the filter. -/
theorem keyed?_of_pinsPartition {v : Value} (h : PinsPartition s parts v) :
    ∃ sort r, keyed? s parts = some (filter (some ⟨v, sort⟩) r) ∧
      (⟨s.partitionKey.name, .eq, .literal v⟩ ::
          r.elim [] (comparisonsOn s.partitionKey.name)).Perm
        (parts.flatMap (comparisonsOn s.partitionKey.name)) := by
  have hrest : ∀ rest : List Predicate, (if rest.isEmpty then none else some (conjoin rest)).elim []
      (comparisonsOn s.partitionKey.name) = rest.flatMap (comparisonsOn s.partitionKey.name) := by
    rintro (_ | ⟨q, rest⟩)
    · rfl
    · exact comparisonsOn_join .and (q :: rest)
  rw [PinsPartition] at h
  rw [keyed?, h]
  refine ⟨_, _, rfl, ?_⟩
  refine .trans (.of_eq ?_) (flatMap_comparisonsOn_perm parts).symm
  rw [hrest, h, List.singleton_append]
  cases hs : s.sortKey with
  | none => simp
  | some f =>
    cases hsort : sortConditionOf f parts with
    | none => simp [hsort]
    | some d =>
      -- The sort comparison leaves the rest too, and it is no comparison of the partition key.
      have hleave := flatMap_comparisonsOn_filter (s.sort_ne f hs)
        (parts.filter fun p => (comparisonOn s.partitionKey.name p).isNone)
      rw [List.filter_filter] at hleave
      simpa [hsort, Bool.and_comm] using hleave

/-- Only a conjunction that pins a partition is split. -/
theorem pinsPartition_of_keyed? (h : keyed? s parts = some c) : ∃ v, PinsPartition s parts v := by
  unfold keyed? at h
  split at h
  · rename_i name v hpart
    have hmem : ⟨name, .eq, .literal v⟩ ∈ parts.filterMap (comparisonOn s.partitionKey.name) := by
      simp [hpart]
    obtain ⟨q, -, hq⟩ := List.mem_filterMap.1 hmem
    obtain rfl : name = s.partitionKey.name := (comparisonOn_eq_some.1 hq).2
    exact ⟨v, hpart⟩
  · cases h

/-- A conjunction that pins a partition becomes a keyed filter. -/
theorem filter_of_pinsPartition {v : Value} (h : ofPredicate s (.and parts) = .ok c)
    (hpins : PinsPartition s parts v) :
    ∃ sort r, c = filter (some ⟨v, sort⟩) r ∧
      (⟨s.partitionKey.name, .eq, .literal v⟩ ::
          r.elim [] (comparisonsOn s.partitionKey.name)).Perm
        ((Predicate.and parts).comparisonsOn s.partitionKey.name) := by
  obtain ⟨sort, r, hkeyed, hperm⟩ := keyed?_of_pinsPartition hpins
  rcases ofPredicate_cases h with ⟨_, hp, -⟩ | ⟨parts', hp, hc⟩ | ⟨hnone, -⟩
  · cases hp
  · obtain rfl := Predicate.and.inj hp
    refine ⟨sort, r, Option.some.inj (hc.symm.trans hkeyed), ?_⟩
    rwa [comparisonsOn_and]
  · rw [hnone parts rfl] at hkeyed
    cases hkeyed

/-- Nothing else becomes one. -/
theorem pinsPartition_of_filter {k : KeyCondition} {r : Option Predicate}
    (h : ofPredicate s p = .ok (filter (some k) r)) :
    ∃ parts v, p = .and parts ∧ PinsPartition s parts v := by
  rcases ofPredicate_cases h with ⟨_, -, hc⟩ | ⟨parts, hp, hc⟩ | ⟨-, hc⟩
  · cases hc
  · obtain ⟨v, hv⟩ := pinsPartition_of_keyed? hc
    exact ⟨parts, v, hp, hv⟩
  · cases hc

/-- A condition is a keyed filter if and only if its predicate is a conjunction with one part that
compares the partition key, and that is an equality. The comparisons of the partition key that the
predicate makes are then that equality and those of the filter. So the filter makes none if and only
if the predicate makes one only; one inside a group does not keep it from being run by key. -/
theorem keyed_exactly (h : ofPredicate s p = .ok c) :
    (∀ v, (∃ sort r, c = filter (some ⟨v, sort⟩) r) ↔
      ∃ parts, p = .and parts ∧ PinsPartition s parts v) ∧
    ∀ k r, c = filter (some k) r →
      (⟨s.partitionKey.name, .eq, .literal k.partition⟩ ::
          r.elim [] (comparisonsOn s.partitionKey.name)).Perm
        (p.comparisonsOn s.partitionKey.name) ∧
      ((∀ q ∈ r, ∀ d ∈ q.comparisons, d.field ≠ s.partitionKey.name) ↔
        (p.comparisonsOn s.partitionKey.name).length = 1) := by
  refine ⟨fun v => ⟨?_, ?_⟩, fun k r hc => ?_⟩
  · rintro ⟨sort, r, rfl⟩
    obtain ⟨parts, w, rfl, hpins⟩ := pinsPartition_of_filter h
    obtain ⟨_, _, hc, -⟩ := filter_of_pinsPartition h hpins
    obtain ⟨⟨rfl, rfl⟩, rfl⟩ : (v = w ∧ sort = _) ∧ r = _ := by
      simpa using hc
    exact ⟨parts, rfl, hpins⟩
  · rintro ⟨parts, rfl, hpins⟩
    obtain ⟨sort, r, hc, -⟩ := filter_of_pinsPartition h hpins
    exact ⟨sort, r, hc⟩
  · rw [hc] at h
    obtain ⟨parts, v, rfl, hpins⟩ := pinsPartition_of_filter h
    obtain ⟨sort, r', hc', hperm⟩ := filter_of_pinsPartition h hpins
    obtain ⟨rfl, rfl⟩ : k = ⟨v, sort⟩ ∧ r = r' := by
      simpa using hc'
    refine ⟨hperm, ?_⟩
    rw [← hperm.length_eq, List.length_cons, Nat.add_eq_right, List.length_eq_zero_iff]
    cases r with
    | none => simp
    | some q => simp [comparisonsOn]

end Query.Condition

/-! ## Readings of two sensors at once -/

namespace Sample

open Query

/-- A group that compares the partition key of readings once more. -/
def otherSensor : Predicate :=
  .or [.compare ⟨"sensor", .eq, .literal (.text "s2")⟩,
    .compare ⟨"value", .gt, .literal (.number "3")⟩]

/-- The readings of one sensor that are of another one or above a value. -/
def twoSensors : Predicate :=
  .and [.compare ⟨"sensor", .eq, .literal (.text "s1")⟩, otherSensor]

/-- A query for one sensor in which a group asks for another. -/
theorem keyed_exactly_twoSensors :
    Condition.ofPredicate readings twoSensors =
        .ok (.filter (some ⟨.text "s1", none⟩) (some otherSensor)) ∧
      (∃ parts, twoSensors = .and parts ∧
        Condition.PinsPartition readings parts (.text "s1")) ∧
      (⟨"sensor", .eq, .literal (.text "s1")⟩ :: otherSensor.comparisonsOn "sensor").Perm
        (twoSensors.comparisonsOn "sensor") ∧
      ¬ ∀ d ∈ otherSensor.comparisons, d.field ≠ "sensor" := by
  have hc : Condition.ofPredicate readings twoSensors =
      .ok (.filter (some ⟨.text "s1", none⟩) (some otherSensor)) := by
    rfl
  obtain ⟨hkeyed, hfilter⟩ := Condition.keyed_exactly hc
  obtain ⟨hperm, hnone⟩ := hfilter _ _ rfl
  have hmany : (twoSensors.comparisonsOn "sensor").length ≠ 1 := by
    decide
  refine ⟨hc, (hkeyed _).1 ⟨none, _, rfl⟩, hperm, fun h => hmany (hnone.1 ?_)⟩
  intro q hq
  obtain rfl := Option.some.inj hq
  exact h

/-- A query that compares the partition key once more, inside a group, is run by key, and its filter
compares the partition key. -/
theorem query_filters_by_partition :
    Condition.ofQuery readings "sensor = 's1' AND (sensor = 's2' OR value > 3)" (.positional []) =
        .ok (.filter (some ⟨.text "s1", none⟩) (some otherSensor)) ∧
      ∃ d ∈ otherSensor.comparisons, d.field = readings.partitionKey.name := by
  have hlex : lex "sensor = 's1' AND (sensor = 's2' OR value > 3)" = .ok [⟨.name "sensor", 0⟩,
      ⟨.op .eq, 7⟩, ⟨.text "s1", 9⟩, ⟨.and, 14⟩, ⟨.openGroup, 18⟩, ⟨.name "sensor", 19⟩,
      ⟨.op .eq, 26⟩, ⟨.text "s2", 28⟩, ⟨.or, 33⟩, ⟨.name "value", 36⟩, ⟨.op .gt, 42⟩,
      ⟨.number "3", 44⟩, ⟨.closeGroup, 45⟩] := by
    decide +kernel
  have hparse : parse "sensor = 's1' AND (sensor = 's2' OR value > 3)" = .ok twoSensors := by
    rw [parse, hlex]
    rfl
  refine ⟨?_, ⟨"sensor", .eq, .literal (.text "s2")⟩, .head _, rfl⟩
  rw [Condition.ofQuery_eq, Condition.boundPredicate, Condition.bindText, hparse]
  · rfl
  · simp

end Sample

end ItemStore
