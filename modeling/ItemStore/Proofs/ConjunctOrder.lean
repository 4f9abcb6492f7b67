import ItemStore.Proofs.Joining
import ItemStore.Proofs.Translation

/-!
# The order of conjuncts

A conjunction is split by how many of its parts compare the partition key, and the sort key, and by
what these say. Neither depends on the order of the parts (`keyed?_of_perm`). Main statement: the
same parts in another order become a condition with the same key, whose filter has the same
conjuncts, each in the order of their own conjunction (`ofPredicate_of_perm`).
-/

namespace ItemStore

namespace Query.Condition

open Predicate

variable {s : Schema} {parts parts' : List Predicate}

/-! ## Splitting parts in another order -/

/-- Two orders of one list are the same, unless there are two members or more. -/
theorem eq_or_many_of_perm {α : Type} {l l' : List α} (h : l.Perm l') :
    l = l' ∨ 2 ≤ l.length ∧ 2 ≤ l'.length := by
  match l with
  | [] => exact .inl (List.nil_perm.1 h).symm
  | [a] => exact .inl (List.singleton_perm.1 h)
  | a :: b :: rest =>
    refine .inr ⟨?_, ?_⟩
    · simp
    · simp [← h.length_eq]

/-- Two comparisons of the sort key are no sort condition. -/
theorem sortConditionOf_of_many {f : Field}
    (h : 2 ≤ (parts.filterMap (comparisonOn f.name)).length) : sortConditionOf f parts = none := by
  unfold sortConditionOf
  split
  · rename_i heq
    rw [heq] at h
    exact absurd h (by simp)
  · rfl

/-- Two comparisons of the partition key do not say which partition to read. -/
theorem keyed?_of_many
    (h : 2 ≤ (parts.filterMap (comparisonOn s.partitionKey.name)).length) :
    keyed? s parts = none := by
  unfold keyed?
  split
  · rename_i heq
    rw [heq] at h
    exact absurd h (by simp)
  · rfl

/-- The sort comparison that goes to the key is the same in any order. -/
theorem sortConditionOf_of_perm (h : parts.Perm parts') (f : Field) :
    sortConditionOf f parts = sortConditionOf f parts' := by
  obtain heq | ⟨hmany, hmany'⟩ := eq_or_many_of_perm (h.filterMap (comparisonOn f.name))
  · rw [sortConditionOf, sortConditionOf, heq]
  · rw [sortConditionOf_of_many hmany, sortConditionOf_of_many hmany']

/-- The filter that is left of some parts. -/
def remaining (rest : List Predicate) : Option Predicate :=
  if rest.isEmpty then none else some (conjoin rest)

/-- Two orders of the same parts are both split or neither is. The key is then the same, and the
same parts are left, in the order in which they were. -/
theorem keyed?_of_perm (h : parts.Perm parts') :
    keyed? s parts = none ∧ keyed? s parts' = none ∨
      ∃ key keep, keyed? s parts = some (filter (some key) (remaining (parts.filter keep))) ∧
        keyed? s parts' = some (filter (some key) (remaining (parts'.filter keep))) := by
  have hpartition := h.filterMap (comparisonOn s.partitionKey.name)
  obtain heq | ⟨hmany, hmany'⟩ := eq_or_many_of_perm hpartition
  · have hsort : (fun f => (sortConditionOf f parts).map fun c => (f, c)) =
        fun f => (sortConditionOf f parts').map fun c => (f, c) :=
      funext fun f => by rw [sortConditionOf_of_perm h]
    unfold keyed?
    rw [heq, hsort]
    split
    · exact .inr ⟨_, _, rfl, rfl⟩
    · exact .inl ⟨rfl, rfl⟩
  · exact .inl ⟨keyed?_of_many hmany, keyed?_of_many hmany'⟩

/-! ## Conditions of parts in another order -/

/-- A conjunction in another order has the same comparisons in another order. -/
theorem comparisons_of_perm (h : parts.Perm parts') :
    (Predicate.and parts).comparisons.Perm (Predicate.and parts').comparisons := by
  rw [comparisons, comparisons, comparisonsOf_eq, comparisonsOf_eq]
  exact h.flatMap_right comparisons

/-- In any order the parts have a condition or have none. -/
theorem exists_ofPredicate_of_perm (h : parts.Perm parts') :
    (∃ c, ofPredicate s (.and parts) = .ok c) ↔ ∃ c, ofPredicate s (.and parts') = .ok c := by
  rw [exists_ofPredicate_iff, exists_ofPredicate_iff]
  exact forall_congr' fun d => imp_congr_left (comparisons_of_perm h).mem_iff

/-- The condition of a conjunction is its split, or filters everything by it. -/
theorem ofPredicate_and {c : Condition} (h : ofPredicate s (.and parts) = .ok c) :
    c = (keyed? s parts).getD (filter none (some (.and parts))) := by
  rcases ofPredicate_cases h with ⟨_, hp, -⟩ | ⟨parts', hp, hc⟩ | ⟨hnone, rfl⟩
  · cases hp
  · obtain rfl := Predicate.and.inj hp
    rw [hc]
    rfl
  · rw [hnone parts rfl]
    rfl

/-- Conjunctions of two parts or more that are no conjunctions themselves are left as they are. -/
theorem remaining_eq (many : 2 ≤ parts.length) (others : ∀ p ∈ parts, p.joint? ≠ some .and) :
    remaining parts = some (.and parts) := by
  have hjoin : conjoin parts = .and parts := Joint.join_of_others many others
  have hempty : parts.isEmpty = false := by
    cases parts with
    | nil => simp at many
    | cons p parts => rfl
  rw [remaining, hempty, hjoin]
  rfl

/-- Another order of what is left is another order of the conjuncts of the filter. -/
theorem rel_remaining {rest rest' : List Predicate} (h : rest.Perm rest')
    (others : ∀ p ∈ rest, p.joint? ≠ some .and) :
    Option.Rel (fun q q' => q.conjuncts.Perm q'.conjuncts) (remaining rest) (remaining rest') := by
  have others' : ∀ p ∈ rest', p.joint? ≠ some .and := fun p hp => others p (h.mem_iff.2 hp)
  have hparts : (conjoin rest).conjuncts = rest := Joint.parts_join others
  have hparts' : (conjoin rest').conjuncts = rest' := Joint.parts_join others'
  have hempty : rest.isEmpty = rest'.isEmpty := by
    rw [Bool.eq_iff_iff, List.isEmpty_iff, List.isEmpty_iff]
    exact ⟨fun hnil => List.nil_perm.1 (hnil ▸ h), fun hnil => List.perm_nil.1 (hnil ▸ h)⟩
  unfold remaining
  rw [← hempty]
  split
  · exact .none
  · refine .some ?_
    rwa [hparts, hparts']

/-- The conditions of two orders of the same parts differ in the order of what they filter by, and
in nothing else. -/
structure SameButOrder (parts parts' : List Predicate) (c c' : Condition) : Prop where
  operation : c.operation = c'.operation
  key : c.key? = c'.key?
  /-- Both filter or neither does, by the same conjuncts in some order. -/
  conjuncts : Option.Rel (fun q q' => q.conjuncts.Perm q'.conjuncts) c.residual? c'.residual?
  /-- The same parts are left of both, each time in the order in which they were. -/
  order : ∃ keep : Predicate → Bool, c.residual? = remaining (parts.filter keep) ∧
    c'.residual? = remaining (parts'.filter keep)

/-- The order of conjuncts does not decide how a conjunction is run. The same parts in another order
have a condition if they have one in the first, with the same operation and the same key. What is
left for the filter are the same parts, in the order of each conjunction. -/
theorem ofPredicate_of_perm (s : Schema) {parts parts' : List Predicate}
    (many : 2 ≤ parts.length) (others : ∀ p ∈ parts, p.joint? ≠ some .and)
    (h : parts.Perm parts') :
    ((∃ c, ofPredicate s (.and parts) = .ok c) ↔ ∃ c, ofPredicate s (.and parts') = .ok c) ∧
      ∀ c c', ofPredicate s (.and parts) = .ok c → ofPredicate s (.and parts') = .ok c' →
        SameButOrder parts parts' c c' := by
  refine ⟨exists_ofPredicate_of_perm h, fun c c' hc hc' => ?_⟩
  have many' : 2 ≤ parts'.length := h.length_eq ▸ many
  have others' : ∀ p ∈ parts', p.joint? ≠ some .and := fun p hp => others p (h.mem_iff.2 hp)
  -- Either way the two conditions have one key, and filter by what passes one test.
  obtain ⟨key, keep, rfl, rfl⟩ : ∃ key keep, c = filter key (remaining (parts.filter keep)) ∧
      c' = filter key (remaining (parts'.filter keep)) := by
    rw [ofPredicate_and hc, ofPredicate_and hc']
    obtain ⟨hnone, hnone'⟩ | ⟨key, keep, hkeyed, hkeyed'⟩ := keyed?_of_perm (s := s) h
    · have hall : ∀ l : List Predicate, l.filter (fun _ => true) = l := fun l =>
        List.filter_eq_self.2 fun _ _ => rfl
      refine ⟨none, fun _ => true, ?_, ?_⟩
      · rw [hnone, hall, remaining_eq many others]
        rfl
      · rw [hnone', hall, remaining_eq many' others']
        rfl
    · exact ⟨some key, keep, by rw [hkeyed]; rfl, by rw [hkeyed']; rfl⟩
  have hrel := rel_remaining (h.filter keep) fun p hp => others p (List.mem_filter.1 hp).1
  refine ⟨?_, rfl, hrel, keep, rfl, rfl⟩
  cases key <;> rfl

end Query.Condition

/-! ## Readings of one sensor, asked for in two ways -/

namespace Sample

open Query Predicate

/-- The late readings of one sensor that are high or of an unknown value, from the filter on. -/
def highLate : List Predicate :=
  [.or [.compare ⟨"value", .gt, .literal (.number "3")⟩, .compare ⟨"value", .eq, .literal .null⟩],
    .compare ⟨"ts", .ge, .literal (.number "10")⟩,
    .compare ⟨"value", .ne, .literal (.number "5")⟩,
    .compare ⟨"sensor", .eq, .literal (.text "s1")⟩]

/-- Four conjuncts and the same from the last to the first. -/
theorem ofPredicate_of_perm_highLate :
    2 ≤ highLate.length ∧ (∀ p ∈ highLate, p.joint? ≠ some .and) ∧
      highLate.Perm highLate.reverse ∧
      ∃ c c', Condition.ofPredicate readings (.and highLate) = .ok c ∧
        Condition.ofPredicate readings (.and highLate.reverse) = .ok c' ∧
        Condition.SameButOrder highLate highLate.reverse c c' ∧
        c.key? = some ⟨.text "s1", some ⟨.ge, .number "10"⟩⟩ := by
  have many : 2 ≤ highLate.length := by decide
  have others : ∀ p ∈ highLate, p.joint? ≠ some .and := by
    simp [highLate, joint?]
  have h : highLate.Perm highLate.reverse := (List.reverse_perm highLate).symm
  obtain ⟨hiff, hsame⟩ := Condition.ofPredicate_of_perm readings many others h
  have hc : Condition.ofPredicate readings (.and highLate) = .ok (.filter
      (some ⟨.text "s1", some ⟨.ge, .number "10"⟩⟩)
      (some (.and [.or [.compare ⟨"value", .gt, .literal (.number "3")⟩,
          .compare ⟨"value", .eq, .literal .null⟩],
        .compare ⟨"value", .ne, .literal (.number "5")⟩]))) := by
    rfl
  obtain ⟨c', hc'⟩ := hiff.1 ⟨_, hc⟩
  exact ⟨many, others, h, _, c', hc, hc', hsame _ _ hc hc', rfl⟩

end Sample

end ItemStore
