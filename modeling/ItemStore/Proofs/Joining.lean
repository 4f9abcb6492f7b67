import ItemStore.Query.Predicate

/-!
# Joined predicates

`Predicate.conjoin` and `Predicate.disjoin` merge groups of one kind and leave no group of one, so
what is joined from flat predicates is flat (`Joint.flat_join`) and makes its comparisons in the
order in which the parts make theirs (`Joint.comparisons_join`). A predicate that is flat already is
left as it is (`Joint.join_singleton`). What holds of both ways to join is said of a `Joint`.
-/

namespace ItemStore

namespace Predicate

/-- How the predicates of a group are joined. -/
inductive Joint where
  | and
  | or
  deriving DecidableEq

/-- The joint of a group. -/
def joint? : Predicate → Option Joint
  | compare _ => none
  | and _ => some .and
  | or _ => some .or

namespace Joint

/-- The group of some predicates. -/
def group : Joint → List Predicate → Predicate
  | and => Predicate.and
  | or => Predicate.or

/-- The parts that a predicate brings to a group. -/
def parts : Joint → Predicate → List Predicate
  | and => conjuncts
  | or => disjuncts

/-- Joins predicates, with groups of the same kind merged. -/
def join : Joint → List Predicate → Predicate
  | and => conjoin
  | or => disjoin

end Joint

/-- A group has two parts or more, and none of them is a group of its kind. -/
inductive Flat : Predicate → Prop where
  | compare (c : Comparison) : Flat (compare c)
  | group (j : Joint) {ps : List Predicate} (many : 2 ≤ ps.length)
      (others : ∀ p ∈ ps, p.joint? ≠ some j) (flat : ∀ p ∈ ps, Flat p) : Flat (j.group ps)

theorem comparisonsOf_eq (ps : List Predicate) : comparisonsOf ps = ps.flatMap comparisons := by
  induction ps with
  | nil => rfl
  | cons p ps ih => rw [comparisonsOf, List.flatMap_cons, ih]

namespace Joint

variable {j : Joint} {p : Predicate} {ps : List Predicate}

/-- Joining is one way for both kinds: a single part stands for itself, others make a group. -/
theorem join_eq (j : Joint) (ps : List Predicate) :
    j.join ps = match ps.flatMap j.parts with
      | [p] => p
      | ps => j.group ps := by
  cases j <;> rfl

@[simp] theorem parts_group (j : Joint) (ps : List Predicate) : j.parts (j.group ps) = ps := by
  cases j <;> rfl

theorem parts_of_ne (h : p.joint? ≠ some j) : j.parts p = [p] := by
  cases j <;> cases p <;> first | rfl | exact absurd rfl h

theorem joint?_group (j : Joint) (ps : List Predicate) : (j.group ps).joint? = some j := by
  cases j <;> rfl

/-- A predicate is a group of some kind, or all it brings to such a group is itself. -/
theorem eq_group_or_parts (j : Joint) (p : Predicate) :
    (∃ ps, p = j.group ps) ∨ p.joint? ≠ some j := by
  cases j <;> cases p <;> first | exact .inl ⟨_, rfl⟩ | exact .inr nofun

/-! ## Comparisons -/

theorem comparisons_group (j : Joint) (ps : List Predicate) :
    (j.group ps).comparisons = ps.flatMap comparisons := by
  cases j <;> exact comparisonsOf_eq ps

/-- The parts of a predicate have its comparisons, in order. -/
theorem comparisons_parts (j : Joint) (p : Predicate) :
    (j.parts p).flatMap comparisons = p.comparisons := by
  obtain ⟨ps, rfl⟩ | hne := eq_group_or_parts j p
  · rw [parts_group, comparisons_group]
  · rw [parts_of_ne hne, List.flatMap_singleton]

/-- Joining keeps all comparisons, in their order. -/
theorem comparisons_join (j : Joint) (ps : List Predicate) :
    (j.join ps).comparisons = ps.flatMap comparisons := by
  have hparts : (ps.flatMap j.parts).flatMap comparisons = ps.flatMap comparisons := by
    simp only [List.flatMap_assoc, comparisons_parts]
  rw [← hparts, join_eq]
  split
  · rename_i p heq
    rw [heq, List.flatMap_singleton]
  · exact comparisons_group j _

/-! ## Flat predicates -/

/-- A flat predicate is a flat group of some kind, or no group of that kind. -/
theorem flat_cases (j : Joint) (h : p.Flat) :
    (∃ ps, p = j.group ps ∧ 2 ≤ ps.length ∧ ∀ q ∈ ps, q.Flat ∧ q.joint? ≠ some j) ∨
      p.joint? ≠ some j := by
  cases h with
  | compare c => exact .inr nofun
  | @group i ps many others flat =>
    by_cases hj : i = j
    · subst hj
      exact .inl ⟨ps, rfl, many, fun q hq => ⟨flat q hq, others q hq⟩⟩
    · rw [joint?_group, ne_eq, Option.some.injEq]
      exact .inr hj

/-- The parts of a flat predicate are flat and no groups of the kind that they are parts for. -/
theorem flat_parts (j : Joint) (h : p.Flat) : j.parts p ≠ [] ∧
    ∀ q ∈ j.parts p, q.Flat ∧ q.joint? ≠ some j := by
  obtain ⟨ps, rfl, many, hps⟩ | hne := flat_cases j h
  · rw [parts_group]
    refine ⟨?_, hps⟩
    rintro rfl
    exact nomatch many
  · rw [parts_of_ne hne]
    exact ⟨nofun, List.forall_mem_singleton.2 ⟨h, hne⟩⟩

/-- What is joined from flat predicates is flat. -/
theorem flat_join (j : Joint) (hne : ps ≠ []) (h : ∀ p ∈ ps, p.Flat) : (j.join ps).Flat := by
  have hparts : ∀ q ∈ ps.flatMap j.parts, q.Flat ∧ q.joint? ≠ some j := by
    intro q hq
    obtain ⟨p, hp, hq⟩ := List.mem_flatMap.1 hq
    exact (flat_parts j (h p hp)).2 q hq
  have hsome : ps.flatMap j.parts ≠ [] := by
    obtain ⟨p, hp⟩ := List.exists_mem_of_ne_nil ps hne
    obtain ⟨q, hq⟩ := List.exists_mem_of_ne_nil _ (flat_parts j (h p hp)).1
    exact List.ne_nil_of_mem (List.mem_flatMap.2 ⟨p, hp, hq⟩)
  rw [join_eq]
  split
  · rename_i p heq
    exact (hparts p (by simp [heq])).1
  · rename_i hnot
    have hmany : 2 ≤ (ps.flatMap j.parts).length := by
      rcases heq : ps.flatMap j.parts with _ | ⟨a, _ | ⟨b, rest⟩⟩
      · exact absurd heq hsome
      · exact absurd heq (hnot a)
      · simp
    exact .group j hmany (fun q hq => (hparts q hq).2) fun q hq => (hparts q hq).1

/-- Parts that are no groups of the kind bring themselves. -/
theorem flatMap_parts (others : ∀ p ∈ ps, p.joint? ≠ some j) : ps.flatMap j.parts = ps := by
  induction ps with
  | nil => rfl
  | cons p ps ih =>
    obtain ⟨hp, hps⟩ := List.forall_mem_cons.1 others
    rw [List.flatMap_cons, parts_of_ne hp, ih hps, List.singleton_append]

/-- Joining two parts or more that are no groups of the kind only puts them into a group. -/
theorem join_of_others (many : 2 ≤ ps.length) (others : ∀ p ∈ ps, p.joint? ≠ some j) :
    j.join ps = j.group ps := by
  rw [join_eq, flatMap_parts others]
  split
  · simp at many
  · rfl

/-- What is joined from such parts has these parts. -/
theorem parts_join (others : ∀ p ∈ ps, p.joint? ≠ some j) : j.parts (j.join ps) = ps := by
  rw [join_eq, flatMap_parts others]
  split
  · exact parts_of_ne (others _ (.head _))
  · exact parts_group j ps

/-- Joining a flat predicate with nothing else leaves it as it is. -/
theorem join_singleton (j : Joint) (h : p.Flat) : j.join [p] = p := by
  rw [join_eq, List.flatMap_singleton]
  obtain ⟨ps, rfl, many, -⟩ | hne := flat_cases j h
  · rw [parts_group]
    split
    · simp at many
    · rfl
  · rw [parts_of_ne hne]

end Joint

end Predicate

end ItemStore
