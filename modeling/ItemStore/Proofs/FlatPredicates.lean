import ItemStore.Proofs.ComposedQueries

/-!
# Predicates stay flat

A group has two parts or more, and none of them is a group of its kind (`Predicate.Flat`). Main
statement: the predicate of a text is flat, binding and translation keep predicates flat, and so
does joining, which never changes what the parts say (`Predicate.stays_flat`).

Binding replaces operands and leaves the groups as they are, so it keeps a predicate flat by
induction on how the predicate is flat. What translation leaves for the filter is the whole
predicate or some parts of a conjunction, joined again.
-/

namespace ItemStore

namespace Predicate

open Query

variable {values : Placeholder → Option Value} {p q : Predicate} {ps : List Predicate}

/-! ## Values -/

theorem joint?_substitute (p : Predicate) : (p.substitute values).joint? = p.joint? := by
  cases p <;> rfl

/-- A group is filled part by part. -/
theorem substitute_group (j : Joint) (ps : List Predicate) :
    (j.group ps).substitute values = j.group (ps.map (substitute values)) := by
  rw [← substituteAll_eq_map]
  cases j <;> rfl

/-- Values for parameters leave the groups as they are. -/
theorem Flat.substitute (h : p.Flat) : (p.substitute values).Flat := by
  induction h with
  | compare c => exact .compare _
  | group j many others _ ih =>
    rw [substitute_group]
    refine .group j (by rwa [List.length_map]) (List.forall_mem_map.2 fun q hq => ?_)
      (List.forall_mem_map.2 ih)
    rw [joint?_substitute]
    exact others q hq

/-- Binding keeps a predicate flat. -/
theorem Flat.bind {b : Bindings} (h : p.Flat) (hq : b.bind p = .ok q) : q.Flat := by
  obtain ⟨fault, -, hbind⟩ | ⟨-, hbind⟩ := b.bind_cases p
  · rw [hbind] at hq
    cases hq
  · obtain rfl := Except.ok.inj (hbind.symm.trans hq)
    exact h.substitute

/-! ## Filters -/

/-- A part of a flat conjunction is flat, and so are some of them joined again. -/
theorem Flat.conjoin_of_subset {rest : List Predicate} (h : (Predicate.and ps).Flat)
    (hne : rest ≠ []) (hrest : rest ⊆ ps) : (conjoin rest).Flat :=
  Joint.flat_join .and hne fun q hq => ((Joint.flat_parts .and h).2 q (hrest hq)).1

/-- The filter of a flat predicate is flat. -/
theorem Flat.residual? {s : Schema} {c : Condition} (h : p.Flat)
    (hc : Condition.ofPredicate s p = .ok c) (hq : q ∈ c.residual?) : q.Flat := by
  rcases Condition.ofPredicate_cases hc with ⟨v, -, rfl⟩ | ⟨parts, rfl, hk⟩ | ⟨-, rfl⟩
  · cases hq
  · obtain ⟨rest, hne, hsubset, rfl⟩ := Condition.residual?_of_keyed? hk hq
    exact h.conjoin_of_subset hne hsubset
  · obtain rfl := Option.some.inj hq
    exact h

/-! ## From a text to a filter -/

theorem flat_of_parse {text : String} (h : parse text = .ok p) : p.Flat := by
  obtain ⟨-, -, d, -, rfl⟩ := parse_eq_ok_iff.1 h
  exact d.flat_predicate

theorem holds_disjoin (item : Item) (ps : List Predicate) :
    (disjoin ps).holds item = ps.any (holds item) :=
  any_disjoin (holds_or item) ps

/-- No predicate on the way from a text to a filter has a group in a group of the same kind or a
group of less than two: that of the text is flat, and from a flat one binding gives a flat one and
translation a flat filter. Flat predicates are joined to a flat one, and whatever is joined, flat or
not, holds of an item as all or some of its parts do. -/
theorem stays_flat :
    (∀ text p, parse text = .ok p → p.Flat) ∧
    (∀ (b : Bindings) (p bound : Predicate), p.Flat → b.bind p = .ok bound → bound.Flat) ∧
    (∀ (s : Schema) (p : Predicate) (c : Condition), p.Flat → Condition.ofPredicate s p = .ok c →
      ∀ rest ∈ c.residual?, rest.Flat) ∧
    (∀ ps : List Predicate, ps ≠ [] → (∀ p ∈ ps, p.Flat) →
      (conjoin ps).Flat ∧ (disjoin ps).Flat) ∧
    ∀ (item : Item) (ps : List Predicate), (conjoin ps).holds item = ps.all (holds item) ∧
      (disjoin ps).holds item = ps.any (holds item) :=
  ⟨fun _ _ h => flat_of_parse h, fun _ _ _ h hbind => h.bind hbind,
    fun _ _ _ h hc _ hrest => h.residual? hc hrest,
    fun _ hne h => ⟨Joint.flat_join .and hne h, Joint.flat_join .or hne h⟩,
    fun item ps => ⟨holds_conjoin item ps, holds_disjoin item ps⟩⟩

end Predicate

/-! ## A query with groups in groups -/

namespace Sample

open Query Query.Grammar

/-- The readings of a sensor that are neither low nor, past a time, high. -/
def mild : Predicate :=
  .and [.compare ⟨"sensor", .eq, .placeholder (.named "s")⟩,
    .compare ⟨"value", .gt, .literal (.number "3")⟩,
    .or [.compare ⟨"value", .lt, .literal (.number "9")⟩,
      .compare ⟨"ts", .lt, .literal (.number "5")⟩,
      .compare ⟨"ts", .eq, .literal (.number "7")⟩]]

/-- A text with groups in groups. -/
theorem parse_mild :
    parse "sensor = :s AND (value > 3 AND (value < 9 OR (ts < 5 OR ts = 7)))" = .ok mild := by
  have hlex : lex "sensor = :s AND (value > 3 AND (value < 9 OR (ts < 5 OR ts = 7)))" =
      .ok [⟨.name "sensor", 0⟩, ⟨.op .eq, 7⟩, ⟨.named "s", 9⟩, ⟨.and, 12⟩, ⟨.openGroup, 16⟩,
        ⟨.name "value", 17⟩, ⟨.op .gt, 23⟩, ⟨.number "3", 25⟩, ⟨.and, 27⟩, ⟨.openGroup, 31⟩,
        ⟨.name "value", 32⟩, ⟨.op .lt, 38⟩, ⟨.number "9", 40⟩, ⟨.or, 42⟩, ⟨.openGroup, 45⟩,
        ⟨.name "ts", 46⟩, ⟨.op .lt, 49⟩, ⟨.number "5", 51⟩, ⟨.or, 53⟩, ⟨.name "ts", 56⟩,
        ⟨.op .eq, 59⟩, ⟨.number "7", 61⟩, ⟨.closeGroup, 62⟩, ⟨.closeGroup, 63⟩,
        ⟨.closeGroup, 64⟩] := by
    decide +kernel
  exact parse_eq_ok_iff.2 ⟨_, hlex, .one (.and (.compare "sensor" .eq (.named "s"))
    (.one (.group (.one (.and (.compare "value" .gt (.number "3"))
      (.one (.group (.or (.one (.compare "value" .lt (.number "9")))
        (.one (.one (.group (.or (.one (.compare "ts" .lt (.number "5")))
          (.one (.one (.compare "ts" .eq (.number "7")))))))))))))))), rfl, rfl⟩

/-- The predicate of a text, with its parameter bound, the filter that is left of it, and two
predicates joined. -/
theorem stays_flat_mild :
    mild.Flat ∧
      ∃ bound, (Bindings.named (.ofList [("s", .text "s1")])).bind mild = .ok bound ∧ bound.Flat ∧
        (∃ c rest, Condition.ofPredicate readings bound = .ok c ∧ c.residual? = some rest ∧
          rest.Flat) ∧
        (Predicate.conjoin [mild, bound]).Flat ∧ (Predicate.disjoin [bound]).Flat ∧
        ∀ item, (Predicate.conjoin [bound, .or []]).holds item = false := by
  obtain ⟨hparse, hbind, htranslate, hjoin, hholds⟩ := Predicate.stays_flat
  have hmild := hparse _ _ parse_mild
  have hbound := hbind (.named (.ofList [("s", .text "s1")])) mild _ hmild rfl
  have hboth : ∀ p ∈ [mild, mild.substitute (Bindings.named (.ofList [("s", .text "s1")])).get?],
      p.Flat :=
    List.forall_mem_cons.2 ⟨hmild, List.forall_mem_singleton.2 hbound⟩
  refine ⟨hmild, _, rfl, hbound, ⟨_, _, rfl, rfl, htranslate readings _ _ hbound rfl _ rfl⟩,
    (hjoin _ (List.cons_ne_nil _ _) hboth).1,
    (hjoin _ (List.cons_ne_nil _ _) (List.forall_mem_singleton.2 hbound)).2, fun item => ?_⟩
  rw [(hholds item _).1]
  simp

end Sample

end ItemStore
