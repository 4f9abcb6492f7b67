import Mathlib.Control.Monad.Basic
import ItemStore.Proofs.Aliases
import ItemStore.Proofs.Joining
import ItemStore.Proofs.MappedValues

/-!
# Values of parameters change no query

Two calls with the same parameters differ in values only, so they are the same once every value
is changed to one and the same. Translating and rendering keep that (`Proofs.MappedValues`), and so
the two expressions have the same texts. Besides, the clauses of a bound condition know fields and
values by their numbers only (`Clause.Known`), and so their texts are made of aliases and the words
of the language (`Expression.Writes`). Main statement: `Condition.ofQuery_of_sameParameters`.
-/

namespace ItemStore

namespace Query

/-! ## Calls with the same parameters -/

/-- The same number of values by place, or values by the same names. -/
inductive SameParameters : Bindings → Bindings → Prop where
  | positional {values values' : List Value} (h : values.length = values'.length) :
    SameParameters (.positional values) (.positional values')
  | named {values values' : Dict Value} (h : values.keys = values'.keys) :
    SameParameters (.named values) (.named values')

theorem SameParameters.symm {b b' : Bindings} (h : SameParameters b b') : SameParameters b' b := by
  cases h with
  | positional h => exact .positional h.symm
  | named h => exact .named h.symm

/-- Bindings for the same parameters are equal once all of their values are. -/
theorem SameParameters.mapValues_eq {b b' : Bindings} (h : SameParameters b b') (v : Value) :
    b.mapValues (fun _ => v) = b'.mapValues fun _ => v := by
  cases h with
  | positional h => simp [Bindings.mapValues, List.map_const', h]
  | named h => exact congrArg Bindings.named ((Dict.map_const_eq_iff v).2 h)

/-- Two expressions that differ in nothing but what their placeholders stand for. -/
structure Expression.Alike (e e' : Expression) : Prop where
  operation : e.operation = e'.operation
  keyCondition : e.keyCondition = e'.keyCondition
  filter : e.filter = e'.filter
  names : e.names = e'.names
  placeholders : e.values.keys = e'.values.keys

/-- Expressions that are equal once their values are changed are alike. -/
theorem Expression.Alike.of_mapValues {e e' : Expression} {f : Value → Value}
    (h : e.mapValues f = e'.mapValues f) : e.Alike e' := by
  obtain ⟨hoperation, hkey, hfilter, hnames, hvalues⟩ := Expression.mk.injEq .. ▸ h
  refine ⟨hoperation, hkey, hfilter, hnames, ?_⟩
  rw [← Dict.keys_map f, hvalues, Dict.keys_map]

/-! ## Texts of aliases -/

namespace Expression

/-- An alias that an expression explains, or a word of its language. -/
inductive Word (e : Expression) : String → Prop where
  | field {i : Nat} (h : e.names.contains (Aliases.fieldAlias i) = true) :
    Word e (Aliases.fieldAlias i)
  | value {i : Nat} (h : e.values.contains (Aliases.valueAlias i) = true) :
    Word e (Aliases.valueAlias i)
  | symbol (op : CompareOp) : Word e op.symbol
  | and : Word e "AND"
  | or : Word e "OR"
  | openGroup : Word e "("
  | closeGroup : Word e ")"
  | blank : Word e " "

/-- An expression explains the aliases of some fields and values. -/
structure Explains (e : Expression) (a : Aliases) : Prop where
  field : ∀ i < a.fields.length, e.names.contains (Aliases.fieldAlias i) = true
  value : ∀ i < a.values.length, e.values.contains (Aliases.valueAlias i) = true

/-- An expression explains the aliases that its clauses were numbered with. -/
theorem explains_ofClauses (operation : Operation) (key filter : Option Clause) (a : Aliases) :
    (ofClauses operation key filter a).Explains a := by
  constructor
  · intro i hi
    rw [Dict.contains_eq_isSome]
    show (a.names.get? _).isSome = true
    rw [a.get?_names, List.getElem?_eq_getElem hi, Option.isSome_some]
  · intro i hi
    rw [Dict.contains_eq_isSome]
    show (a.valueTable.get? _).isSome = true
    rw [a.get?_valueTable, List.getElem?_eq_getElem hi, Option.isSome_some]

/-- A text that is made of such words. -/
inductive Writes (e : Expression) : String → Prop where
  | empty : Writes e ""
  | append {word text : String} (hword : e.Word word) (htext : Writes e text) :
    Writes e (word ++ text)

namespace Writes

variable {e : Expression} {a b : String}

theorem word (h : e.Word a) : e.Writes a := by
  simpa using append h .empty

/-- Two texts that an expression writes make one that it writes. -/
theorem concat (ha : e.Writes a) (hb : e.Writes b) : e.Writes (a ++ b) := by
  induction ha with
  | empty => simpa using hb
  | append hword _ ih =>
    rw [String.append_assoc]
    exact .append hword ih

/-- Texts that an expression writes can be put together with a separator that it writes. -/
theorem intercalate {sep : String} {texts : List String} (hsep : e.Writes sep)
    (h : ∀ text ∈ texts, e.Writes text) : e.Writes (sep.intercalate texts) := by
  induction texts with
  | nil => exact .empty
  | cons a texts ih =>
    obtain ⟨ha, htexts⟩ := List.forall_mem_cons.1 h
    cases texts with
    | nil => rwa [String.intercalate_singleton]
    | cons b texts =>
      rw [String.intercalate_cons_cons]
      exact (ha.concat hsep).concat (ih htexts)

theorem group (h : e.Writes a) : e.Writes ("(" ++ a ++ ")") :=
  ((word .openGroup).concat h).concat (word .closeGroup)

theorem andBetween : e.Writes " AND " :=
  .append .blank (.append .and (word .blank))

theorem orBetween : e.Writes " OR " :=
  .append .blank (.append .or (word .blank))

end Writes

end Expression

/-! ## Clauses of numbered fields and values -/

namespace Clause

/-- A clause with nothing but numbers that aliases explain. -/
inductive Known (a : Aliases) : Clause → Prop where
  | compare {field i : Nat} (op : CompareOp) (hfield : field < a.fields.length)
    (hvalue : i < a.values.length) : Known a (.compare field op (.value i))
  | and {cs : List Clause} (h : ∀ c ∈ cs, Known a c) : Known a (.and cs)
  | or {cs : List Clause} (h : ∀ c ∈ cs, Known a c) : Known a (.or cs)

variable {a b : Aliases} {c : Clause}

theorem known_and_iff {cs : List Clause} : Known a (.and cs) ↔ ∀ c ∈ cs, Known a c :=
  ⟨fun | .and h => h, .and⟩

theorem known_or_iff {cs : List Clause} : Known a (.or cs) ↔ ∀ c ∈ cs, Known a c :=
  ⟨fun | .or h => h, .or⟩

/-- A clause is known with more aliases too. -/
theorem Known.extends (h : Known a c) (hab : a.Extends b) : Known b c := by
  induction h with
  | compare op hfield hvalue =>
    exact .compare op (Nat.lt_of_lt_of_le hfield hab.fields.length_le)
      (Nat.lt_of_lt_of_le hvalue hab.values.length_le)
  | and _ ih => exact .and ih
  | or _ ih => exact .or ih

/-- A comparison with known numbers is written with aliases only. -/
theorem Known.compare_writes {e : Expression} (he : e.Explains a) {field : Nat} {op : CompareOp}
    {operand : ClauseOperand} (h : Known a (.compare field op operand)) :
    e.Writes (compareText field op operand) := by
  cases h with
  | @compare _ i _ hfield hvalue =>
    have hleft : e.Writes (Aliases.fieldAlias field ++ " " ++ op.symbol ++ " ") :=
      (((Expression.Writes.word (.field (he.field field hfield))).concat (.word .blank)).concat
        (.word (.symbol op))).concat (.word .blank)
    exact hleft.concat (.word (.value (he.value i hvalue)))

mutual

/-- The text of a known clause is made of aliases and words. -/
theorem Known.text_writes {e : Expression} (he : e.Explains a) :
    ∀ c : Clause, Known a c → e.Writes c.text
  | .compare _ _ _, h => h.compare_writes he
  | .and cs, .and h => .intercalate .andBetween (Known.parts_write he cs h)
  | .or cs, .or h => .intercalate .orBetween (Known.parts_write he cs h)

/-- The parts of a known group are written with aliases only. -/
theorem Known.parts_write {e : Expression} (he : e.Explains a) :
    ∀ cs : List Clause, (∀ c ∈ cs, Known a c) → ∀ text ∈ parts cs, e.Writes text
  | [], _ => by simp [parts]
  | .compare _ _ _ :: cs, h => by
    obtain ⟨hc, hcs⟩ := List.forall_mem_cons.1 h
    rw [parts]
    exact List.forall_mem_cons.2 ⟨hc.compare_writes he, Known.parts_write he cs hcs⟩
  | .and ds :: cs, h => by
    obtain ⟨hc, hcs⟩ := List.forall_mem_cons.1 h
    have hds := Known.parts_write he ds (known_and_iff.1 hc)
    rw [parts]
    exact List.forall_mem_cons.2
      ⟨(Expression.Writes.intercalate .andBetween hds).group, Known.parts_write he cs hcs⟩
  | .or ds :: cs, h => by
    obtain ⟨hc, hcs⟩ := List.forall_mem_cons.1 h
    have hds := Known.parts_write he ds (known_or_iff.1 hc)
    rw [parts]
    exact List.forall_mem_cons.2
      ⟨(Expression.Writes.intercalate .orBetween hds).group, Known.parts_write he cs hcs⟩

end

/-! ### Numbering -/

/-- A comparison is known with the aliases that it is numbered with. -/
theorem ofComparison_known (field : String) (op : CompareOp) (v : Value) (a : Aliases) :
    a.Extends (ofComparison field op v a).2 ∧
      Known (ofComparison field op v a).2 (ofComparison field op v a).1 := by
  obtain ⟨hfield, hnumber⟩ := a.field_spec field
  obtain ⟨hvalue, hat⟩ := (a.field field).2.value_spec v
  refine ⟨hfield.trans hvalue, .compare op ?_ ?_⟩
  · exact (List.getElem?_eq_some_iff.1 (hvalue.field hnumber)).1
  · exact (List.getElem?_eq_some_iff.1 hat).1

mutual

/-- The clause of a predicate without parameters is known. -/
theorem ofPredicate_known : ∀ (a : Aliases) (p : Predicate),
    (∀ d ∈ p.comparisons, d.operand.literal?.isSome = true) →
      a.Extends (ofPredicate a p).2 ∧ Known (ofPredicate a p).2 (ofPredicate a p).1
  | a, .compare ⟨field, op, .literal v⟩, _ => ofComparison_known field op v a
  | a, .compare ⟨field, op, .placeholder p⟩, h => by
    simp [Predicate.comparisons, Operand.literal?] at h
  | a, .and ps, h => by
    obtain ⟨hextends, hknown⟩ := ofPredicates_known a ps h
    exact ⟨hextends, .and hknown⟩
  | a, .or ps, h => by
    obtain ⟨hextends, hknown⟩ := ofPredicates_known a ps h
    exact ⟨hextends, .or hknown⟩

theorem ofPredicates_known : ∀ (a : Aliases) (ps : List Predicate),
    (∀ d ∈ Predicate.comparisonsOf ps, d.operand.literal?.isSome = true) →
      a.Extends (ofPredicates a ps).2 ∧ ∀ c ∈ (ofPredicates a ps).1, Known (ofPredicates a ps).2 c
  | a, [], _ => ⟨.refl a, nofun⟩
  | a, p :: ps, h => by
    rw [Predicate.comparisonsOf, List.forall_mem_append] at h
    obtain ⟨hfirst, hknown⟩ := ofPredicate_known a p h.1
    obtain ⟨hrest, hall⟩ := ofPredicates_known (ofPredicate a p).2 ps h.2
    exact ⟨hfirst.trans hrest, List.forall_mem_cons.2 ⟨hknown.extends hrest, hall⟩⟩

end

/-- A key condition is known with the aliases that it is numbered with. -/
theorem ofKey_known (s : Schema) (key : KeyCondition) (a : Aliases) :
    Known (ofKey s key a).2 (ofKey s key a).1 := by
  obtain ⟨partition, sort⟩ := key
  obtain ⟨-, hpartition⟩ := ofComparison_known s.partitionKey.name .eq partition a
  rcases sort with _ | c
  · exact hpartition
  · cases hs : s.sortKey with
    | none => simpa [ofKey, hs] using hpartition
    | some f =>
      obtain ⟨hextends, hsort⟩ := ofComparison_known f.name c.op c.value
        (ofComparison s.partitionKey.name .eq partition a).2
      have hboth := List.forall_mem_cons.2
        ⟨hpartition.extends hextends, List.forall_mem_singleton.2 hsort⟩
      simpa [ofKey, hs] using Known.and hboth

end Clause

/-! ## Conditions -/

namespace Condition

/-- What a conjunction leaves for the filter is some of its parts, joined again. -/
theorem residual?_of_keyed? {s : Schema} {ps : List Predicate} {c : Condition} {q : Predicate}
    (h : keyed? s ps = some c) (hq : q ∈ c.residual?) :
    ∃ rest, rest ≠ [] ∧ rest ⊆ ps ∧ q = Predicate.conjoin rest := by
  unfold keyed? at h
  split at h
  · obtain rfl := Option.some.inj h
    simp only [residual?] at hq
    split at hq
    · cases hq
    · rename_i hsome
      exact ⟨_, mt List.isEmpty_iff.2 hsome, fun _ h => (List.mem_filter.1 h).1,
        (Option.some.inj hq).symm⟩
  · cases h

/-- A filter makes no comparison that its predicate does not make. -/
theorem mem_comparisons_of_residual? {s : Schema} {p q : Predicate} {c : Condition}
    (h : ofPredicate s p = .ok c) (hq : q ∈ c.residual?) {d : Comparison}
    (hd : d ∈ q.comparisons) : d ∈ p.comparisons := by
  rcases ofPredicate_cases h with ⟨v, -, rfl⟩ | ⟨parts, rfl, hk⟩ | ⟨-, rfl⟩
  · cases hq
  · obtain ⟨rest, -, hsubset, rfl⟩ := residual?_of_keyed? hk hq
    have hcomparisons := Predicate.Joint.comparisons_join .and rest
    change (Predicate.conjoin rest).comparisons = _ at hcomparisons
    rw [hcomparisons] at hd
    obtain ⟨r, hr, hdr⟩ := List.mem_flatMap.1 hd
    rw [Predicate.comparisons, Predicate.comparisonsOf_eq]
    exact List.mem_flatMap.2 ⟨r, hsubset hr, hdr⟩
  · obtain rfl := Option.some.inj hq
    exact hd

/-- The clauses of a condition whose filter has no parameters are known. -/
theorem clauses_known {s : Schema} {c : Condition}
    (h : ∀ p ∈ c.residual?, ∀ d ∈ p.comparisons, d.operand.literal?.isSome = true) :
    ∀ clause, clause ∈ (c.clauses s).1 ∨ clause ∈ (c.clauses s).2.1 →
      Clause.Known (c.clauses s).2.2 clause := by
  cases c with
  | everything => simp [clauses]
  | keyEquals v =>
    have hkey := (Clause.ofComparison_known s.partitionKey.name .eq v {}).2
    simpa [clauses] using hkey
  | filter key predicate =>
    cases predicate with
    | none =>
      cases key with
      | none => simp [clauses, numberOption]
      | some key => simpa [clauses, numberOption] using Clause.ofKey_known s key {}
    | some p =>
      have hp := h p rfl
      cases key with
      | none => simpa [clauses, numberOption] using (Clause.ofPredicate_known {} p hp).2
      | some key =>
        obtain ⟨hextends, hrest⟩ := Clause.ofPredicate_known (Clause.ofKey s key {}).2 p hp
        have hkey := (Clause.ofKey_known s key {}).extends hextends
        rintro clause (hclause | hclause) <;> obtain rfl := Option.some.inj hclause
        · exact hkey
        · exact hrest

/-- The texts of such a condition are made of aliases and words. -/
theorem render_writes {s : Schema} {c : Condition}
    (h : ∀ p ∈ c.residual?, ∀ d ∈ p.comparisons, d.operand.literal?.isSome = true) (text : String)
    (htext : text ∈ (c.render s).keyCondition ∨ text ∈ (c.render s).filter) :
    (c.render s).Writes text := by
  have hknown := clauses_known (s := s) h
  have hexplains := Expression.explains_ofClauses c.operation (c.clauses s).1 (c.clauses s).2.1
    (c.clauses s).2.2
  obtain htext | htext := htext <;> obtain ⟨clause, hclause, rfl⟩ := Option.map_eq_some_iff.1 htext
  · exact Clause.Known.text_writes hexplains clause (hknown clause (.inl hclause))
  · exact Clause.Known.text_writes hexplains clause (hknown clause (.inr hclause))

/-! ## Queries -/

/-- The condition of a query has no parameters left. -/
theorem isSome_literal?_of_ofQuery {s : Schema} {text : String} {b : Bindings} {c : Condition}
    (h : ofQuery s text b = .ok c) :
    ∀ p ∈ c.residual?, ∀ d ∈ p.comparisons, d.operand.literal?.isSome = true := by
  intro q hq d hd
  rw [ofQuery_eq] at h
  cases hbound : boundPredicate s text b with
  | error e =>
    rw [hbound] at h
    exact nomatch h
  | ok p =>
    rw [hbound] at h
    have hall := exists_ofPredicate_iff.1 ⟨c, h⟩
    exact (hall d (mem_comparisons_of_residual? h hq hd)).2

/-- Bindings for the same parameters fail alike, or give conditions that render alike. -/
theorem ofQuery_alike {s : Schema} {text : String} {b b' : Bindings} (h : SameParameters b b') :
    (∀ e, ofQuery s text b = .error e → ofQuery s text b' = .error e) ∧
      ∀ c, ofQuery s text b = .ok c →
        ∃ c', ofQuery s text b' = .ok c' ∧ (c.render s).Alike (c'.render s) := by
  have hmasked := map_ofQuery_congr _ s text (h.mapValues_eq .null)
  constructor
  · intro e he
    rw [he] at hmasked
    cases hb' : ofQuery s text b' with
    | error e' =>
      rw [hb'] at hmasked
      exact congrArg _ (Except.error.inj hmasked).symm
    | ok c' =>
      rw [hb'] at hmasked
      exact nomatch hmasked
  · intro c hc
    rw [hc] at hmasked
    cases hb' : ofQuery s text b' with
    | error e' =>
      rw [hb'] at hmasked
      exact nomatch hmasked
    | ok c' =>
      rw [hb'] at hmasked
      refine ⟨c', rfl, .of_mapValues (f := fun _ => .null) ?_⟩
      rw [← render_mapValues, ← render_mapValues, Except.ok.inj hmasked]

/-- Values of parameters change no query: with as many values by place, or values by the same
names, a text fails with the same error, or else its expression has the same operation, the same
texts, the same names and the same placeholders. And the texts of any query are made of nothing but
the aliases in the tables of its expression, operators, AND, OR, parentheses and blanks. -/
theorem ofQuery_of_sameParameters (s : Schema) (text : String) (b b' : Bindings) :
    (SameParameters b b' →
      (∀ e, ofQuery s text b = .error e ↔ ofQuery s text b' = .error e) ∧
        ∀ c, ofQuery s text b = .ok c →
          ∃ c', ofQuery s text b' = .ok c' ∧ (c.render s).Alike (c'.render s)) ∧
      ∀ c, ofQuery s text b = .ok c → ∀ t,
        t ∈ (c.render s).keyCondition ∨ t ∈ (c.render s).filter → (c.render s).Writes t := by
  refine ⟨fun h => ⟨fun e => ⟨(ofQuery_alike h).1 e, (ofQuery_alike h.symm).1 e⟩,
    (ofQuery_alike h).2⟩, fun c hc => render_writes (isSome_literal?_of_ofQuery hc)⟩

end Condition

end Query

/-! ## A query on readings -/

namespace Sample

open Query

/-- A value that looks like a piece of a query. -/
theorem ofQuery_of_sameParameters_hostile :
    SameParameters (.positional [.text "s1", .number "5"])
        (.positional [.null, .text "0 OR sensor <> ''"]) ∧
      ∃ c c', Condition.ofQuery readings "sensor = ?1 AND value > ?2"
          (.positional [.text "s1", .number "5"]) = .ok c ∧
        Condition.ofQuery readings "sensor = ?1 AND value > ?2"
          (.positional [.null, .text "0 OR sensor <> ''"]) = .ok c' ∧
        (c.render readings).Alike (c'.render readings) := by
  have hsame : SameParameters (.positional [.text "s1", .number "5"])
      (.positional [.null, .text "0 OR sensor <> ''"]) := .positional rfl
  have hlex : lex "sensor = ?1 AND value > ?2" = .ok [⟨.name "sensor", 0⟩, ⟨.op .eq, 7⟩,
      ⟨.positional 1, 9⟩, ⟨.and, 12⟩, ⟨.name "value", 16⟩, ⟨.op .gt, 22⟩, ⟨.positional 2, 24⟩] := by
    decide +kernel
  have hparse : parse "sensor = ?1 AND value > ?2" =
      .ok (.and [.compare ⟨"sensor", .eq, .placeholder (.positional 1)⟩,
        .compare ⟨"value", .gt, .placeholder (.positional 2)⟩]) := by
    rw [parse, hlex]
    rfl
  have hc : Condition.ofQuery readings "sensor = ?1 AND value > ?2"
      (.positional [.text "s1", .number "5"]) = .ok (.filter (some ⟨.text "s1", none⟩)
        (some (.compare ⟨"value", .gt, .literal (.number "5")⟩))) := by
    rw [Condition.ofQuery_eq, Condition.boundPredicate, Condition.bindText, hparse]
    · rfl
    · simp
  obtain ⟨c', hc', halike⟩ := ((Condition.ofQuery_of_sameParameters readings
    "sensor = ?1 AND value > ?2" _ _).1 hsame).2 _ hc
  exact ⟨hsame, _, c', hc, hc', halike⟩

end Sample

end ItemStore
