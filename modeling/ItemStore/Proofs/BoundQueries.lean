import Mathlib.Data.List.Forall2
import ItemStore.Proofs.ParameterValues

/-!
# Which calls bind

A call of a query brings a text and values for its parameters. Main statement: unless the text says
nothing about a single value, the call has a condition if and only if the text is a query, its
parameters are just those that the call has values for, and the fields that it compares are declared
(`Condition.ofQuery_accepts_exactly`). The condition is then that of the query with every parameter
replaced (`Predicate.Filled`), and otherwise the first of the three that fails says the error
(`Condition.Refused`).
-/

namespace ItemStore

namespace Predicate

/-! ## Filling parameters in -/

/-- The second predicate is the first one with a value for each parameter, and the same
otherwise. -/
inductive Filled (values : Placeholder → Option Value) : Predicate → Predicate → Prop where
  | literal (field : String) (op : CompareOp) (v : Value) :
    Filled values (.compare ⟨field, op, .literal v⟩) (.compare ⟨field, op, .literal v⟩)
  | parameter (field : String) (op : CompareOp) {q : Placeholder} {v : Value}
    (h : values q = some v) :
    Filled values (.compare ⟨field, op, .placeholder q⟩) (.compare ⟨field, op, .literal v⟩)
  | and {ps bound : List Predicate} (h : List.Forall₂ (Filled values) ps bound) :
    Filled values (.and ps) (.and bound)
  | or {ps bound : List Predicate} (h : List.Forall₂ (Filled values) ps bound) :
    Filled values (.or ps) (.or bound)

variable {values : Placeholder → Option Value}

mutual

/-- Substitution fills a predicate whose placeholders all have values. -/
theorem filled_substitute : ∀ {p : Predicate},
    (∀ d ∈ p.comparisons, (d.operand.substitute values).literal?.isSome = true) →
      Filled values p (p.substitute values)
  | .compare ⟨field, op, .literal v⟩, _ => .literal field op v
  | .compare ⟨field, op, .placeholder q⟩, h => by
    have hq := h _ (by rw [comparisons]; exact List.mem_singleton_self _)
    cases hv : values q with
    | none => simp [Operand.substitute, hv, Operand.literal?] at hq
    | some v =>
      have hfilled := Filled.parameter field op hv
      simpa [substitute, Comparison.substitute, Operand.substitute, hv] using hfilled
  | .and ps, h => .and (filled_substituteAll h)
  | .or ps, h => .or (filled_substituteAll h)

theorem filled_substituteAll : ∀ {ps : List Predicate},
    (∀ d ∈ comparisonsOf ps, (d.operand.substitute values).literal?.isSome = true) →
      List.Forall₂ (Filled values) ps (substituteAll values ps)
  | [], _ => .nil
  | p :: ps, h => by
    rw [comparisonsOf, List.forall_mem_append] at h
    exact .cons (filled_substitute h.1) (filled_substituteAll h.2)

end

mutual

/-- Substitution goes through the comparisons one by one. -/
theorem comparisons_substitute : ∀ p : Predicate,
    (p.substitute values).comparisons = p.comparisons.map (Comparison.substitute values)
  | .compare _ => rfl
  | .and ps => comparisonsOf_substituteAll ps
  | .or ps => comparisonsOf_substituteAll ps

theorem comparisonsOf_substituteAll : ∀ ps : List Predicate,
    comparisonsOf (substituteAll values ps) =
      (comparisonsOf ps).map (Comparison.substitute values)
  | [] => rfl
  | p :: ps => by
    rw [substituteAll, comparisonsOf, comparisons_substitute p, comparisonsOf_substituteAll ps,
      comparisonsOf, List.map_append]

end

/-- The parameters of a predicate are those that it compares a field with. -/
theorem mem_placeholders {p : Predicate} {q : Placeholder} :
    q ∈ p.placeholders ↔ ∃ d ∈ p.comparisons, d.operand = .placeholder q := by
  rw [placeholders, Placeholder.mem_order, List.mem_filterMap]
  refine exists_congr fun d => and_congr_right fun _ => ?_
  cases d.operand <;> simp [Operand.placeholder?]

/-- Parameters by place and parameters by name. -/
def Mixed (p : Predicate) : Prop :=
  (∃ index, .positional index ∈ p.placeholders) ∧ ∃ name, .named name ∈ p.placeholders

/-- All fields that are compared are declared. -/
def Declared (s : Schema) (p : Predicate) : Prop :=
  ∀ d ∈ p.comparisons, s.hasField d.field = true

instance (s : Schema) (p : Predicate) : Decidable (p.Declared s) :=
  inferInstanceAs (Decidable (∀ d ∈ p.comparisons, s.hasField d.field = true))

end Predicate

namespace Query

open Predicate

/-! ## Values for parameters -/

namespace Bindings

/-- The parameters that a call has values for: `?1` up to the number of its values, or `:name` for
each of its names. -/
def Supplies : Bindings → Placeholder → Prop
  | positional values, q => ∃ index, 1 ≤ index ∧ index ≤ values.length ∧ q = .positional index
  | named values, q => ∃ name ∈ values.keys, q = .named name

/-- The parameters of a predicate are just those that have values. -/
def Fits (b : Bindings) (p : Predicate) : Prop :=
  ∀ q, q ∈ p.placeholders ↔ b.Supplies q

/-- What does not fit: first both kinds of parameters, then the first parameter without a value, and
then the first value without a parameter. -/
inductive Loose (b : Bindings) (p : Predicate) : BindingFault → Prop where
  | mixed (h : p.Mixed) : Loose b p .mixed
  | missing {before after : List Placeholder} {q : Placeholder} (hkind : ¬p.Mixed)
    (h : p.placeholders = before ++ q :: after) (hbefore : ∀ r ∈ before, b.Supplies r)
    (hq : ¬b.Supplies q) : Loose b p (.missing q)
  | unused {before after : List Placeholder} {q : Placeholder} (hkind : ¬p.Mixed)
    (hall : ∀ r ∈ p.placeholders, b.Supplies r) (h : b.placeholders = before ++ q :: after)
    (hbefore : ∀ r ∈ before, r ∈ p.placeholders) (hq : q ∉ p.placeholders) :
    Loose b p (.unused q)

variable {b : Bindings} {p : Predicate} {q : Placeholder}

/-- A placeholder has a value if the bindings supply it. -/
theorem isSome_get?_iff : (b.get? q).isSome = true ↔ b.Supplies q := by
  cases b with
  | positional values =>
    cases q with
    | positional index =>
      cases index with
      | zero => simp [get?, Supplies]
      | succ index => simp [get?, Supplies, Nat.succ_le_iff]
    | named name => simp [get?, Supplies]
  | named values =>
    cases q with
    | positional index => simp [get?, Supplies]
    | named name =>
      rw [get?, ← Dict.contains_eq_isSome, Dict.contains, List.any_eq_true, Supplies, Dict.keys]
      simp

/-- The bindings are for the placeholders that they supply. -/
theorem mem_placeholders_iff : q ∈ b.placeholders ↔ b.Supplies q := by
  cases b with
  | positional values =>
    simp only [placeholders, Supplies, List.mem_map, List.mem_range]
    constructor
    · rintro ⟨i, hi, rfl⟩
      exact ⟨i + 1, Nat.le_add_left 1 i, hi, rfl⟩
    · rintro ⟨index, hpos, hle, rfl⟩
      obtain ⟨i, rfl⟩ := Nat.exists_eq_add_of_le' hpos
      exact ⟨i, hle, rfl⟩
  | named values =>
    simp only [placeholders, Supplies, List.mem_map, eq_comm]

/-- The check for both kinds of placeholders finds a predicate that has both. -/
theorem mixed_iff : (p.placeholders.any Placeholder.isPositional &&
    p.placeholders.any fun q => !q.isPositional) = true ↔ p.Mixed := by
  rw [Bool.and_eq_true, List.any_eq_true, List.any_eq_true, Mixed]
  refine and_congr ⟨?_, ?_⟩ ⟨?_, ?_⟩
  · rintro ⟨_ | _, hq, hplace⟩
    · exact ⟨_, hq⟩
    · cases hplace
  · rintro ⟨index, h⟩
    exact ⟨_, h, rfl⟩
  · rintro ⟨_ | _, hq, hname⟩
    · cases hname
    · exact ⟨_, hq⟩
  · rintro ⟨name, h⟩
    exact ⟨_, h, rfl⟩

/-- What is loose does not fit. -/
theorem Loose.not_fits {fault : BindingFault} (h : b.Loose p fault) : ¬b.Fits p := by
  intro hfits
  cases h with
  | mixed h =>
    obtain ⟨⟨index, hindex⟩, name, hname⟩ := h
    have hplace := (hfits _).1 hindex
    have hby := (hfits _).1 hname
    cases b with
    | positional values =>
      obtain ⟨_, _, _, h⟩ := hby
      cases h
    | named values =>
      obtain ⟨_, _, h⟩ := hplace
      cases h
  | missing _ h _ hq =>
    exact hq ((hfits _).1 (h ▸ List.mem_append_cons_self))
  | unused _ _ h _ hq =>
    exact hq ((hfits _).2 (mem_placeholders_iff.1 (h ▸ List.mem_append_cons_self)))

/-- Where values fit, every parameter is replaced by one. -/
theorem Fits.isSome_literal? (h : b.Fits p) :
    ∀ d ∈ p.comparisons, (d.operand.substitute b.get?).literal?.isSome = true := by
  intro d hd
  cases hoperand : d.operand with
  | literal v => rfl
  | placeholder q =>
    have hq := isSome_get?_iff.2 ((h q).1 (mem_placeholders.2 ⟨d, hd, hoperand⟩))
    obtain ⟨v, hv⟩ := Option.isSome_iff_exists.1 hq
    rw [Operand.substitute, hv]
    rfl

/-- Binding fails with what is loose, or else all parameters are replaced. -/
theorem bind_cases (b : Bindings) (p : Predicate) :
    (∃ fault, b.Loose p fault ∧ b.bind p = .error fault) ∨
      b.Fits p ∧ b.bind p = .ok (p.substitute b.get?) := by
  have hmissing : ∀ r, (b.get? r).isNone = true ↔ ¬b.Supplies r := by
    intro r
    rw [← isSome_get?_iff, Bool.not_eq_true, Option.isSome_eq_false_iff]
  unfold bind
  by_cases hkind : p.Mixed
  · rw [if_pos (mixed_iff.2 hkind)]
    exact .inl ⟨_, .mixed hkind, rfl⟩
  rw [if_neg (mt mixed_iff.1 hkind)]
  cases hfind : p.placeholders.find? fun r => (b.get? r).isNone with
  | some q =>
    obtain ⟨hq, before, after, h, hbefore⟩ := List.find?_eq_some_iff_append.1 hfind
    refine .inl ⟨_, .missing hkind h (fun r hr => ?_) ((hmissing q).1 hq), rfl⟩
    have hr := hbefore r hr
    rwa [Bool.not_eq_true', ← Bool.not_eq_true, hmissing, not_not] at hr
  | none =>
    have hall : ∀ r ∈ p.placeholders, b.Supplies r := by
      intro r hr
      by_contra hnot
      exact List.find?_eq_none.1 hfind r hr ((hmissing r).2 hnot)
    cases hfind : b.placeholders.find? fun q => q ∉ p.placeholders with
    | some q =>
      obtain ⟨hq, before, after, h, hbefore⟩ := List.find?_eq_some_iff_append.1 hfind
      refine .inl ⟨_, .unused hkind hall h (fun r hr => ?_) (of_decide_eq_true hq), rfl⟩
      simpa using hbefore r hr
    | none =>
      refine .inr ⟨fun q => ⟨hall q, fun hq => ?_⟩, rfl⟩
      simpa using List.find?_eq_none.1 hfind q (mem_placeholders_iff.2 hq)

end Bindings

/-! ## Fields of a bound predicate -/

namespace Condition

variable {s : Schema} {text : String} {b : Bindings}

/-- Checking one by one stops at the first element that fails. -/
theorem forM_eq_error {α ε : Type} {f : α → Except ε Unit} {a : α} {after : List α} {e : ε}
    (ha : f a = .error e) : ∀ {before : List α}, (∀ x ∈ before, f x = .ok ()) →
      (before ++ a :: after).forM f = .error e
  | [], _ => by
    show (f a >>= fun _ => after.forM f) = _
    rw [ha]
    rfl
  | x :: before, h => by
    obtain ⟨hx, hbefore⟩ := List.forall_mem_cons.1 h
    show (f x >>= fun _ => (before ++ a :: after).forM f) = _
    rw [hx]
    exact forM_eq_error ha hbefore

/-- A comparison that is refused makes the whole predicate refused, for the first one that is. -/
theorem ofPredicate_eq_error {p : Predicate} {e : Error}
    (h : p.comparisons.forM (check s) = .error e) : ofPredicate s p = .error e := by
  unfold ofPredicate
  rw [h]
  rfl

/-- With a value for its parameter, a comparison is checked for its field. -/
theorem check_substitute {values : Placeholder → Option Value} {d : Comparison}
    (h : (d.operand.substitute values).literal?.isSome = true) :
    check s (d.substitute values) =
      if s.hasField d.field then .ok () else .error (.unknownField s.entity d.field) := by
  rw [check, Comparison.substitute]
  cases hoperand : d.operand.substitute values with
  | literal v => rfl
  | placeholder q =>
    rw [hoperand] at h
    cases h

/-- With values for all parameters, a predicate has a condition unless a field is not declared, and
the first such field is the error. -/
theorem ofPredicate_substitute_cases {p : Predicate} {values : Placeholder → Option Value}
    (h : ∀ d ∈ p.comparisons, (d.operand.substitute values).literal?.isSome = true) :
    (p.Declared s ∧ ∃ c, ofPredicate s (p.substitute values) = .ok c) ∨
      ∃ before d after, p.comparisons = before ++ d :: after ∧
        (∀ d' ∈ before, s.hasField d'.field = true) ∧ s.hasField d.field = false ∧
        ofPredicate s (p.substitute values) = .error (.unknownField s.entity d.field) := by
  cases hfind : p.comparisons.find? fun d => !s.hasField d.field with
  | none =>
    have hdeclared : p.Declared s := fun d hd => by
      simpa using List.find?_eq_none.1 hfind d hd
    refine .inl ⟨hdeclared, exists_ofPredicate_iff.2 ?_⟩
    rw [comparisons_substitute, List.forall_mem_map]
    exact fun d hd => ⟨hdeclared d hd, h d hd⟩
  | some d =>
    obtain ⟨hd, before, after, hsplit, hbefore⟩ := List.find?_eq_some_iff_append.1 hfind
    rw [Bool.not_eq_true'] at hd
    have hdeclared : ∀ d' ∈ before, s.hasField d'.field = true := fun d' hd' => by
      simpa using hbefore d' hd'
    refine .inr ⟨before, d, after, hsplit, hdeclared, hd, ofPredicate_eq_error ?_⟩
    rw [hsplit] at h
    rw [comparisons_substitute, hsplit, List.map_append, List.map_cons]
    refine forM_eq_error ?_ (List.forall_mem_map.2 fun d' hd' => ?_)
    · rw [check_substitute (h d (by simp)), hd]
      rfl
    · rw [check_substitute (h d' (by simp [hd'])), hdeclared d' hd']
      rfl

/-! ## Calls -/

/-- Why a call has no condition, in the order in which it is looked at: its text is no query, its
values do not fit, or a field is not declared. -/
inductive Refused (s : Schema) (text : String) (b : Bindings) : Error → Prop where
  | noQuery {fault : SyntaxError} (h : parse text = .error fault) :
    Refused s text b (.badSyntax fault)
  | loose {p : Predicate} {fault : BindingFault} (h : parse text = .ok p)
    (hloose : b.Loose p fault) : Refused s text b (.binding fault)
  | undeclared {p : Predicate} {before after : List Comparison} {d : Comparison}
    (h : parse text = .ok p) (hfits : b.Fits p) (hsplit : p.comparisons = before ++ d :: after)
    (hbefore : ∀ d' ∈ before, s.hasField d'.field = true) (hd : s.hasField d.field = false) :
    Refused s text b (.unknownField s.entity d.field)

/-- A condition that has values and declared fields only. Its clauses have a number for every value,
and none for a parameter. -/
structure IsBound (s : Schema) (c : Condition) : Prop where
  literal : ∀ p ∈ c.residual?, ∀ d ∈ p.comparisons, ∃ v, d.operand = .literal v
  declared : ∀ p ∈ c.residual?, p.Declared s
  known : ∀ clause, clause ∈ (c.clauses s).1 ∨ clause ∈ (c.clauses s).2.1 →
    Clause.Known (c.clauses s).2.2 clause

/-- What a call is accepted with: a query whose parameters it has values for, just those, and whose
fields are declared. -/
def Accepted (s : Schema) (text : String) (b : Bindings) : Prop :=
  ∃ p, parse text = .ok p ∧ b.Fits p ∧ p.Declared s

/-- No call is both refused and accepted. -/
theorem Refused.not_accepted {e : Error} (h : Refused s text b e) : ¬Accepted s text b := by
  rintro ⟨p, hparse, hfits, hdeclared⟩
  cases h with
  | noQuery h =>
    rw [h] at hparse
    cases hparse
  | loose h hloose =>
    obtain rfl := Except.ok.inj (h.symm.trans hparse)
    exact hloose.not_fits hfits
  | @undeclared _ before after d h _ hsplit _ hd =>
    obtain rfl := Except.ok.inj (h.symm.trans hparse)
    have hmem := hdeclared d (by rw [hsplit]; exact List.mem_append_cons_self)
    rw [hd] at hmem
    cases hmem

/-- A condition that comes of a predicate is bound. -/
theorem IsBound.of_ofPredicate {p : Predicate} {c : Condition} (h : ofPredicate s p = .ok c) :
    c.IsBound s := by
  have hall := exists_ofPredicate_iff.1 ⟨c, h⟩
  have hliteral : ∀ r ∈ c.residual?, ∀ d ∈ r.comparisons, d.operand.literal?.isSome = true :=
    fun r hr d hd => (hall d (mem_comparisons_of_residual? h hr hd)).2
  refine ⟨fun r hr d hd => ?_, fun r hr d hd => ?_, clauses_known hliteral⟩
  · have hd := hliteral r hr d hd
    cases hoperand : d.operand with
    | literal v => exact ⟨v, rfl⟩
    | placeholder q =>
      rw [hoperand] at hd
      cases hd
  · exact (hall d (mem_comparisons_of_residual? h hr hd)).1

/-- A text is refused, or its query has a condition with all parameters replaced. -/
theorem ofText_cases (s : Schema) (text : String) (b : Bindings) :
    (∃ e, Refused s text b e ∧ ofText s text b = .error e) ∨
      ∃ p bound c, parse text = .ok p ∧ b.Fits p ∧ p.Declared s ∧ Filled b.get? p bound ∧
        ofPredicate s bound = .ok c ∧ ofText s text b = .ok c := by
  cases hparse : parse text with
  | error fault =>
    refine .inl ⟨_, .noQuery hparse, ?_⟩
    rw [ofText, hparse]
    rfl
  | ok p =>
    have htext : ofText s text b = (b.bind p).mapError .binding >>= ofPredicate s := by
      rw [ofText, hparse]
      rfl
    obtain ⟨fault, hloose, hbind⟩ | ⟨hfits, hbind⟩ := b.bind_cases p
    · exact .inl ⟨_, .loose hparse hloose, by rw [htext, hbind]; rfl⟩
    have hvalues := hfits.isSome_literal?
    rw [htext, hbind]
    obtain ⟨hdeclared, c, hc⟩ | ⟨before, d, after, hsplit, hbefore, hd, he⟩ :=
      ofPredicate_substitute_cases (s := s) hvalues
    · exact .inr ⟨p, _, c, rfl, hfits, hdeclared, filled_substitute hvalues, hc, hc⟩
    · exact .inl ⟨_, .undeclared hparse hfits hsplit hbefore hd, he⟩

/-- A call of a query is accepted exactly. Unless its text says nothing about a single value, there
is a condition if and only if the text is a query, the parameters of the query are those that the
call has values for, and its fields are declared. It is the condition of the query with every
parameter replaced by its value. An error says the first of these that fails. -/
theorem ofQuery_accepts_exactly (s : Schema) (text : String) (b : Bindings)
    (h : ∀ v, b = .positional [v] → isShorthand text 1 = false) :
    ((∃ c, ofQuery s text b = .ok c) ↔ Accepted s text b) ∧
      (∀ c, ofQuery s text b = .ok c → c.IsBound s ∧ ∃ p bound, parse text = .ok p ∧
        Filled b.get? p bound ∧ ofPredicate s bound = .ok c) ∧
      ∀ e, ofQuery s text b = .error e → Refused s text b e := by
  have htext : ofQuery s text b = ofText s text b := by
    unfold ofQuery
    split
    · rw [if_neg (by simp [h _ rfl])]
    · rfl
  rw [htext]
  obtain ⟨e, hrefused, he⟩ | ⟨p, bound, c, hparse, hfits, hdeclared, hfilled, hc, hok⟩ :=
    ofText_cases s text b
  · rw [he]
    refine ⟨⟨?_, fun haccepted => absurd haccepted hrefused.not_accepted⟩, ?_, ?_⟩
    · rintro ⟨c, hc⟩
      cases hc
    · intro c hc
      cases hc
    · rintro _ ⟨⟩
      exact hrefused
  · rw [hok]
    refine ⟨⟨fun _ => ⟨p, hparse, hfits, hdeclared⟩, fun _ => ⟨c, rfl⟩⟩, ?_, ?_⟩
    · rintro _ ⟨⟩
      exact ⟨.of_ofPredicate hc, p, bound, hparse, hfilled, hc⟩
    · intro e he
      cases he

end Condition

end Query

/-! ## A parameter in two places -/

namespace Sample

open Query

/-- Readings of a sensor with a value that is high, or that is the sensor itself. -/
def twice : Predicate :=
  .and [.compare ⟨"sensor", .eq, .placeholder (.positional 1)⟩,
    .or [.compare ⟨"value", .gt, .placeholder (.positional 2)⟩,
      .compare ⟨"value", .eq, .placeholder (.positional 1)⟩]]

/-- The first value looks like the second parameter, which it is not. -/
def lookalike : Bindings :=
  .positional [.text "?2", .number "5"]

/-- A text with a parameter that stands twice, and a value that looks like another parameter. -/
theorem ofQuery_accepts_exactly_twice :
    (∀ v, lookalike = .positional [v] →
      Condition.isShorthand "sensor = ?1 AND (value > ?2 OR value = ?1)" 1 = false) ∧
      ∃ c, Condition.ofQuery readings "sensor = ?1 AND (value > ?2 OR value = ?1)" lookalike =
          .ok c ∧
        c.IsBound readings ∧ ∃ bound, Predicate.Filled lookalike.get? twice bound ∧
          Condition.ofPredicate readings bound = .ok c := by
  have hlex : lex "sensor = ?1 AND (value > ?2 OR value = ?1)" =
      .ok [⟨.name "sensor", 0⟩, ⟨.op .eq, 7⟩, ⟨.positional 1, 9⟩, ⟨.and, 12⟩, ⟨.openGroup, 16⟩,
        ⟨.name "value", 17⟩, ⟨.op .gt, 23⟩, ⟨.positional 2, 25⟩, ⟨.or, 28⟩, ⟨.name "value", 31⟩,
        ⟨.op .eq, 37⟩, ⟨.positional 1, 39⟩, ⟨.closeGroup, 41⟩] := by
    decide +kernel
  have hparse : parse "sensor = ?1 AND (value > ?2 OR value = ?1)" = .ok twice := by
    rw [parse, hlex]
    rfl
  have hfits : lookalike.Fits twice := by
    intro q
    rw [show twice.placeholders = lookalike.placeholders from rfl]
    exact Bindings.mem_placeholders_iff
  have hdeclared : twice.Declared readings := by
    decide
  have hmany : ∀ v, lookalike = .positional [v] →
      Condition.isShorthand "sensor = ?1 AND (value > ?2 OR value = ?1)" 1 = false := by
    intro v hv
    simp [lookalike] at hv
  obtain ⟨hiff, hbound, -⟩ := Condition.ofQuery_accepts_exactly readings _ lookalike hmany
  obtain ⟨c, hc⟩ := hiff.2 ⟨twice, hparse, hfits, hdeclared⟩
  obtain ⟨hisBound, p, bound, hp, hfilled, hof⟩ := hbound c hc
  obtain rfl := Except.ok.inj (hparse.symm.trans hp)
  exact ⟨hmany, c, hc, hisBound, bound, hfilled, hof⟩

end Sample

end ItemStore
