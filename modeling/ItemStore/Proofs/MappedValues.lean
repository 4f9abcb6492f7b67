import ItemStore.Proofs.Translation
import ItemStore.Query.Expression

/-!
# Queries with other values

Nothing on the way from a query to its expression looks into a value. So when every value is
changed by some function, binding, translating and rendering do what they did, and end with the
changed values: one equation for each step, by the recursion of that step. Main statements: bindings
that are changed to the same give conditions that are changed to the same
(`Query.Condition.map_ofQuery_congr`), and the expression of a changed condition differs in its
table of values only (`Query.Condition.render_mapValues`).
-/

namespace ItemStore

/-! ## Dictionaries -/

namespace Dict

variable {α β : Type}

/-- Changing values changes what is under a name. -/
theorem get?_map (f : α → β) (d : Dict α) (name : String) :
    (d.map f).get? name = (d.get? name).map f := by
  simp only [get?, map, List.find?_map, Option.map_map]
  rfl

/-- Changing values goes through an insertion. -/
theorem map_insert (f : α → β) (d : Dict α) (name : String) (value : α) :
    (d.insert name value).map f = (d.map f).insert name (f value) := by
  refine ext_get? fun other => ?_
  rw [get?_map, get?_insert, get?_insert, get?_map]
  split <;> rfl

theorem map_ofList (f : α → β) (pairs : List (String × α)) :
    (ofList pairs).map f = ofList (pairs.map fun e => (e.1, f e.2)) := by
  have hfold : ∀ (pairs : List (String × α)) (d : Dict α),
      (pairs.foldl (fun d e => d.insert e.1 e.2) d).map f =
        (pairs.map fun e => (e.1, f e.2)).foldl (fun d e => d.insert e.1 e.2) (d.map f) := by
    intro pairs
    induction pairs with
    | nil => exact fun d => rfl
    | cons e rest ih =>
      intro d
      rw [List.foldl_cons, ih, map_insert]
      rfl
  exact hfold pairs empty

theorem keys_map (f : α → β) (d : Dict α) : (d.map f).keys = d.keys := by
  simp [keys, map]

/-- With one value everywhere, a dictionary says no more than its names. -/
theorem map_const_eq_iff {d e : Dict α} (b : β) :
    (d.map fun _ => b) = e.map (fun _ => b) ↔ d.keys = e.keys := by
  constructor
  · intro h
    rw [← keys_map (fun _ => b) d, h, keys_map]
  · intro h
    have hentries : ∀ d : Dict α, (d.map fun _ => b).entries = d.keys.map fun n => (n, b) := by
      intro d
      simp [map, keys]
    exact ext_entries (by rw [hentries, hentries, h])

end Dict

/-! ## Predicates -/

variable (f : Value → Value)

/-- Changes the value of an operand that has one. -/
def Operand.mapValues : Operand → Operand
  | placeholder p => placeholder p
  | literal v => literal (f v)

/-- Changes the value that a field is compared with. -/
def Comparison.mapValues (c : Comparison) : Comparison :=
  { c with operand := c.operand.mapValues f }

namespace Predicate

mutual

/-- Changes every value. -/
def mapValues : Predicate → Predicate
  | compare c => compare (c.mapValues f)
  | and children => and (mapValuesAll children)
  | or children => or (mapValuesAll children)

/-- Changes every value in the parts of a group. -/
def mapValuesAll : List Predicate → List Predicate
  | [] => []
  | p :: rest => mapValues p :: mapValuesAll rest

end

theorem mapValuesAll_eq (ps : List Predicate) : mapValuesAll f ps = ps.map (mapValues f) := by
  induction ps with
  | nil => rfl
  | cons p ps ih => rw [mapValuesAll, ih, List.map_cons]

mutual

/-- Changing values goes through the comparisons one by one. -/
theorem comparisons_mapValues : ∀ p : Predicate,
    (p.mapValues f).comparisons = p.comparisons.map (Comparison.mapValues f)
  | compare _ => rfl
  | and children => comparisonsOf_mapValuesAll children
  | or children => comparisonsOf_mapValuesAll children

theorem comparisonsOf_mapValuesAll : ∀ ps : List Predicate,
    comparisonsOf (mapValuesAll f ps) = (comparisonsOf ps).map (Comparison.mapValues f)
  | [] => rfl
  | p :: rest => by
    rw [mapValuesAll, comparisonsOf, comparisons_mapValues p, comparisonsOf_mapValuesAll rest,
      comparisonsOf, List.map_append]

end

mutual

/-- Filling with changed values is changing the values that were filled in. -/
theorem substitute_mapValues (values : Placeholder → Option Value) : ∀ p : Predicate,
    (p.mapValues f).substitute (fun q => (values q).map f) = (p.substitute values).mapValues f
  | compare ⟨field, op, .literal v⟩ => rfl
  | compare ⟨field, op, .placeholder q⟩ => by
    cases h : values q <;>
      simp [mapValues, substitute, Comparison.mapValues, Comparison.substitute, Operand.mapValues,
        Operand.substitute, h]
  | and children => congrArg and (substituteAll_mapValuesAll values children)
  | or children => congrArg or (substituteAll_mapValuesAll values children)

theorem substituteAll_mapValuesAll (values : Placeholder → Option Value) :
    ∀ ps : List Predicate, substituteAll (fun q => (values q).map f) (mapValuesAll f ps) =
      mapValuesAll f (substituteAll values ps)
  | [] => rfl
  | p :: rest => by
    rw [mapValuesAll, substituteAll, substitute_mapValues values p,
      substituteAll_mapValuesAll values rest, substituteAll, mapValuesAll]

end

theorem placeholders_mapValues (p : Predicate) : (p.mapValues f).placeholders = p.placeholders := by
  rw [placeholders, comparisons_mapValues, List.filterMap_map, placeholders]
  congr 2
  funext c
  obtain ⟨field, op, operand⟩ := c
  cases operand <;> rfl

theorem conjuncts_mapValues (p : Predicate) :
    (p.mapValues f).conjuncts = p.conjuncts.map (mapValues f) := by
  cases p with
  | and children => exact mapValuesAll_eq f children
  | _ => rfl

/-- Joining looks at no values. -/
theorem conjoin_mapValues (ps : List Predicate) :
    conjoin (ps.map (mapValues f)) = (conjoin ps).mapValues f := by
  have hparts : (ps.map (mapValues f)).flatMap conjuncts =
      (ps.flatMap conjuncts).map (mapValues f) := by
    rw [List.flatMap_map, List.map_flatMap]
    exact congrArg (fun g => ps.flatMap g) (funext (conjuncts_mapValues f))
  rw [conjoin, hparts, conjoin]
  cases ps.flatMap conjuncts with
  | nil => rfl
  | cons p rest =>
    cases rest with
    | nil => rfl
    | cons q rest => exact congrArg and (mapValuesAll_eq f (p :: q :: rest)).symm

end Predicate

namespace Query

/-! ## Bindings -/

namespace Bindings

/-- Changes every value. -/
def mapValues : Bindings → Bindings
  | positional values => positional (values.map f)
  | named values => named (values.map f)

theorem get?_mapValues (b : Bindings) (q : Placeholder) :
    (b.mapValues f).get? q = (b.get? q).map f := by
  cases b with
  | positional values =>
    cases q with
    | positional index => cases index <;> simp [mapValues, get?]
    | named name => rfl
  | named values =>
    cases q with
    | positional index => rfl
    | named name => exact values.get?_map f name

theorem placeholders_mapValues (b : Bindings) :
    (b.mapValues f).placeholders = b.placeholders := by
  cases b with
  | positional values => simp [mapValues, placeholders]
  | named values => simp [mapValues, placeholders, Dict.keys_map]

/-- Binding looks at no values: it fails alike, or fills in the changed ones. -/
theorem bind_mapValues (b : Bindings) (p : Predicate) :
    (b.mapValues f).bind (p.mapValues f) = (b.bind p).map (Predicate.mapValues f) := by
  have hget : (b.mapValues f).get? = fun q => (b.get? q).map f := funext (b.get?_mapValues f)
  simp only [bind, Predicate.placeholders_mapValues, placeholders_mapValues, hget,
    Predicate.substitute_mapValues, Option.isNone_map]
  split
  · rfl
  · split
    · rfl
    · split <;> rfl

end Bindings

/-! ## Conditions -/

/-- Changes the value that the sort key is compared with. -/
def SortCondition.mapValues (c : SortCondition) : SortCondition := { c with value := f c.value }

/-- Changes the values of a key condition. -/
def KeyCondition.mapValues (k : KeyCondition) : KeyCondition :=
  ⟨f k.partition, k.sort.map (SortCondition.mapValues f)⟩

namespace Condition

/-- Changes every value. -/
def mapValues : Condition → Condition
  | everything => everything
  | keyEquals v => keyEquals (f v)
  | filter key predicate =>
    filter (key.map (KeyCondition.mapValues f)) (predicate.map (Predicate.mapValues f))

/-- Which comparison is on a field does not depend on values. -/
theorem comparisonOn_mapValues (field : String) (p : Predicate) :
    comparisonOn field (p.mapValues f) = (comparisonOn field p).map (Comparison.mapValues f) := by
  cases p with
  | compare c =>
    simp only [Predicate.mapValues, comparisonOn, Comparison.mapValues]
    split <;> rfl
  | _ => rfl

theorem filterMap_comparisonOn_mapValues (field : String) (ps : List Predicate) :
    (ps.map (Predicate.mapValues f)).filterMap (comparisonOn field) =
      (ps.filterMap (comparisonOn field)).map (Comparison.mapValues f) := by
  rw [List.filterMap_map, List.map_filterMap]
  exact congrArg (fun g => ps.filterMap g) (funext (comparisonOn_mapValues f field))

theorem sortConditionOf_mapValues (sortKey : Field) (ps : List Predicate) :
    sortConditionOf sortKey (ps.map (Predicate.mapValues f)) =
      (sortConditionOf sortKey ps).map (SortCondition.mapValues f) := by
  rw [sortConditionOf, filterMap_comparisonOn_mapValues, sortConditionOf]
  rcases ps.filterMap (comparisonOn sortKey.name) with _ | ⟨⟨name, op, q | v⟩, _ | ⟨d, rest⟩⟩
  case cons.literal.nil =>
    simp only [List.map_cons, List.map_nil, Comparison.mapValues, Operand.mapValues]
    split <;> rfl
  all_goals rfl

theorem isNone_comparisonOn_mapValues (field : String) (p : Predicate) :
    (comparisonOn field (p.mapValues f)).isNone = (comparisonOn field p).isNone := by
  rw [comparisonOn_mapValues, Option.isNone_map]

/-- Whether a partition can be read does not depend on values. -/
theorem keyed?_mapValues (s : Schema) (ps : List Predicate) :
    keyed? s (ps.map (Predicate.mapValues f)) = (keyed? s ps).map (mapValues f) := by
  rw [keyed?, filterMap_comparisonOn_mapValues, keyed?]
  rcases ps.filterMap (comparisonOn s.partitionKey.name) with
    _ | ⟨⟨name, op, q | v⟩, _ | ⟨d, rest⟩⟩
  case cons.literal.nil =>
    cases op
    case eq =>
      have hsort : (s.sortKey.bind fun k => (sortConditionOf k
          (ps.map (Predicate.mapValues f))).map fun c => (k, c)) =
          (s.sortKey.bind fun k => (sortConditionOf k ps).map fun c => (k, c)).map
            (Prod.map id (SortCondition.mapValues f)) := by
        cases s.sortKey <;> simp [sortConditionOf_mapValues, Function.comp_def]
      simp only [List.map_cons, List.map_nil, Comparison.mapValues, Operand.mapValues, hsort,
        List.filter_map, Function.comp_def, isNone_comparisonOn_mapValues, Option.all_map,
        Prod.map_fst, id_eq, List.isEmpty_map, Predicate.conjoin_mapValues, Option.map_map,
        Option.map_some, mapValues, KeyCondition.mapValues, Prod.map_snd]
      split <;> rfl
    all_goals rfl
  case nil => rfl
  all_goals cases op <;> rfl

/-- A comparison is checked without its value. -/
theorem check_mapValues (s : Schema) (c : Comparison) : check s (c.mapValues f) = check s c := by
  obtain ⟨field, op, operand⟩ := c
  cases operand <;> rfl

theorem ofPredicate_mapValues (s : Schema) (p : Predicate) :
    ofPredicate s (p.mapValues f) = (ofPredicate s p).map (mapValues f) := by
  have hcheck : (p.mapValues f).comparisons.forM (check s) = p.comparisons.forM (check s) := by
    rw [Predicate.comparisons_mapValues, List.forM_eq_forM, List.forM_map]
    simp only [check_mapValues]
  unfold ofPredicate
  rw [hcheck]
  cases p.comparisons.forM (check s) with
  | error e => rfl
  | ok u =>
    match p with
    | .compare ⟨field, op, .placeholder q⟩ => cases op <;> rfl
    | .compare ⟨field, op, .literal v⟩ =>
      cases op
      case eq =>
        by_cases hfield : field = s.partitionKey.name
        · simp [Predicate.mapValues, Comparison.mapValues, Operand.mapValues, hfield, mapValues,
            bind, Except.bind, Except.map, pure, Except.pure]
        · simp [Predicate.mapValues, Comparison.mapValues, Operand.mapValues, hfield, mapValues,
            bind, Except.bind, Except.map, pure, Except.pure]
      all_goals rfl
    | .and ps =>
      have hkeyed := keyed?_mapValues f s ps
      rw [← Predicate.mapValuesAll_eq] at hkeyed
      simp only [Predicate.mapValues, hkeyed, bind, Except.bind, Except.map, pure, Except.pure]
      cases keyed? s ps <;> rfl
    | .or ps => rfl

/-- What a text binds depends on changed values as it depends on what is there. -/
theorem bindText_mapValues (text : String) (b : Bindings) :
    (bindText text b).map (Predicate.mapValues f) = (parse text).mapError .badSyntax >>= fun p =>
      ((b.mapValues f).bind (p.mapValues f)).mapError .binding := by
  unfold bindText
  cases parse text with
  | error e => rfl
  | ok p =>
    change ((b.bind p).mapError Error.binding).map (Predicate.mapValues f) =
      ((b.mapValues f).bind (p.mapValues f)).mapError Error.binding
    rw [Bindings.bind_mapValues]
    cases b.bind p <;> rfl

/-- Bindings that are equal once their values are changed bind to predicates that are. -/
theorem map_boundPredicate_congr (s : Schema) (text : String) {b b' : Bindings}
    (h : b.mapValues f = b'.mapValues f) : (boundPredicate s text b).map (Predicate.mapValues f) =
      (boundPredicate s text b').map (Predicate.mapValues f) := by
  have htext : (bindText text b).map (Predicate.mapValues f) =
      (bindText text b').map (Predicate.mapValues f) := by
    rw [bindText_mapValues, bindText_mapValues, h]
  match b, b' with
  | .positional [], .positional [] | .named _, .named _
  | .positional (_ :: _ :: _), .positional (_ :: _ :: _) => exact htext
  | .positional [v], .positional [v'] =>
    have hv : f v = f v' := by simpa [Bindings.mapValues] using h
    rw [boundPredicate, boundPredicate]
    split
    · simp [Except.map, Predicate.mapValues, Comparison.mapValues, Operand.mapValues, hv]
    · exact htext
  | .positional [], .positional (_ :: _) | .positional (_ :: _), .positional []
  | .positional [_], .positional (_ :: _ :: _) | .positional (_ :: _ :: _), .positional [_] =>
    simp [Bindings.mapValues] at h
  | .positional _, .named _ | .named _, .positional _ => simp [Bindings.mapValues] at h

/-- Bindings that are changed to the same give conditions that are changed to the same. -/
theorem map_ofQuery_congr (s : Schema) (text : String) {b b' : Bindings}
    (h : b.mapValues f = b'.mapValues f) :
    (ofQuery s text b).map (mapValues f) = (ofQuery s text b').map (mapValues f) := by
  have hbound : ∀ b : Bindings, (ofQuery s text b).map (mapValues f) =
      (boundPredicate s text b).map (Predicate.mapValues f) >>= ofPredicate s := by
    intro b
    rw [ofQuery_eq]
    cases boundPredicate s text b with
    | error e => rfl
    | ok p => exact (ofPredicate_mapValues f s p).symm
  rw [hbound, hbound, map_boundPredicate_congr f s text h]

end Condition

/-! ## Expressions -/

namespace Aliases

/-- Changes every value. -/
def mapValues (a : Aliases) : Aliases := { a with values := a.values.map f }

theorem field_mapValues (a : Aliases) (name : String) :
    (a.mapValues f).field name = ((a.field name).1, (a.field name).2.mapValues f) := by
  simp only [field, mapValues]
  cases a.fields.idxOf? name <;> rfl

theorem value_mapValues (a : Aliases) (v : Value) :
    (a.mapValues f).value (f v) = ((a.value v).1, (a.value v).2.mapValues f) := by
  simp [value, mapValues]

theorem valueTable_mapValues (a : Aliases) : (a.mapValues f).valueTable = a.valueTable.map f := by
  rw [valueTable, valueTable, Dict.map_ofList]
  congr 1
  exact List.ext_getElem (by simp [mapValues]) (by simp [mapValues])

end Aliases

namespace Clause

/-- A comparison is numbered without its value. -/
theorem ofComparison_mapValues (field : String) (op : CompareOp) (v : Value) (a : Aliases) :
    ofComparison field op (f v) (a.mapValues f) =
      ((ofComparison field op v a).1, (ofComparison field op v a).2.mapValues f) := by
  simp only [ofComparison, Aliases.field_mapValues, Aliases.value_mapValues]

mutual

theorem ofPredicate_mapValues : ∀ (a : Aliases) (p : Predicate),
    ofPredicate (a.mapValues f) (p.mapValues f) =
      ((ofPredicate a p).1, (ofPredicate a p).2.mapValues f)
  | a, .compare ⟨field, op, .literal v⟩ => ofComparison_mapValues f field op v a
  | a, .compare ⟨field, op, .placeholder p⟩ => by
    simp only [Predicate.mapValues, Comparison.mapValues, Operand.mapValues, ofPredicate,
      Aliases.field_mapValues]
  | a, .and children => by
    simp only [Predicate.mapValues, ofPredicate, ofPredicates_mapValuesAll a children]
  | a, .or children => by
    simp only [Predicate.mapValues, ofPredicate, ofPredicates_mapValuesAll a children]

theorem ofPredicates_mapValuesAll : ∀ (a : Aliases) (ps : List Predicate),
    ofPredicates (a.mapValues f) (Predicate.mapValuesAll f ps) =
      ((ofPredicates a ps).1, (ofPredicates a ps).2.mapValues f)
  | a, [] => rfl
  | a, p :: rest => by
    simp only [Predicate.mapValuesAll, ofPredicates, ofPredicate_mapValues a p,
      ofPredicates_mapValuesAll _ rest]

end

theorem ofKey_mapValues (s : Schema) (key : KeyCondition) (a : Aliases) :
    ofKey s (key.mapValues f) (a.mapValues f) =
      ((ofKey s key a).1, (ofKey s key a).2.mapValues f) := by
  obtain ⟨partition, sort⟩ := key
  cases sort <;> cases hsort : s.sortKey <;>
    simp [ofKey, KeyCondition.mapValues, SortCondition.mapValues, ofComparison_mapValues, hsort]

end Clause

/-- Numbering what is optional treats changed values as numbering what is there does. -/
theorem numberOption_map {α : Type} {number : α → Aliases → Clause × Aliases} {change : α → α}
    (h : ∀ x a, number (change x) (a.mapValues f) = ((number x a).1, (number x a).2.mapValues f))
    (a : Aliases) (x : Option α) : numberOption number (a.mapValues f) (x.map change) =
      ((numberOption number a x).1, (numberOption number a x).2.mapValues f) := by
  cases x with
  | none => rfl
  | some x => simp only [Option.map_some, numberOption, h]

/-- Changes the values in the table. -/
def Expression.mapValues (e : Expression) : Expression := { e with values := e.values.map f }

namespace Condition

/-- The clauses of a condition depend on no values, which only stand in the table. -/
theorem clauses_mapValues (s : Schema) (c : Condition) : (c.mapValues f).clauses s =
    ((c.clauses s).1, (c.clauses s).2.1, (c.clauses s).2.2.mapValues f) := by
  cases c with
  | everything => rfl
  | keyEquals v =>
    have hkey := Clause.ofComparison_mapValues f s.partitionKey.name .eq v {}
    exact congrArg (fun r => (some r.1, none, r.2)) hkey
  | filter key predicate =>
    have hkey := numberOption_map f (Clause.ofKey_mapValues f s) {} key
    change numberOption _ {} _ = _ at hkey
    have hrest : ∀ a : Aliases, numberOption (fun p a => Clause.ofPredicate a p) (a.mapValues f)
        (predicate.map (Predicate.mapValues f)) = _ := fun a =>
      numberOption_map f (fun p a => Clause.ofPredicate_mapValues f a p) a predicate
    simp only [mapValues, clauses, hkey, hrest]

/-- The expression of a changed condition is the same, with the changed values in its table. -/
theorem render_mapValues (s : Schema) (c : Condition) :
    (c.mapValues f).render s = (c.render s).mapValues f := by
  have hoperation : (c.mapValues f).operation = c.operation := by
    rcases c with _ | _ | ⟨_ | _, _⟩ <;> rfl
  simp only [render, clauses_mapValues, hoperation, Expression.ofClauses, Expression.mapValues,
    Aliases.valueTable_mapValues]
  rfl

end Condition

end Query

end ItemStore
