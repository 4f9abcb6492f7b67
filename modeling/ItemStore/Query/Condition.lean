import ItemStore.Error
import ItemStore.Query.Parser

/-!
# Conditions

A condition is a query in the form that a store runs. A table is read by partition, with at most
one comparison of the sort key, or from end to end, and what is read is filtered by the rest of the
predicate. `Condition.ofPredicate` finds the cheapest such form: a lone equality with the partition
key, or a conjunction with exactly one, reads one partition.
-/

namespace ItemStore.Query

/-- How a store runs a condition. -/
inductive Operation where
  | query
  | scan
  deriving DecidableEq, Repr

/-- A comparison of the sort key. -/
structure SortCondition where
  op : CompareOp
  value : Value
  deriving DecidableEq

/-- A partition, and what its sort keys are compared with. -/
structure KeyCondition where
  partition : Value
  sort : Option SortCondition := none
  deriving DecidableEq

/-- What to read: how the items are found, and which of them are wanted. -/
inductive Condition where
  | everything
  /-- The items of one partition. -/
  | keyEquals (value : Value)
  /-- What is read by key, or everything, and then filtered. -/
  | filter (key : Option KeyCondition) (predicate : Option Predicate)
  deriving Inhabited

namespace Condition

/-- A condition that says which partition to read is a query, any other a scan. -/
def operation : Condition → Operation
  | keyEquals _ | filter (some _) _ => .query
  | everything | filter none _ => .scan

/-- The comparison that a conjunct is, if it compares the field. -/
def comparisonOn (field : String) : Predicate → Option Comparison
  | .compare c => if c.field = field then some c else none
  | _ => none

/-- The sort comparison that a conjunction gives to the key: its only one, unless it is `<>`. -/
def sortConditionOf (sortKey : Field) (conjuncts : List Predicate) : Option SortCondition :=
  match conjuncts.filterMap (comparisonOn sortKey.name) with
  | [⟨_, op, .literal v⟩] => if op.isKeyConditionOp then some ⟨op, v⟩ else none
  | _ => none

/-- Splits a conjunction into a key and the rest, if exactly one of its conjuncts compares the
partition key and that one is an equality. -/
def keyed? (s : Schema) (conjuncts : List Predicate) : Option Condition :=
  match conjuncts.filterMap (comparisonOn s.partitionKey.name) with
  | [⟨_, .eq, .literal v⟩] =>
    let sort := s.sortKey.bind fun f => (sortConditionOf f conjuncts).map fun c => (f, c)
    let rest := conjuncts.filter fun p =>
      (comparisonOn s.partitionKey.name p).isNone &&
        sort.all fun fc => (comparisonOn fc.1.name p).isNone
    some (filter (some ⟨v, sort.map Prod.snd⟩)
      (if rest.isEmpty then none else some (Predicate.conjoin rest)))
  | _ => none

/-- Refuses a comparison of a field that is not declared, or with a parameter. -/
def check (s : Schema) (c : Comparison) : Except Error Unit :=
  if s.hasField c.field then
    match c.operand with
    | .literal _ => .ok ()
    | .placeholder p => .error (.binding (.unbound p))
  else .error (.unknownField s.entity c.field)

/-- The condition that selects what a predicate holds of. -/
def ofPredicate (s : Schema) (p : Predicate) : Except Error Condition := do
  p.comparisons.forM (check s)
  match p with
  | .compare ⟨field, .eq, .literal v⟩ =>
    return if field = s.partitionKey.name then keyEquals v else filter none (some p)
  | .and conjuncts => return (keyed? s conjuncts).getD (filter none (some p))
  | p => return filter none (some p)

/-- Whether a text with `count` values by place is no query but a plain look-up by key. -/
def isShorthand (text : String) (count : Nat) : Bool :=
  count == 1 && !text.toList.any fun c => ['?', ':', '=', '<', '>', '!', '\x7b'].contains c

/-- The condition of a query text with values for its parameters, whatever kind they are. -/
def ofText (s : Schema) (text : String) (bindings : Bindings) : Except Error Condition := do
  let p ← (parse text).mapError .badSyntax
  let bound ← (bindings.bind p).mapError .binding
  ofPredicate s bound

/-- The condition of a query. A single value with a text that says nothing about it is looked up as
the partition key. -/
def ofQuery (s : Schema) (text : String) : Bindings → Except Error Condition
  | .positional [v] =>
    if isShorthand text 1 then .ok (keyEquals v) else ofText s text (.positional [v])
  | bindings => ofText s text bindings

end Condition

end ItemStore.Query
