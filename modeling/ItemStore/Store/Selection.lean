import ItemStore.Query.Condition
import ItemStore.Value.Order

/-!
# Which items a condition selects

A condition is run in two steps, as a remote store would do it: its key part selects rows of a
partition, and what is left of the predicate filters them. A missing attribute satisfies `<>` only,
and so does one that does not compare.
-/

namespace ItemStore

/-- Whether an attribute compares as asked. -/
def CompareOp.holds (op : CompareOp) (actual : Option Value) (expected : Value) : Bool :=
  match actual with
  | none => op == .ne
  | some v =>
    match op with
    | .eq => v.same expected
    | .ne => !v.same expected
    | .lt => v.compare? expected == some .lt
    | .le => v.compare? expected == some .lt || v.compare? expected == some .eq
    | .gt => v.compare? expected == some .gt
    | .ge => v.compare? expected == some .gt || v.compare? expected == some .eq

/-- Whether a comparison holds of an item. With an unbound parameter it never does. -/
def Comparison.holds (item : Item) (c : Comparison) : Bool :=
  match c.operand with
  | .literal v => c.op.holds (item.get? c.field) v
  | .placeholder _ => false

mutual

/-- Whether a predicate holds of an item. -/
def Predicate.holds (item : Item) : Predicate → Bool
  | .compare c => c.holds item
  | .and children => Predicate.allHold item children
  | .or children => Predicate.anyHolds item children

/-- Whether all parts of a group hold. -/
def Predicate.allHold (item : Item) : List Predicate → Bool
  | [] => true
  | p :: rest => Predicate.holds item p && Predicate.allHold item rest

/-- Whether a part of a group holds. -/
def Predicate.anyHolds (item : Item) : List Predicate → Bool
  | [] => false
  | p :: rest => Predicate.holds item p || Predicate.anyHolds item rest

end

namespace Query

/-- Whether an item is in the partition and range of a key condition. A sort comparison counts
only if there is a sort key. -/
def KeyCondition.selects (s : Schema) (k : KeyCondition) (item : Item) : Bool :=
  let inPartition := match item.get? s.partitionKey.name with
    | some v => v.same k.partition
    | none => false
  let inRange := match k.sort, s.sortKey with
    | some c, some f => c.op.holds (item.get? f.name) c.value
    | _, _ => true
  inPartition && inRange

namespace Condition

/-- The part of a condition that selects by key. -/
def key? : Condition → Option KeyCondition
  | everything => none
  | keyEquals v => some ⟨v, none⟩
  | filter key _ => key

/-- The part of a condition that filters what was selected. -/
def residual? : Condition → Option Predicate
  | filter _ predicate => predicate
  | _ => none

/-- Whether an item is selected by key. -/
def selects (s : Schema) (c : Condition) (item : Item) : Bool :=
  c.key?.all fun k => k.selects s item

/-- Whether an item passes the filter. -/
def passes (c : Condition) (item : Item) : Bool := c.residual?.all fun p => p.holds item

end Condition

end Query

end ItemStore
