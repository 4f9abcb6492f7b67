import ItemStore.Query.Expression
import ItemStore.Value.Json

/-!
# Queries as JSON

How a condition and its expression show in the JSON output of an explanation.
-/

namespace ItemStore

/-- The operator's name. -/
def CompareOp.name : CompareOp → String
  | .eq => "eq"
  | .ne => "ne"
  | .lt => "lt"
  | .le => "le"
  | .gt => "gt"
  | .ge => "ge"

/-- A placeholder by its place or its name. -/
def Placeholder.toJson : Placeholder → Json
  | .positional index => .object [("positional", .ofNat index)]
  | .named name => .object [("named", .string name)]

/-- An operand, by which of the two it is. -/
def Operand.toJson : Operand → Json
  | .placeholder p => .object [("placeholder", p.toJson)]
  | .literal v => .object [("literal", v.toJson)]

/-- A comparison by its parts. -/
def Comparison.toJson (c : Comparison) : Json :=
  .object [("field", .string c.field), ("op", .string c.op.name), ("operand", c.operand.toJson)]

mutual

/-- A predicate as a tree, group by group. -/
def Predicate.toJson : Predicate → Json
  | .compare c => .object [("compare", c.toJson)]
  | .and children => .object [("and", .array (Predicate.allToJson children))]
  | .or children => .object [("or", .array (Predicate.allToJson children))]

/-- The parts of a group, in order. -/
def Predicate.allToJson : List Predicate → List Json
  | [] => []
  | p :: rest => p.toJson :: Predicate.allToJson rest

end

/-- Something, or null. -/
def Json.ofOption {α : Type} (f : α → Json) : Option α → Json
  | some a => f a
  | none => .null

/-- A dictionary as an object. -/
def Dict.toJsonWith {α : Type} (f : α → Json) (d : Dict α) : Json :=
  .object (d.entries.map fun e => (e.1, f e.2))

namespace Query

/-- The name of an operation in an answer. -/
def Operation.name : Operation → String
  | .query => "query"
  | .scan => "scan"

/-- A sort condition by its operator and value. -/
def SortCondition.toJson (c : SortCondition) : Json :=
  .object [("op", .string c.op.name), ("value", c.value.toJson)]

/-- A key condition by its partition and what it says of the sort key. -/
def KeyCondition.toJson (c : KeyCondition) : Json :=
  .object [("partition", c.partition.toJson), ("sort", .ofOption SortCondition.toJson c.sort)]

/-- A condition by its kind. -/
def Condition.toJson : Condition → Json
  | .everything => .object [("kind", .string "scan_all")]
  | .keyEquals v => .object [("kind", .string "key_equals"), ("value", v.toJson)]
  | .filter key predicate =>
    .object [("kind", .string "filter"), ("key", .ofOption KeyCondition.toJson key),
      ("predicate", .ofOption Predicate.toJson predicate)]

/-- A rendered condition with both of its tables. -/
def Expression.toJson (e : Expression) : Json :=
  .object [("operation", .string e.operation.name), ("key_condition", .ofText? e.keyCondition),
    ("filter", .ofText? e.filter), ("names", e.names.toJsonWith .string),
    ("values", e.values.toJsonWith Value.toJson)]

end Query

end ItemStore
