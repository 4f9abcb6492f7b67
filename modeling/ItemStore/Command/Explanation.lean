import ItemStore.Command.Literal
import ItemStore.Query.Json

/-!
# Explanations

What a query on a command line means for a table, without running it.
-/

namespace ItemStore.Command

open Query

/-- The literals for the parameters of a query. -/
structure QueryParameters where
  positional : List String := []
  /-- Written `name=literal`. -/
  named : List String := []

/-- The condition of a query and its parameters. Without both everything is read, and a single value
without a query is looked up as the partition key. -/
def resolveCondition (s : Schema) (query : Option String) (p : QueryParameters) :
    Except CommandError Condition := do
  if !p.positional.isEmpty && !p.named.isEmpty then throw .mixedParameters
  if query.isNone && p.positional.isEmpty && p.named.isEmpty then return .everything
  let bindings ← if p.named.isEmpty then (parseValues p.positional).map .positional
    else (parseNamed p.named).map .named
  (Condition.ofQuery s (query.getD "") bindings).mapError .failure

/-- How a query would be run: on which table, with which condition, and how that is rendered. -/
structure Explanation where
  table : String
  condition : Condition
  expression : Expression

/-- How a query is run on a table. -/
def explain (s : Schema) (query : String) (p : QueryParameters) :
    Except CommandError Explanation := do
  let condition ← resolveCondition s (some query) p
  return ⟨s.table, condition, condition.render s⟩

/-- An explanation as it is printed in JSON. -/
def Explanation.toJson (e : Explanation) : Json :=
  .object [("table", .string e.table), ("condition", e.condition.toJson),
    ("expression", e.expression.toJson)]

end ItemStore.Command
