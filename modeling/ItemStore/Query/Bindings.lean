import ItemStore.Query.Predicate

/-!
# Bindings

The values that a call brings for the parameters of a query, by place or by name. Binding puts
them in and takes no loose end: no parameter without a value, no value without a parameter, and
not both kinds of parameters in one query.
-/

namespace ItemStore.Query

/-- Values for the parameters of a query, by place or by name. -/
inductive Bindings where
  /-- For the parameters from the first on. -/
  | positional (values : List Value)
  | named (values : Dict Value)
  deriving Inhabited

/-- Why values and parameters do not fit. -/
inductive BindingFault where
  | mixed
  | missing (p : Placeholder)
  | unused (p : Placeholder)
  /-- A parameter in a predicate that has to be bound already. -/
  | unbound (p : Placeholder)
  deriving DecidableEq, Repr

/-- What a user reads of a fault in the bindings. -/
def BindingFault.message : BindingFault → String
  | mixed => "query mixes positional and named parameters"
  | missing p => "no value supplied for parameter " ++ p.display
  | unused p => "parameter " ++ p.display ++ " is not used in the query"
  | unbound p => "parameter " ++ p.display ++ " is not bound"

namespace Bindings

/-- The value of a parameter. -/
def get? : Bindings → Placeholder → Option Value
  | positional values, .positional (index + 1) => values[index]?
  | named values, .named name => values.get? name
  | _, _ => none

/-- The parameters that have values, in order. -/
def placeholders : Bindings → List Placeholder
  | positional values => (List.range values.length).map fun i => .positional (i + 1)
  | named values => values.keys.map .named

/-- The number of values. -/
def size : Bindings → Nat
  | positional values => values.length
  | named values => values.size

/-- Puts the values into a predicate. -/
def bind (b : Bindings) (p : Predicate) : Except BindingFault Predicate :=
  let used := p.placeholders
  if used.any Placeholder.isPositional && used.any (fun q => !q.isPositional) then .error .mixed
  else match used.find? fun q => (b.get? q).isNone with
    | some q => .error (.missing q)
    | none => match b.placeholders.find? fun q => q ∉ used with
      | some q => .error (.unused q)
      | none => .ok (p.substitute b.get?)

end Bindings

end ItemStore.Query
