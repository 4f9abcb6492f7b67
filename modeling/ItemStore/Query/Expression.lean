import ItemStore.Query.Condition

/-!
# Expressions

A condition or an update as a remote store takes it: expression texts in which every field stands
under an alias `#f0`, `#f1`, … and every value under a placeholder `:v0`, `:v1`, …, with a table of
what these stand for. Names of fields and values are no part of an expression text. A parameter that
was never bound is: it stands in the text as it stood in the query, in no table, and a named one may
look like a placeholder that is in the table.

Rendering goes in two steps. The first replaces fields and values by their numbers and makes a
`Clause` out of each predicate; the second writes clauses as text.
-/

namespace ItemStore.Query

/-! ## Numbering fields and values -/

/-- The fields and values used so far, each at its number. -/
structure Aliases where
  fields : List String := []
  values : List Value := []

namespace Aliases

/-- The number of a field, a new one if it has none yet. -/
def field (a : Aliases) (name : String) : Nat × Aliases :=
  match a.fields.idxOf? name with
  | some i => (i, a)
  | none => (a.fields.length, { a with fields := a.fields ++ [name] })

/-- A new number for a value. -/
def value (a : Aliases) (v : Value) : Nat × Aliases :=
  (a.values.length, { a with values := a.values ++ [v] })

/-- The alias of the field with a number. -/
def fieldAlias (i : Nat) : String := "#f" ++ toString i

/-- The placeholder of the value with a number. -/
def valueAlias (i : Nat) : String := ":v" ++ toString i

/-- What the aliases of fields stand for. -/
def names (a : Aliases) : Dict String :=
  Dict.ofList (a.fields.mapIdx fun i name => (fieldAlias i, name))

/-- What the placeholders of values stand for. -/
def valueTable (a : Aliases) : Dict Value :=
  Dict.ofList (a.values.mapIdx fun i v => (valueAlias i, v))

end Aliases

/-! ## Clauses -/

/-- The right side of a comparison: a value by its number, or a parameter that has none. -/
inductive ClauseOperand where
  | value (i : Nat)
  | placeholder (p : Placeholder)

/-- A predicate over numbered fields and values. -/
inductive Clause where
  | compare (field : Nat) (op : CompareOp) (operand : ClauseOperand)
  | and (children : List Clause)
  | or (children : List Clause)

namespace Clause

/-- A comparison of a field with a value. -/
def ofComparison (field : String) (op : CompareOp) (v : Value) (a : Aliases) : Clause × Aliases :=
  let (f, a) := a.field field
  let (i, a) := a.value v
  (compare f op (.value i), a)

mutual

/-- Numbers the fields and values of a predicate, from left to right. -/
def ofPredicate (a : Aliases) : Predicate → Clause × Aliases
  | .compare ⟨field, op, .literal v⟩ => ofComparison field op v a
  | .compare ⟨field, op, .placeholder p⟩ =>
    let (f, a) := a.field field
    (compare f op (.placeholder p), a)
  | .and children =>
    let (cs, a) := ofPredicates a children
    (and cs, a)
  | .or children =>
    let (cs, a) := ofPredicates a children
    (or cs, a)

/-- The clauses of a group, which are numbered from the first on. -/
def ofPredicates (a : Aliases) : List Predicate → List Clause × Aliases
  | [] => ([], a)
  | p :: rest =>
    let (c, a) := ofPredicate a p
    let (cs, a) := ofPredicates a rest
    (c :: cs, a)

end

/-- The clause of a key condition. -/
def ofKey (s : Schema) (key : KeyCondition) (a : Aliases) : Clause × Aliases :=
  let (partition, a) := ofComparison s.partitionKey.name .eq key.partition a
  match key.sort, s.sortKey with
  | some c, some f =>
    let (sort, a) := ofComparison f.name c.op c.value a
    (and [partition, sort], a)
  | _, _ => (partition, a)

/-! ## Text -/

/-- A comparison as it is written. -/
def compareText (field : Nat) (op : CompareOp) (operand : ClauseOperand) : String :=
  let right := match operand with
    | .value i => Aliases.valueAlias i
    | .placeholder p => p.display
  Aliases.fieldAlias field ++ " " ++ op.symbol ++ " " ++ right

mutual

/-- A clause as it is written. A group inside a group stands in parentheses. -/
def text : Clause → String
  | compare field op operand => compareText field op operand
  | and children => " AND ".intercalate (parts children)
  | or children => " OR ".intercalate (parts children)

/-- The parts of a group, in parentheses where a part is a group itself. -/
def parts : List Clause → List String
  | [] => []
  | compare field op operand :: rest => compareText field op operand :: parts rest
  | and children :: rest => ("(" ++ " AND ".intercalate (parts children) ++ ")") :: parts rest
  | or children :: rest => ("(" ++ " OR ".intercalate (parts children) ++ ")") :: parts rest

end

end Clause

/-! ## Conditions -/

/-- A rendered condition: its texts, with the tables of the aliases that stand in them. -/
structure Expression where
  operation : Operation
  keyCondition : Option String := none
  filter : Option String := none
  names : Dict String
  values : Dict Value

/-- The expression of numbered clauses. -/
def Expression.ofClauses (operation : Operation) (key filter : Option Clause) (a : Aliases) :
    Expression :=
  { operation
    keyCondition := key.map Clause.text
    filter := filter.map Clause.text
    names := a.names
    values := a.valueTable }

/-- Numbers what is optional. -/
def numberOption {α : Type} (f : α → Aliases → Clause × Aliases) (a : Aliases) :
    Option α → Option Clause × Aliases
  | some x => let (c, a) := f x a; (some c, a)
  | none => (none, a)

/-- The key clause and the filter clause of a condition. -/
def Condition.clauses (s : Schema) : Condition → Option Clause × Option Clause × Aliases
  | .everything => (none, none, {})
  | .keyEquals v =>
    let (key, a) := Clause.ofComparison s.partitionKey.name .eq v {}
    (some key, none, a)
  | .filter key predicate =>
    let (key, a) := numberOption (Clause.ofKey s) {} key
    let (rest, a) := numberOption (fun p a => Clause.ofPredicate a p) a predicate
    (key, rest, a)

/-- The expression of a condition. -/
def Condition.render (s : Schema) (c : Condition) : Expression :=
  let (key, rest, a) := c.clauses s
  .ofClauses c.operation key rest a

/-! ## Updates -/

/-- How a stored row changes: the fields that get a value, and those that lose theirs. -/
structure UpdateExpression where
  /-- `SET …` and `REMOVE …`, or nothing if the row stays as it is. -/
  text : Option String
  names : Dict String
  values : Dict Value

/-- Numbers assignments of values to fields. -/
def numberAssignments (a : Aliases) : List (String × Value) → List (Nat × Nat) × Aliases
  | [] => ([], a)
  | (name, v) :: rest =>
    let (f, a) := a.field name
    let (i, a) := a.value v
    let (more, a) := numberAssignments a rest
    ((f, i) :: more, a)

/-- Numbers fields. -/
def numberFields (a : Aliases) : List String → List Nat × Aliases
  | [] => ([], a)
  | name :: rest =>
    let (f, a) := a.field name
    let (more, a) := numberFields a rest
    (f :: more, a)

/-- A list of things to do after a keyword, if there are any. -/
def updateClause (keyword : String) (parts : List String) : List String :=
  if parts.isEmpty then [] else [keyword ++ " " ++ ", ".intercalate parts]

/-- The update that makes a stored row say what an item says: every attribute outside the key is
set, and declared fields that the item lacks are removed. -/
def renderUpdate (s : Schema) (item : Item) : UpdateExpression :=
  let assigned := item.entries.filter fun e => !s.isKeyField e.1
  let removed := (s.fields.map Field.name).filter fun name =>
    !s.isKeyField name && !item.contains name
  let (sets, a) := numberAssignments {} assigned
  let (removes, a) := numberFields a removed
  let clauses :=
    updateClause "SET" (sets.map fun p => Aliases.fieldAlias p.1 ++ " = " ++ Aliases.valueAlias p.2)
      ++ updateClause "REMOVE" (removes.map Aliases.fieldAlias)
  { text := if clauses.isEmpty then none else some (" ".intercalate clauses)
    names := a.names
    values := a.valueTable }

end ItemStore.Query
