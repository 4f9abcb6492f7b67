import ItemStore.Value.Display

/-!
# Predicates

What a filter query says: comparisons of a field with a value or a parameter, joined by AND and
OR. A parser joins with `Predicate.conjoin` and `Predicate.disjoin`, which merge groups of the same
kind one into another and leave no group of one.
-/

namespace ItemStore

/-- The six ways to compare. -/
inductive CompareOp where
  | eq
  | ne
  | lt
  | le
  | gt
  | ge
  deriving DecidableEq, Repr, Inhabited

namespace CompareOp

/-- The operator as it is written. -/
def symbol : CompareOp → String
  | eq => "="
  | ne => "<>"
  | lt => "<"
  | le => "<="
  | gt => ">"
  | ge => ">="

/-- Whether a key condition can have the operator on a sort key. -/
def isKeyConditionOp (op : CompareOp) : Bool := op != ne

end CompareOp

/-- A parameter of a query: by its place, counted from one, or by its name. -/
inductive Placeholder where
  | positional (index : Nat)
  | named (name : String)
  deriving DecidableEq, Repr, Inhabited

namespace Placeholder

/-- The parameter as it is written. -/
def display : Placeholder → String
  | positional index => "?" ++ toString index
  | named name => ":" ++ name

/-- Parameters by place come first, in the order of places, then those by name, in order. -/
def precedes : Placeholder → Placeholder → Bool
  | positional i, positional j => i < j
  | positional _, named _ => true
  | named _, positional _ => false
  | named m, named n => m < n

/-- Whether a placeholder is filled by place. -/
def isPositional : Placeholder → Bool
  | positional _ => true
  | named _ => false

/-- Puts a parameter in its place among ordered ones, unless it is there. -/
def insertOrdered (p : Placeholder) : List Placeholder → List Placeholder
  | [] => [p]
  | q :: rest =>
    if p.precedes q then p :: q :: rest
    else if p = q then q :: rest
    else q :: insertOrdered p rest

theorem mem_insertOrdered {p q : Placeholder} {l : List Placeholder} :
    q ∈ insertOrdered p l ↔ q = p ∨ q ∈ l := by
  induction l with
  | nil => simp [insertOrdered]
  | cons r rest ih =>
    unfold insertOrdered
    split
    · simp
    · split
      · rename_i h; subst h; simp
      · simp [ih, or_left_comm]

/-- The parameters of a list in order, each once. -/
def order (l : List Placeholder) : List Placeholder := l.foldr insertOrdered []

/-- Ordering placeholders keeps all of them. -/
theorem mem_order {p : Placeholder} {l : List Placeholder} : p ∈ order l ↔ p ∈ l := by
  induction l with
  | nil => simp [order]
  | cons q rest ih => rw [order, List.foldr_cons, mem_insertOrdered, ← order, ih, List.mem_cons]

end Placeholder

/-- What a field is compared with. -/
inductive Operand where
  | placeholder (p : Placeholder)
  | literal (v : Value)
  deriving DecidableEq, Inhabited

namespace Operand

/-- The placeholder of an operand that is still open. -/
def placeholder? : Operand → Option Placeholder
  | placeholder p => some p
  | literal _ => none

/-- The value of an operand that is not a placeholder. -/
def literal? : Operand → Option Value
  | placeholder _ => none
  | literal v => some v

/-- An operand as it stands in a query text. -/
def display : Operand → String
  | placeholder p => p.display
  | literal v => v.display

/-- Puts a value in the place of a parameter that has one. -/
def substitute (values : Placeholder → Option Value) : Operand → Operand
  | placeholder p => match values p with
    | some v => literal v
    | none => placeholder p
  | literal v => literal v

end Operand

/-- A field compared with a value, or with one that is still to come. -/
structure Comparison where
  field : String
  op : CompareOp
  operand : Operand
  deriving DecidableEq, Inhabited

namespace Comparison

/-- A comparison as it stands in a query text. -/
def display (c : Comparison) : String := c.field ++ " " ++ c.op.symbol ++ " " ++ c.operand.display

/-- Fills the placeholder of a comparison. -/
def substitute (values : Placeholder → Option Value) (c : Comparison) : Comparison :=
  { c with operand := c.operand.substitute values }

end Comparison

/-- A comparison, or a group of predicates that have to hold all together or at least one. -/
inductive Predicate where
  | compare (c : Comparison)
  | and (children : List Predicate)
  | or (children : List Predicate)
  deriving Inhabited

namespace Predicate

/-! ## Joining -/

/-- The parts that a predicate brings to a conjunction. -/
def conjuncts : Predicate → List Predicate
  | and children => children
  | p => [p]

/-- The parts that a predicate brings to a disjunction. -/
def disjuncts : Predicate → List Predicate
  | or children => children
  | p => [p]

/-- The conjunction of some predicates. -/
def conjoin (parts : List Predicate) : Predicate :=
  match parts.flatMap conjuncts with
  | [p] => p
  | ps => and ps

/-- The disjunction of some predicates. -/
def disjoin (parts : List Predicate) : Predicate :=
  match parts.flatMap disjuncts with
  | [p] => p
  | ps => or ps

/-! ## Comparisons and parameters -/

mutual

/-- The comparisons from left to right. -/
def comparisons : Predicate → List Comparison
  | compare c => [c]
  | and children => comparisonsOf children
  | or children => comparisonsOf children

/-- The comparisons of the parts of a group, in order. -/
def comparisonsOf : List Predicate → List Comparison
  | [] => []
  | p :: rest => comparisons p ++ comparisonsOf rest

end

/-- The parameters in order, each once. -/
def placeholders (p : Predicate) : List Placeholder :=
  Placeholder.order (p.comparisons.filterMap fun c => c.operand.placeholder?)

mutual

/-- Puts values in the place of parameters, everywhere. -/
def substitute (values : Placeholder → Option Value) : Predicate → Predicate
  | compare c => compare (c.substitute values)
  | and children => and (substituteAll values children)
  | or children => or (substituteAll values children)

/-- Fills the placeholders in the parts of a group. -/
def substituteAll (values : Placeholder → Option Value) : List Predicate → List Predicate
  | [] => []
  | p :: rest => substitute values p :: substituteAll values rest

end

/-! ## Text -/

mutual

/-- A predicate as a query writes it. A group inside a group stands in parentheses. -/
def display : Predicate → String
  | compare c => c.display
  | and children => " AND ".intercalate (displayParts children)
  | or children => " OR ".intercalate (displayParts children)

/-- The parts of a group, in parentheses where a part is a group itself. -/
def displayParts : List Predicate → List String
  | [] => []
  | compare c :: rest => c.display :: displayParts rest
  | and children :: rest =>
    ("(" ++ " AND ".intercalate (displayParts children) ++ ")") :: displayParts rest
  | or children :: rest =>
    ("(" ++ " OR ".intercalate (displayParts children) ++ ")") :: displayParts rest

end

end Predicate

end ItemStore
