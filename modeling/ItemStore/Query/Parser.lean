import ItemStore.Query.Lexer

/-!
# Tokens to a predicate

AND binds tighter than OR, parentheses group, and a map `{a: 1, b: 2}` is the conjunction of its
equalities. The parser is an automaton: it reads one token at a time and keeps the group it is in,
the groups around that, and what has to come next. So parsing is a fold over the tokens, and the
first token that no query could have there is the error.
-/

namespace ItemStore.Query

/-- A group that is being read: its finished disjuncts, and the conjuncts of the one that is
being read, both in reverse order. -/
structure Group where
  disjuncts : List Predicate := []
  conjuncts : List Predicate := []

namespace Group

/-- Puts one more conjunct at the end. -/
def push (g : Group) (p : Predicate) : Group := { g with conjuncts := p :: g.conjuncts }

/-- Ends a disjunct. -/
def endDisjunct (g : Group) : Group := ⟨Predicate.conjoin g.conjuncts.reverse :: g.disjuncts, []⟩

/-- The predicate of a whole group. -/
def close (g : Group) : Predicate := Predicate.disjoin g.endDisjunct.disjuncts.reverse

end Group

/-- What has to come next. -/
inductive Pending where
  /-- A comparison, a map or a group. -/
  | condition
  | operator (field : String)
  | operand (field : String) (op : CompareOp)
  /-- The name of an entry, after the entries of a map in reverse order. -/
  | entryName (entries : List Predicate)
  | entryColon (entries : List Predicate) (field : String)
  | entryOperand (entries : List Predicate) (field : String)
  /-- A comma or the end of a map. -/
  | entryEnd (entries : List Predicate)
  /-- AND, OR, or the end of the group. -/
  | connective

/-- What the parser keeps of the tokens that it took. -/
structure ParserState where
  pending : Pending := .condition
  group : Group := {}
  /-- The groups around, from the innermost. -/
  enclosing : List Group := []

namespace ParserState

/-- A condition that is complete. -/
def complete (s : ParserState) (p : Predicate) : ParserState :=
  { s with pending := .connective, group := s.group.push p }

/-- Reads one token. -/
def step (s : ParserState) (t : Token) : Except SyntaxFault ParserState :=
  match s.pending with
  | .condition =>
    match t with
    | .openGroup => .ok ⟨.condition, {}, s.group :: s.enclosing⟩
    | .openMap => .ok { s with pending := .entryName [] }
    | .name field => .ok { s with pending := .operator field }
    | t => .error (.expected .fieldName t)
  | .operator field =>
    match t with
    | .op op => .ok { s with pending := .operand field op }
    | t => .error (.expected .operator t)
  | .operand field op =>
    match t.operand? with
    | some operand => .ok (s.complete (.compare ⟨field, op, operand⟩))
    | none => .error (.expected .operand t)
  | .entryName entries =>
    match t with
    | .name field | .text field => .ok { s with pending := .entryColon entries field }
    | .closeMap => .error (if entries.isEmpty then .emptyMap else .expected .fieldName t)
    | t => .error (.expected .fieldName t)
  | .entryColon entries field =>
    match t with
    | .colon => .ok { s with pending := .entryOperand entries field }
    | t => .error (.expected .colon t)
  | .entryOperand entries field =>
    match t.operand? with
    | some operand =>
      .ok { s with pending := .entryEnd (.compare ⟨field, .eq, operand⟩ :: entries) }
    | none => .error (.expected .operand t)
  | .entryEnd entries =>
    match t with
    | .comma => .ok { s with pending := .entryName entries }
    | .closeMap => .ok (s.complete (Predicate.conjoin entries.reverse))
    | t => .error (.expected .mapEnd t)
  | .connective =>
    match t, s.enclosing with
    | .and, _ => .ok { s with pending := .condition }
    | .or, _ => .ok { s with pending := .condition, group := s.group.endDisjunct }
    | .closeGroup, outer :: enclosing =>
      .ok ⟨.connective, outer.push s.group.close, enclosing⟩
    | t, [] => .error (.trailing t)
    | t, _ :: _ => .error (.expected .closeGroup t)

/-- The predicate at the end of the text. -/
def finish (s : ParserState) : Except SyntaxFault Predicate :=
  match s.pending with
  | .condition => .error (.expected .condition none)
  | .operator _ => .error (.expected .operator none)
  | .operand _ _ | .entryOperand _ _ => .error (.expected .operand none)
  | .entryName _ => .error .unterminatedMap
  | .entryColon _ _ => .error (.expected .colon none)
  | .entryEnd _ => .error (.expected .mapEnd none)
  | .connective =>
    match s.enclosing with
    | [] => .ok s.group.close
    | _ :: _ => .error (.expected .closeGroup none)

end ParserState

/-- Puts a fault at a position. -/
def faultAt {α : Type} (position : Nat) : Except SyntaxFault α → Except SyntaxError α
  | .ok a => .ok a
  | .error fault => .error ⟨position, fault⟩

/-- Reads the tokens of a text that ends at a byte. -/
def parseTokens (textEnd : Nat) : ParserState → List Lexeme → Except SyntaxError Predicate
  | s, [] => faultAt textEnd s.finish
  | s, l :: rest => do parseTokens textEnd (← faultAt l.position (s.step l.token)) rest

/-- The predicate of a query text. -/
def parse (text : String) : Except SyntaxError Predicate := do
  match ← lex text with
  | [] => throw ⟨0, .emptyQuery⟩
  | lexemes => parseTokens text.utf8ByteSize {} lexemes

end ItemStore.Query
