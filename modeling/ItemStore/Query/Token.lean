import ItemStore.Query.Predicate

/-!
# Tokens

The words of the query language. Numbers keep their text, and a text is what its quotes hold.
-/

namespace ItemStore.Query

/-- The tokens of a query text. -/
inductive Token where
  | name (s : String)
  | text (s : String)
  | number (digits : String)
  | positional (index : Nat)
  | named (s : String)
  | op (o : CompareOp)
  | and
  | or
  | null
  | bool (b : Bool)
  | openGroup
  | closeGroup
  | openMap
  | closeMap
  | colon
  | comma
  deriving DecidableEq, Repr, Inhabited

namespace Token

/-- A token as messages speak of it. -/
def describe : Token → String
  | name s => "identifier '" ++ s ++ "'"
  | text _ => "string literal"
  | number digits => "number " ++ digits
  | positional index => "parameter ?" ++ toString index
  | named s => "parameter :" ++ s
  | op o => "operator '" ++ o.symbol ++ "'"
  | and => "AND"
  | or => "OR"
  | null => "null"
  | bool b => if b then "true" else "false"
  | openGroup => "'('"
  | closeGroup => "')'"
  | openMap => "'\x7b'"
  | closeMap => "'\x7d'"
  | colon => "':'"
  | comma => "','"

/-- Whether a colon after the token ends the name of a map entry. -/
def isMapName : Token → Bool
  | name _ | text _ => true
  | _ => false

/-- What a token is as the right side of a comparison. -/
def operand? : Token → Option Operand
  | positional index => some (.placeholder (.positional index))
  | named s => some (.placeholder (.named s))
  | text s => some (.literal (.text s))
  | number digits => some (.literal (.number digits))
  | null => some (.literal .null)
  | bool b => some (.literal (.bool b))
  | _ => none

end Token

/-- A token at the byte where it starts. -/
structure Lexeme where
  token : Token
  position : Nat
  deriving DecidableEq, Repr

end ItemStore.Query
