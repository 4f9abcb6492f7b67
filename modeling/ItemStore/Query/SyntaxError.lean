import ItemStore.Query.Token

/-!
# Syntax errors

What can be wrong with a query text, and where.
-/

namespace ItemStore.Query

/-- A part of a number that needs digits. -/
inductive NumberPart where
  | whole
  | fraction
  | exponent
  deriving DecidableEq, Repr

/-- What a parser waits for. -/
inductive Expected where
  | condition
  | fieldName
  | operator
  | operand
  | colon
  | closeGroup
  | mapEnd
  deriving DecidableEq, Repr

/-- What was expected, in words. -/
def Expected.message : Expected → String
  | condition => "a condition"
  | fieldName => "a field name"
  | operator => "a comparison operator"
  | operand => "a value or parameter"
  | colon => "':'"
  | closeGroup => "')'"
  | mapEnd => "',' or '\x7d'"

/-- What is wrong with a query text. -/
inductive SyntaxFault where
  | loneExclamation
  | badIndex
  | unterminatedText
  | missingDigits (part : NumberPart)
  | unexpectedCharacter (c : Char)
  | emptyQuery
  | unterminatedMap
  | emptyMap
  /-- Something else was found, or the end of the text. -/
  | expected (what : Expected) (found : Option Token)
  | trailing (found : Token)
  deriving DecidableEq, Repr

/-- What a user reads of a fault, without its position. -/
def SyntaxFault.message : SyntaxFault → String
  | loneExclamation => "expected '=' after '!'"
  | badIndex => "positional parameter needs an index starting at 1"
  | unterminatedText => "unterminated string literal"
  | missingDigits .whole => "expected digits"
  | missingDigits .fraction => "expected digits after '.'"
  | missingDigits .exponent => "expected exponent digits"
  | unexpectedCharacter c => "unexpected character '" ++ String.singleton c ++ "'"
  | emptyQuery => "empty query"
  | unterminatedMap => "unterminated '\x7b'"
  | emptyMap => "empty condition map"
  | expected what (some t) => "expected " ++ what.message ++ ", found " ++ t.describe
  | expected what none => "expected " ++ what.message
  | trailing t => "unexpected " ++ t.describe ++ " after end of condition"

/-- A fault at a byte of the text. -/
structure SyntaxError where
  position : Nat
  fault : SyntaxFault
  deriving DecidableEq, Repr

end ItemStore.Query
