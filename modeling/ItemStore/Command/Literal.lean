import ItemStore.Error
import ItemStore.Text.Base64
import ItemStore.Text.Bytes
import ItemStore.Value.Order

/-!
# Literals

How values and fields are written on a command line. A literal says its kind before a colon,
`s:text`, `n:42`, `b:` and base64, `bool:true`, and `null` stands for itself. Anything else is a
text as it stands.
-/

namespace ItemStore.Command

/-- Why the content of a literal does not fit its kind. -/
inductive LiteralFault where
  | notNumber
  | notBool
  | notBase64 (e : Text.Base64.Error)
  deriving DecidableEq, Repr

/-- What a user reads of a fault in a literal. -/
def LiteralFault.message : LiteralFault → String
  | notNumber => "not a number"
  | notBool => "expected true or false"
  | notBase64 e => e.message

/-- What can be wrong with a command line that reads well. -/
inductive CommandError where
  | invalidParameter (literal : String) (fault : LiteralFault)
  | invalidField (text : String)
  | invalidNamed (text : String)
  | missingTable
  | mixedParameters
  | failure (e : Error)
  deriving DecidableEq

/-- What a user reads of an error of the command line, or of the call that failed. -/
def CommandError.message : CommandError → String
  | invalidParameter literal fault =>
    "Invalid parameter '" ++ literal ++ "': " ++ fault.message
  | invalidField text =>
    "Invalid field '" ++ text ++ "', expected name:type with type one of s, n, b, bool, l, m"
  | invalidNamed text => "Invalid named parameter '" ++ text ++ "', expected name=value"
  | missingTable => "No table given, pass --table or set PANACHE_TABLE"
  | mixedParameters => "Positional and named parameters cannot be mixed"
  | failure e => e.message

/-- The text before and after the first `separator`, if there is one. -/
def splitAtFirst? (separator : Char) (text : String) : Option (String × String) :=
  let before := text.toList.takeWhile (· != separator)
  match text.toList.drop before.length with
  | _ :: after => some (String.ofList before, String.ofList after)
  | [] => none

/-- The number that a text says, without the blanks around it. -/
def numberLiteral (content : String) : Except LiteralFault Value :=
  let digits := Text.trim content.toList
  match Numeral.Literal.read? digits with
  | some _ => .ok (.number (String.ofList digits))
  | none => .error .notNumber

/-- The content of a literal of a kind. A text of no such kind has no content. -/
def contentOf? (kind content : String) : Option (Except LiteralFault Value) :=
  match kind with
  | "s" => some (.ok (.text content))
  | "n" => some (numberLiteral content)
  | "b" =>
    some (((Text.Base64.decode (Text.bytes content.toList)).map .binary).mapError .notBase64)
  | "bool" => match content with
    | "true" => some (.ok (.bool true))
    | "false" => some (.ok (.bool false))
    | _ => some (.error .notBool)
  | _ => none

/-- The value of a literal. -/
def parseValue (literal : String) : Except CommandError Value :=
  if literal = "null" then .ok .null
  else match (splitAtFirst? ':' literal).bind fun p => contentOf? p.1 p.2 with
    | some result => result.mapError (.invalidParameter literal)
    | none => .ok (.text literal)

/-- The values of literals, in their order. -/
def parseValues (literals : List String) : Except CommandError (List Value) :=
  literals.mapM parseValue

/-- A name and a value, written `name=literal`. -/
def parsePair (text : String) : Except CommandError (String × Value) :=
  match splitAtFirst? '=' text with
  | some (name, literal) =>
    if name = "" then .error (.invalidNamed text)
    else (parseValue literal).map fun v => (name, v)
  | none => .error (.invalidNamed text)

/-- Values by name; of two for one name the later counts. -/
def parseNamed (texts : List String) : Except CommandError (Dict Value) :=
  (texts.mapM parsePair).map Dict.ofList

/-- A field, written `name:type`. A name alone is a string field. -/
def parseField (text : String) : Except CommandError Field :=
  let field := match splitAtFirst? ':' text with
    | some (name, kind) => (FieldType.ofName? kind).map fun t => Field.mk name t
    | none => some ⟨text, .string⟩
  match field with
  | some f => if f.name = "" then .error (.invalidField text) else .ok f
  | none => .error (.invalidField text)

end ItemStore.Command
