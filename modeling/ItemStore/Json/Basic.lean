/-!
# JSON trees

The data that JSON text says. Numbers keep their text, and the members of an object their order,
names written twice included.
-/

namespace ItemStore

/-- A value of JSON. Members stand in the order of the text, and a name may be there twice. -/
inductive Json where
  | null
  | bool (b : Bool)
  /-- A number by its text. -/
  | number (digits : String)
  | string (s : String)
  | array (elements : List Json)
  | object (members : List (String × Json))
  deriving Inhabited

namespace Json

/-- The member of an object with a name, the last if there are several. -/
def member? (name : String) : Json → Option Json
  | object members => (members.reverse.find? fun m => m.1 == name).map Prod.snd
  | _ => none

/-- The text of a string. -/
def string? : Json → Option String
  | string s => some s
  | _ => none

/-- The truth value of `true` and `false`. -/
def bool? : Json → Option Bool
  | bool b => some b
  | _ => none

/-- The elements of an array. -/
def array? : Json → Option (List Json)
  | array elements => some elements
  | _ => none

/-- The members of an object. -/
def object? : Json → Option (List (String × Json))
  | object members => some members
  | _ => none

/-- A natural number in plain digits. -/
def nat? : Json → Option Nat
  | number digits => digits.toNat?
  | _ => none

/-- The number `n`. -/
def ofNat (n : Nat) : Json := number (toString n)

/-- A text, or null where there is none. -/
def ofText? : Option String → Json
  | some s => string s
  | none => null

end Json

end ItemStore
