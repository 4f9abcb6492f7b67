import ItemStore.Numeral.Lossless
import ItemStore.Remote.Attribute

/-!
# Shapes

What a part of a response may be. An object has members that are known or not. A known member may be
absent or null, and else has to be of its shape all through; what is unknown does not matter. Inside
lists and maps there is no null.
-/

namespace ItemStore.Remote

/-- What an answer may have in a place. -/
inductive Shape where
  | text
  | bool
  | whole (range : Numeral.WholeRange)
  /-- A number, or the text of one that is not finite. -/
  | float
  /-- A number of seconds. -/
  | time
  | attributeValue
  | list (element : Shape)
  /-- An object with any names. -/
  | map (element : Shape)
  /-- An object of which these members are known. -/
  | record (known : List (String × Shape))

namespace Shape

/-- Whether a text reads as a double that is not finite: the name of one, or digits past the
range. A finite number is never written as a text. -/
def saysNotFinite (s : String) : Bool :=
  (Numeral.Datum.read? .double s.toList).any fun d => !d.isFinite .double

mutual

/-- Whether a tree is of a shape. -/
def admits : Shape → Json → Bool
  | attributeValue, j => (Attribute.ofJson? j).isSome
  | text, .string _ => true
  | bool, .bool _ => true
  | whole range, .number digits => range.holdsText digits.toList
  | float, .number _ => true
  | float, .string s => saysNotFinite s
  | time, .number _ => true
  | list element, .array elements => admitsAll element elements
  | map element, .object members => admitsValues element members
  | record known, .object members => admitsMembers known members
  | _, _ => false

/-- Whether all elements of an array are of a shape. -/
def admitsAll (element : Shape) : List Json → Bool
  | [] => true
  | j :: rest => admits element j && admitsAll element rest

/-- Whether all members of a map are of a shape. -/
def admitsValues (element : Shape) : List (String × Json) → Bool
  | [] => true
  | (_, j) :: rest => admits element j && admitsValues element rest

/-- Whether the known members of a record are of their shapes. A null counts as absent. -/
def admitsMembers (known : List (String × Shape)) : List (String × Json) → Bool
  | [] => true
  | (name, j) :: rest =>
    (match j, known.lookup name with
      | .null, _ | _, none => true
      | j, some s => admits s j) && admitsMembers known rest

end

end Shape

end ItemStore.Remote
