import ItemStore.Dict

/-!
# Values, items and keys

A value is one of seven kinds: five scalars, and lists and maps of values. Numbers keep the text
they were written with, so no digit is lost on the way to a store and back. An item is a row of a
table, values under attribute names. A key says which row: a partition value, and a sort value
where the table has a sort key.

The entries of a map are in increasing order of name, one a name; `Value.Ordered` says so, and
`Value.ofDict` builds such maps.
-/

namespace ItemStore

/-- An attribute value. -/
inductive Value where
  | null
  | bool (b : Bool)
  | text (s : String)
  /-- A number by its text, which is kept as it is. -/
  | number (digits : String)
  | binary (bytes : List UInt8)
  | list (values : List Value)
  | map (entries : List (String × Value))
  deriving Inhabited

/-- A row: values by attribute name. -/
abbrev Item := Dict Value

namespace Value

/-! ## Equality -/

mutual

/-- Whether two values are the same, numbers by their text. -/
def beq : Value → Value → Bool
  | null, null => true
  | bool a, bool b => a == b
  | text a, text b => a == b
  | number a, number b => a == b
  | binary a, binary b => a == b
  | list a, list b => beqValues a b
  | map a, map b => beqEntries a b
  | _, _ => false

/-- Equality of the elements of two lists. -/
def beqValues : List Value → List Value → Bool
  | [], [] => true
  | a :: as, b :: bs => beq a b && beqValues as bs
  | _, _ => false

/-- Equality of the entries of two maps. -/
def beqEntries : List (String × Value) → List (String × Value) → Bool
  | [], [] => true
  | (m, a) :: as, (n, b) :: bs => m == n && beq a b && beqEntries as bs
  | _, _ => false

end

mutual

/-- The boolean equality of values is equality. -/
theorem beq_iff : ∀ {a b : Value}, beq a b = true ↔ a = b
  | a, b => by
    cases a <;> cases b <;> simp [beq, beqValues_iff, beqEntries_iff]

theorem beqValues_iff : ∀ {a b : List Value}, beqValues a b = true ↔ a = b
  | [], [] => by simp [beqValues]
  | [], _ :: _ => by simp [beqValues]
  | _ :: _, [] => by simp [beqValues]
  | a :: as, b :: bs => by simp [beqValues, beq_iff (a := a), beqValues_iff (a := as)]

theorem beqEntries_iff : ∀ {a b : List (String × Value)}, beqEntries a b = true ↔ a = b
  | [], [] => by simp [beqEntries]
  | [], _ :: _ => by simp [beqEntries]
  | _ :: _, [] => by simp [beqEntries]
  | (m, a) :: as, (n, b) :: bs => by
    simp [beqEntries, beq_iff (a := a), beqEntries_iff (a := as), and_assoc]

end

instance : DecidableEq Value := fun _ _ => decidable_of_iff _ beq_iff

/-! ## Kinds -/

/-- The short name of a value's kind. -/
def typeName : Value → String
  | null => "NULL"
  | bool _ => "BOOL"
  | text _ => "S"
  | number _ => "N"
  | binary _ => "B"
  | list _ => "L"
  | map _ => "M"

/-- Keys are made of texts, numbers and binary values. -/
def isKeyType : Value → Bool
  | text _ | number _ | binary _ => true
  | _ => false

/-- Whether a value is the null. -/
def isNull : Value → Bool
  | null => true
  | _ => false

/-- The text of a text value. -/
def text? : Value → Option String
  | text s => some s
  | _ => none

/-- The text of a number. -/
def number? : Value → Option String
  | number s => some s
  | _ => none

/-- The truth value of a boolean. -/
def bool? : Value → Option Bool
  | bool b => some b
  | _ => none

/-- The bytes of a binary value. -/
def binary? : Value → Option (List UInt8)
  | binary b => some b
  | _ => none

/-- A value, or null where there is none. -/
def ofOption : Option Value → Value
  | some v => v
  | none => null

/-- The map with the entries of a dictionary. -/
def ofDict (d : Dict Value) : Value := map d.entries

mutual

/-- Every map in the value, at any depth, has its names in increasing order. -/
def Ordered : Value → Prop
  | list values => OrderedValues values
  | map entries => entries.Pairwise (fun a b => a.1 < b.1) ∧ OrderedEntries entries
  | _ => True

/-- All elements of a list are ordered. -/
def OrderedValues : List Value → Prop
  | [] => True
  | v :: rest => Ordered v ∧ OrderedValues rest

/-- The values of all entries of a map are ordered. -/
def OrderedEntries : List (String × Value) → Prop
  | [] => True
  | (_, v) :: rest => Ordered v ∧ OrderedEntries rest

end

end Value

/-- Which row of a table. -/
structure Key where
  partition : Value
  sort : Option Value := none
  deriving DecidableEq, Inhabited

/-- Puts a value into an item where there is one. -/
def Dict.insertOption {α : Type} (d : Dict α) (name : String) : Option α → Dict α
  | some value => d.insert name value
  | none => d

end ItemStore
