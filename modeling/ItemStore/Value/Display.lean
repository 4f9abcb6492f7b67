import ItemStore.Text.Quoted
import ItemStore.Value.Basic

/-!
# Values as text

Two texts of a value. The display text goes into messages and query texts and is short: what is
large is counted. The pretty text is for a reader at a terminal and shows everything but binary
values.
-/

namespace ItemStore.Value

/-- A value as a query or a message shows it. -/
def display : Value → String
  | null => "null"
  | bool b => if b then "true" else "false"
  | text s => "'" ++ s ++ "'"
  | number s => s
  | binary bytes => "<" ++ toString bytes.length ++ " bytes>"
  | list values => "[" ++ toString values.length ++ " values]"
  | map entries => "\x7b" ++ toString entries.length ++ " entries\x7d"

mutual

/-- A value as a reader at a terminal sees it. -/
def pretty : Value → String
  | text s => Text.quote s
  | list values => "[" ++ ", ".intercalate (prettyValues values) ++ "]"
  | map entries => "\x7b" ++ ", ".intercalate (prettyEntries entries) ++ "\x7d"
  | null => display null
  | bool b => display (bool b)
  | number s => display (number s)
  | binary bytes => display (binary bytes)

/-- The elements of a list, each on its own. -/
def prettyValues : List Value → List String
  | [] => []
  | v :: rest => pretty v :: prettyValues rest

/-- The entries of a map with their names. -/
def prettyEntries : List (String × Value) → List String
  | [] => []
  | (name, v) :: rest => (name ++ ": " ++ pretty v) :: prettyEntries rest

end

end ItemStore.Value

namespace ItemStore

/-- A key as messages show it, its two values with a slash between them. -/
def Key.display (key : Key) : String :=
  match key.sort with
  | some sort => key.partition.display ++ "/" ++ sort.display
  | none => key.partition.display

end ItemStore
