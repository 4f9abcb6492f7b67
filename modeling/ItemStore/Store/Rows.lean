import ItemStore.Schema.Basic
import ItemStore.Value.Order

/-!
# Rows

The rows of one table, in the order in which their keys were first written. A key stands for the
row that `Schema.keyOf` gives it, where number keys are the same if their numbers are. For reading
in pages rows are sorted by key; a row without a key is sorted to the end.
-/

namespace ItemStore.Store

/-- Whether a row has a key. -/
def hasKey (s : Schema) (key : Key) (row : Item) : Bool :=
  match s.keyOf row with
  | .ok k => k.same key
  | .error _ => false

/-- The row with a key. -/
def findRow (s : Schema) (key : Key) (rows : List Item) : Option Item := rows.find? (hasKey s key)

/-- Puts a row in the place of the one with its key, or at the end. -/
def storeRow (s : Schema) (key : Key) (row : Item) : List Item → List Item
  | [] => [row]
  | r :: rest => if hasKey s key r then row :: rest else r :: storeRow s key row rest

/-- The rows without the one that has a key. -/
def removeRow (s : Schema) (key : Key) (rows : List Item) : List Item := rows.eraseP (hasKey s key)

/-- The row that an update leaves: the stored row, or one with the key only, in which declared
fields that the item lacks are gone and its attributes outside the key are set. -/
def updatedRow (s : Schema) (key : Key) (item : Item) (stored : Option Item) : Item :=
  let lost := (s.fields.map Field.name).filter fun name =>
    !s.isKeyField name && !item.contains name
  let set := item.entries.filter fun e => !s.isKeyField e.1
  let base := lost.foldl (fun row name => row.erase name) (stored.getD (s.keyItem key))
  set.foldl (fun row e => row.insert e.1 e.2) base

/-! ## The order of keys -/

/-- Two values that do not compare are taken as equal. -/
def compareValues (a b : Value) : Ordering := (a.compare? b).getD .eq

/-- Partition values come first, then sort values. -/
def compareKeys (a b : Key) : Ordering :=
  (compareValues a.partition b.partition).then <|
    match a.sort, b.sort with
    | some s, some t => compareValues s t
    | _, _ => .eq

/-- Whether a row sorts before another. -/
def rowPrecedes (s : Schema) (a b : Item) : Bool :=
  match s.keyOf a, s.keyOf b with
  | .ok j, .ok k => compareKeys j k == .lt
  | .ok _, .error _ => true
  | _, _ => false

/-- Puts a row among rows in descending order, as far to the front as the order lets it. -/
def insertDescending (s : Schema) (row : Item) : List Item → List Item
  | [] => [row]
  | r :: rest =>
    if rowPrecedes s row r then r :: insertDescending s row rest else row :: r :: rest

/-- The rows by key, those with equal keys in their order. -/
def sortRows (s : Schema) (rows : List Item) : List Item :=
  (rows.foldl (fun sorted row => insertDescending s row sorted) []).reverse

/-- Whether a row's key comes after another key. -/
def rowFollows (s : Schema) (key : Key) (row : Item) : Bool :=
  match s.keyOf row with
  | .ok k => compareKeys k key == .gt
  | .error _ => false

end ItemStore.Store
