import ItemStore.Store.Rows
import ItemStore.Store.Selection
import ItemStore.Store.Table

/-!
# A store in memory

Tables are lists of rows under their names. Keys have to be of their declared types. A page ends
after so many selected rows, before they are filtered, and the next one starts after the last key
that was looked at, whether its row is still there or not.
-/

namespace ItemStore.Store

open Query

/-- The tables, and how many batches were written to any of them. -/
structure Memory where
  tables : Dict (List Item) := {}
  batchWrites : Nat := 0

/-- How a store in memory behaves. -/
structure MemoryOptions where
  /-- How many selected rows make a page. -/
  pageSize : Nat := 100
  /-- How many items of a batch are taken. -/
  batchCapacity : Nat := batchLimit
  /-- Whether a table comes to be when it is first used. -/
  autoCreate : Bool := true
  /-- The tables that can be bound, if not all. -/
  bindings : Option (List String) := none
  pageSize_pos : 0 < pageSize := by decide

/-- Sets the page size, one row at least. -/
def MemoryOptions.withPageSize (o : MemoryOptions) (n : Nat) : MemoryOptions :=
  { o with
    pageSize := max 1 n
    pageSize_pos := Nat.lt_of_lt_of_le Nat.one_pos (Nat.le_max_left 1 n) }

namespace Memory

/-- The rows of a table. -/
def rows (o : MemoryOptions) (access : Access) (table : String) : Step Memory (List Item) := do
  let m ← get
  match m.tables.get? table with
  | some rows => return rows
  | none =>
    if o.autoCreate then
      set { m with tables := m.tables.insert table [] }
      return []
    else throw (.store access (.tableNotFound table))

/-- Replaces the rows of a table. -/
def setRows (table : String) (rows : List Item) : Step Memory Unit :=
  modify fun m => { m with tables := m.tables.insert table rows }

/-- Refuses a key of another shape, or with values of other types, than a schema's keys. -/
def checkKey (s : Schema) (key : Key) : Except StoreFault Unit :=
  if s.partitionKey.type.acceptsKey key.partition then
    match s.sortKey, key.sort with
    | none, none => .ok ()
    | some f, some v => if f.type.acceptsKey v then .ok () else .error (.sortType f.type v)
    | some _, none => .error .noSortValue
    | none, some _ => .error .extraSortValue
  else .error (.partitionType s.partitionKey.name s.partitionKey.type key.partition)

/-- The key of an item that is to be written. -/
def itemKey (s : Schema) (item : Item) : Except StoreFault Key := do
  let key ← (s.keyOf item).mapError .missingKey
  checkKey s key
  return key

/-- The step that fails with a fault. -/
def checked {α : Type} (access : Access) (r : Except StoreFault α) : Step Memory α :=
  .ofExcept (r.mapError (.store access))

/-! ## Single rows -/

/-- The row with a key. -/
def getItem (o : MemoryOptions) (s : Schema) (key : Key) : Step Memory (Option Item) := do
  checked .read (checkKey s key)
  return findRow s key (← rows o .read s.table)

/-- Writes a row in place of the one with its key, or after the last one. -/
def putItem (o : MemoryOptions) (s : Schema) (item : Item) : Step Memory Unit := do
  let key ← checked .write (itemKey s item)
  setRows s.table (storeRow s key item (← rows o .write s.table))

/-- Writes what the row with the key of an item becomes. -/
def updateItem (o : MemoryOptions) (s : Schema) (item : Item) : Step Memory Unit := do
  let key ← checked .write (itemKey s item)
  let rows ← rows o .write s.table
  setRows s.table (storeRow s key (updatedRow s key item (findRow s key rows)) rows)

/-- Removes the row with a key, if there is one. -/
def deleteItem (o : MemoryOptions) (s : Schema) (key : Key) : Step Memory Unit := do
  checked .write (checkKey s key)
  setRows s.table (removeRow s key (← rows o .write s.table))

/-! ## Batches -/

/-- Writes items under their keys, one after the other. -/
def storeRows (s : Schema) (entries : List (Key × Item)) (rows : List Item) : List Item :=
  entries.foldl (fun rows e => storeRow s e.1 e.2 rows) rows

/-- Writes a batch as far as the store takes it. -/
def putBatch (o : MemoryOptions) (s : Schema) (items : List Item) : Step Memory Unit := do
  if items.isEmpty then return
  if batchLimit < items.length then
    throw (.store .write (.batchTooLarge items.length batchLimit))
  let keys ← checked .write (items.mapM (itemKey s))
  modify fun m => { m with batchWrites := m.batchWrites + 1 }
  let rows ← rows o .write s.table
  let accepted := min items.length o.batchCapacity
  setRows s.table (storeRows s ((keys.zip items).take accepted) rows)
  if accepted < items.length then throw (.unprocessed (items.length - accepted))

/-! ## Pages -/

/-- The sum of two numbers of places. Places are counted in words of 64 bits, and a sum that does
not fit in one breaks the call off. -/
def addPlaces (a b : Nat) : Except Error Nat :=
  if a + b < 1 <<< 64 then .ok (a + b) else .error .overflow

/-- Where a page that starts at an offset ends. -/
def pageEnd (o : MemoryOptions) (offset count : Nat) : Except Error Nat := do
  return min (← addPlaces offset o.pageSize) count

/-- The rows that a page from an offset up to a stop looks at. -/
def examined (sorted : List Item) (offset stop : Nat) : List Item :=
  (sorted.take stop).drop (min offset stop)

/-- The page of sorted rows from an offset up to a stop. -/
def pageBetween (s : Schema) (c : Condition) (sorted : List Item) (offset stop : Nat) :
    Except Error Page := do
  let examined := examined sorted offset stop
  let resume ← match examined.getLast? with
    | some last =>
      if stop < sorted.length then
        (s.keyOf last).mapError Error.ofMissingKey |>.map fun k => some (s.keyItem k)
      else pure none
    | none => pure none
  return ⟨examined.filter c.passes, resume⟩

/-- The page of sorted rows that starts at an offset. -/
def pageAt (o : MemoryOptions) (s : Schema) (c : Condition) (sorted : List Item) (offset : Nat) :
    Except Error Page := do
  pageBetween s c sorted offset (← pageEnd o offset sorted.length)

/-- The offset of the first row after a key, or of the first row of all. -/
def offsetAfter (s : Schema) (sorted : List Item) : Option Item → Except StoreFault Nat
  | none => .ok 0
  | some start => do
    let key ← (s.keyOf start).mapError .missingKey
    return (sorted.findIdx? (rowFollows s key)).getD sorted.length

/-- Refuses to look for a partition by a value that is no key. -/
def checkPartition (c : Condition) : Except StoreFault Unit :=
  match c.key? with
  | some k => if k.partition.isKeyType then .ok () else .error (.partitionValue k.partition)
  | none => .ok ()

/-- The page after a start, among the rows that a condition selects, in the order of their keys. -/
def fetchPage (o : MemoryOptions) (s : Schema) (c : Condition) (start : Option Item) :
    Step Memory Page := do
  checked .read (checkPartition c)
  let sorted := sortRows s ((← rows o .read s.table).filter (c.selects s))
  let offset ← checked .read (offsetAfter s sorted start)
  .ofExcept (pageAt o s c sorted offset)

/-! ## Tables -/

/-- Adds an empty table, unless there is one with its name. -/
def createTable (s : Schema) : Step Memory Unit := do
  if (← get).tables.contains s.table then throw (.store .write (.tableExists s.table))
  setRows s.table []

/-- The store in memory. -/
def backend (o : MemoryOptions) : Backend Memory where
  table s :=
    if o.bindings.all fun names => names.contains s.table then
      .ok {
        name := s.table
        schema := s
        get := getItem o s
        put := putItem o s
        update := updateItem o s
        delete := deleteItem o s
        putBatch := putBatch o s
        fetch := fetchPage o s
        create := createTable s }
    else .error (.unboundTable s.entity s.table)

end Memory

end ItemStore.Store
