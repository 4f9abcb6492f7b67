import ItemStore.Command.Literal

/-!
# Tables from flags

A table as the flags of a command line describe it. Each key is declared by its own flag, unless a
field flag declares it.
-/

namespace ItemStore.Command

/-- How the options of a command line describe its table. Keys and fields may name their types. -/
structure TableFlags where
  table : String
  partitionKey : String := "id"
  sortKey : Option String := none
  fields : List String := []

/-- A key field, unless it is declared among the fields. -/
def undeclared (fields : List Field) (key : Field) : List Field :=
  if fields.any fun f => f.name == key.name then [] else [key]

/-- The layout that parsed flags describe: the keys first, then the fields. -/
def layoutOf (table : String) (partition : Field) (sort : Option Field) (fields : List Field) :
    Layout where
  entity := table
  table := some table
  fields := undeclared fields partition ++ sort.toList.flatMap (undeclared fields) ++ fields
  partitionKey := some partition.name
  sortKey := sort.map Field.name

/-- The schema of the table. -/
def TableFlags.schema (flags : TableFlags) : Except CommandError Schema := do
  if flags.table = "" then throw .missingTable
  let partition ← parseField flags.partitionKey
  let sort ← flags.sortKey.mapM parseField
  let fields ← flags.fields.mapM parseField
  (Schema.build (layoutOf flags.table partition sort fields)).mapError fun fault =>
    .failure (.schema fault)

end ItemStore.Command
