import ItemStore.Command.Explanation

/-!
# Output

What a command prints, as JSON on one line or for a reader at a terminal.
-/

namespace ItemStore.Command

open Query

/-- How results are printed. -/
inductive OutputFormat where
  | json
  | pretty
  deriving DecidableEq, Repr

namespace OutputFormat

/-- The format as it is given on the command line. -/
def name : OutputFormat → String
  | json => "json"
  | pretty => "pretty"

/-- Reads a format by its name. -/
def ofName? : String → Option OutputFormat
  | "json" => some json
  | "pretty" => some pretty
  | _ => none

end OutputFormat

/-- An item, one attribute a line. -/
def prettyItem (item : Item) : String :=
  "\n".intercalate (item.entries.map fun e => "  " ++ e.1 ++ ": " ++ e.2.pretty)

/-- Items under a heading that counts them. -/
def prettyItems (items : List Item) : String :=
  if items.isEmpty then "No items found."
  else
    "ITEMS (" ++ toString items.length ++ ")\n" ++ String.ofList (List.replicate 40 '-')
      ++ String.join (items.map fun item => "\n" ++ prettyItem item ++ "\n")

/-- The name of an operation in an explanation. -/
def operationTitle : Operation → String
  | .query => "Query"
  | .scan => "Scan"

/-- An explanation, one fact a line. -/
def prettyExplanation (e : Explanation) : String :=
  let x := e.expression
  "\n".intercalate
    (["Table: " ++ e.table, "Operation: " ++ operationTitle x.operation]
      ++ x.keyCondition.toList.map (fun t => "Key condition: " ++ t)
      ++ x.filter.toList.map (fun t => "Filter: " ++ t)
      ++ x.names.entries.map (fun n => "  " ++ n.1 ++ " = " ++ n.2)
      ++ x.values.entries.map (fun v => "  " ++ v.1 ++ " = " ++ v.2.pretty))

/-- What is printed of items. -/
def showItems (items : List Item) : OutputFormat → String
  | .json => (Json.array (items.map Item.toJson)).compact
  | .pretty => prettyItems items

/-- What is printed of the item that was looked for. -/
def showItem (item : Option Item) : OutputFormat → String
  | .json => (Json.ofOption Item.toJson item).compact
  | .pretty => (item.map prettyItem).getD "No item found."

/-- What is printed of an explanation. -/
def showExplanation (e : Explanation) : OutputFormat → String
  | .json => e.toJson.compact
  | .pretty => prettyExplanation e

end ItemStore.Command
