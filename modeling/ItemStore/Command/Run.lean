import ItemStore.Command.Arguments
import ItemStore.Remote.Table
import ItemStore.Store.Cursor

/-!
# Running commands

What a command does with a store, and what it prints. The flags of the table are checked before
anything else, and the store is reached only if the command needs it.
-/

namespace ItemStore.Command

open Query Store

/-- A command at work on a store. -/
abbrev CommandStep (σ : Type) := ExceptT CommandError (StateM σ)

/-- A step of the store in a command. -/
def CommandStep.ofStep {σ α : Type} (step : Step σ α) : CommandStep σ α := fun store =>
  let (result, store) := step.run.run store
  (result.mapError .failure, store)

/-- What is settled without the store. -/
def CommandStep.ofExcept {σ α : Type} : Except CommandError α → CommandStep σ α
  | .ok a => pure a
  | .error e => throw e

variable {σ : Type}

/-- How many pages the listing of a command may try to fetch. -/
def pageLimit : Nat := 1000000

/-- Every item that a condition selects, from all pages. -/
def listItems (t : Table σ) (c : Condition) : CommandStep σ (List Item) :=
  .ofStep (Cursor.runNew c (Cursor.drain t pageLimit))

/-- The item under the key that literals say. -/
def getItem (t : Table σ) (id : String) (sort : Option String) :
    CommandStep σ (Option Item) := do
  let partition ← .ofExcept (parseValue id)
  let sort ← .ofExcept (sort.mapM parseValue)
  .ofStep (t.get ⟨partition, sort⟩)

/-- The table that a store binds to a schema. -/
def tableOf (b : Backend σ) (s : Schema) : CommandStep σ (Table σ) :=
  .ofExcept ((b.table s).mapError .failure)

/-- Runs a command on a store and gives what it prints. -/
def run (b : Backend σ) (line : CommandLine) : CommandStep σ String := do
  let s ← .ofExcept line.table.schema
  match line.invocation with
  | .explain query parameters =>
    return showExplanation (← .ofExcept (explain s query parameters)) line.format
  | .createTable =>
    let t ← tableOf b s
    .ofStep t.create
    return "Created table " ++ t.name
  | .list query parameters =>
    let condition ← .ofExcept (resolveCondition s query parameters)
    return showItems (← listItems (← tableOf b s) condition) line.format
  | .get id sort =>
    return showItem (← getItem (← tableOf b s) id sort) line.format

/-! ## The program -/

/-- What a run of the program leaves. -/
structure ProgramResult where
  exitCode : UInt32
  output : String
  errors : String

/-- What is printed for the version. -/
def programVersion : String := "panache 0.0.0\n"

/-- What is printed when nothing or help is asked for. -/
def helpText : String :=
  "Explain and run panache filter queries against DynamoDB\n\n" ++
  "Usage: panache [OPTIONS] <COMMAND>\n\n" ++
  "Commands:\n" ++
  "  explain       Show how a query translates, without touching the table\n" ++
  "  create-table  Create the table with the declared key schema (pay per request)\n" ++
  "  list          Run a query and print the matching items\n" ++
  "  get           Print one item by key\n" ++
  "  help          Print this message\n"

/-- What the program says of a command line that it does not run. -/
def UsageError.result : UsageError → ProgramResult
  | displayHelp => ⟨0, helpText, ""⟩
  | displayVersion => ⟨0, programVersion, ""⟩
  | displayHelpOnMissingArgumentOrSubcommand => ⟨2, "", helpText⟩
  | missingSubcommand => ⟨2, "", "error: a command is required\n"⟩
  | missingRequiredArgument => ⟨2, "", "error: a required argument is missing\n"⟩
  | invalidSubcommand => ⟨2, "", "error: unrecognized command\n"⟩
  | invalidValue => ⟨2, "", "error: invalid value for an option\n"⟩
  | unknownArgument => ⟨2, "", "error: unexpected argument\n"⟩
  | argumentConflict => ⟨2, "", "error: an option is given more than once\n"⟩
  | tooManyValues => ⟨2, "", "error: a flag takes no value\n"⟩

/-- A run of the program on a store, which it reaches by the settings of the command line. -/
def program (b : Remote.Connection → Backend σ) (store : σ) (environment : String → Option String)
    (words : List String) : ProgramResult :=
  match CommandLine.read environment words with
  | .error e => e.result
  | .ok line =>
    match (run (b line.connection) line).run.run store with
    | (.ok text, _) => ⟨0, text ++ "\n", ""⟩
    | (.error e, _) => ⟨1, "", "Error: " ++ e.message ++ "\n"⟩

end ItemStore.Command
