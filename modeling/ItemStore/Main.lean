import ItemStore.Command.Run

/-!
# The program

The command line on the arguments and the environment of the process. No network is reached from
here: a command that needs its store fails as one whose requests get no answer.
-/

namespace ItemStore

open Command

/-- The environment variables that the program reads. -/
def environmentNames : List String :=
  ["AWS_ENDPOINT_URL", "AWS_REGION", "PANACHE_TABLE_PREFIX", "PANACHE_TABLE"]

/-- A store that answers one request, and that one with a fault without a name. -/
def unreachable : Remote.Transport := { responses := [.fault ""] }

end ItemStore

/-- Answers one command line, with the variables of the environment that it may read. -/
def main (words : List String) : IO UInt32 := do
  let settings ← ItemStore.environmentNames.mapM fun name => do return (name, ← IO.getEnv name)
  let environment name := (settings.lookup name).join
  let backend (c : ItemStore.Remote.Connection) := ItemStore.Remote.backend (c.tablePrefix.getD "")
  let result := ItemStore.Command.program backend ItemStore.unreachable environment words
  IO.print result.output
  IO.eprint result.errors
  return result.exitCode
