import ItemStore.Text.Blank

/-!
# Connections

Where a remote store is, and what its table names start with. The settings come from environment
variables, of which those that hold nothing but blanks do not count.
-/

namespace ItemStore.Remote

/-- How to reach the remote store, and what its tables are called. -/
structure Connection where
  /-- Where a local store listens, if it is one. -/
  endpointUrl : Option String := none
  region : String
  tablePrefix : Option String := none
  deriving DecidableEq, Repr

namespace Connection

/-- The region if none is given. -/
def defaultRegion : String := "us-east-1"

/-- The settings in an environment, given by what it says about a variable. -/
def ofEnvironment (lookup : String → Option String) : Connection :=
  let setting name := (lookup name).filter fun v => !(Text.trim v.toList).isEmpty
  { endpointUrl := setting "AWS_ENDPOINT_URL"
    region := (setting "AWS_REGION").getD defaultRegion
    tablePrefix := setting "PANACHE_TABLE_PREFIX" }

/-- What a connection reaches. -/
def target (c : Connection) : String :=
  match c.endpointUrl with
  | some url => "Local DynamoDB (" ++ url ++ ")"
  | none => "AWS DynamoDB (region: " ++ c.region ++ ")"

end Connection

end ItemStore.Remote
