import ItemStore.Command.Output
import ItemStore.Command.TableFlags
import ItemStore.Remote.Connection

/-!
# Arguments

A command line has options, a command and the command's own arguments. Most options are of the
program and may stand before or after the command; then what stands after it counts. What the
command line leaves open an environment variable may say, and after that a default.

An option that takes the next word as its value is settled only when something else follows. So a
word that is no argument is told first, and a value that the option refuses after that.
-/

namespace ItemStore.Command

/-- Why there is no command to run, among them that help was asked for. -/
inductive UsageError where
  | displayHelp
  | displayVersion
  | displayHelpOnMissingArgumentOrSubcommand
  | missingSubcommand
  | missingRequiredArgument
  | invalidSubcommand
  | invalidValue
  | unknownArgument
  | argumentConflict
  | tooManyValues
  deriving DecidableEq, Repr

/-! ## Options -/

/-- The subcommands. -/
inductive CommandName where
  | explain
  | createTable
  | list
  | get
  deriving DecidableEq, Repr

/-- The subcommand that a word names. -/
def CommandName.ofText? : String → Option CommandName
  | "explain" => some explain
  | "create-table" => some createTable
  | "list" => some list
  | "get" => some get
  | _ => none

/-- What an option or a word of the command line sets. -/
inductive Setting where
  | endpointUrl
  | region
  | tablePrefix
  | format
  | table
  | partitionKey
  | sortKey
  | field
  /-- A value for a parameter by place. -/
  | param
  /-- A value for a parameter by name. -/
  | named
  /-- The sort value of the item to get. -/
  | sort
  deriving DecidableEq, Repr

namespace Setting

/-- The name of an option after two dashes. -/
def longName : Setting → String
  | endpointUrl => "endpoint-url"
  | region => "region"
  | tablePrefix => "table-prefix"
  | format => "format"
  | table => "table"
  | partitionKey => "partition-key"
  | sortKey => "sort-key"
  | field => "field"
  | param => "param"
  | named => "named"
  | sort => "sort"

/-- The letter of an option after one dash, if it has one. -/
def shortName? : Setting → Option Char
  | field => some 'f'
  | param => some 'p'
  | named => some 'n'
  | _ => none

/-- The settings of the program, which every command has too. -/
def shared : List Setting :=
  [endpointUrl, region, tablePrefix, format, table, partitionKey, sortKey, field]

/-- The settings of a command, or those before it. -/
def available : Option CommandName → List Setting
  | some .explain | some .list => shared ++ [param, named]
  | some .get => shared ++ [sort]
  | some .createTable | none => shared

/-- Whether a setting can be given more than once. -/
def repeats : Setting → Bool
  | field | param | named => true
  | _ => false

/-- Whether a setting takes a value. -/
def accepts : Setting → String → Bool
  | format, v => (OutputFormat.ofName? v).isSome
  | _, _ => true

/-- The environment variable that a setting may come from. -/
def environmentName? : Setting → Option String
  | endpointUrl => some "AWS_ENDPOINT_URL"
  | region => some "AWS_REGION"
  | tablePrefix => some "PANACHE_TABLE_PREFIX"
  | table => some "PANACHE_TABLE"
  | _ => none

end Setting

/-! ## One level of a command line -/

/-- What was read before the command, or after it. -/
structure Level where
  /-- The command, after it. -/
  command : Option CommandName := none
  /-- Settings with their values, in order. -/
  given : List (Setting × String) := []
  /-- An option that is not settled yet, with its value if that came. -/
  pending : Option (Setting × Option String) := none
  /-- The command's own argument. -/
  argument : Option String := none
  /-- Whether everything that comes is an argument. -/
  trailing : Bool := false

namespace Level

/-- The values given for a setting. -/
def values (l : Level) (s : Setting) : List String :=
  l.given.filterMap fun g => if g.1 = s then some g.2 else none

/-- Gives a setting a value. -/
def give (l : Level) (s : Setting) (v : String) : Except UsageError Level :=
  if !s.repeats && !(l.values s).isEmpty then .error .argumentConflict
  else if s.accepts v then .ok { l with given := l.given ++ [(s, v)] }
  else .error .invalidValue

/-- Settles the option that is not settled yet. -/
def settle (l : Level) : Except UsageError Level :=
  match l.pending with
  | none => .ok l
  | some (_, none) => .error .invalidValue
  | some (s, some v) => give { l with pending := none } s v

/-- Whether the next word is the value of an option. -/
def awaitsValue (l : Level) : Bool :=
  match l.pending with
  | some (_, none) => true
  | _ => false

/-- Whether the command has an argument of its own that was not given yet. -/
def takesArgument (l : Level) : Bool :=
  l.argument.isNone &&
    match l.command with
    | some .explain | some .list | some .get => true
    | some .createTable | none => false

/-- Reads an option with the value that is attached to it, if one is. -/
def option (l : Level) (s : Setting) (attached : Option String) : Except UsageError Level := do
  let l ← l.settle
  match attached with
  | some v => l.give s v
  | none => return { l with pending := some (s, none) }

/-- Asks for something to be shown instead of a command to be run. -/
def display (l : Level) (what : UsageError) : Except UsageError Level := do
  let _ ← l.settle
  throw what

/-- What a flag shows. The version is known to the program only. -/
def shown? (l : Level) (long : String) : Option UsageError :=
  if long = "help" then some .displayHelp
  else if long = "version" && l.command.isNone then some .displayVersion
  else none

/-- Reads an option by its long name. -/
def longOption (l : Level) (text : String) : Except UsageError Level :=
  let (name, attached) := match splitAtFirst? '=' text with
    | some (name, v) => (name, some v)
    | none => (text, none)
  match (Setting.available l.command).find? fun s => s.longName == name with
  | some s => l.option s attached
  | none =>
    match l.shown? name, attached with
    | some what, none => l.display what
    | some _, some _ => .error .tooManyValues
    | none, _ => .error .unknownArgument

/-- Reads an option by its short name, with what stands behind it. -/
def shortOption (l : Level) (c : Char) (rest : List Char) : Except UsageError Level :=
  match (Setting.available l.command).find? fun s => s.shortName? == some c with
  | some s => l.option s <| match rest with
    | [] => none
    | '=' :: v => some (String.ofList v)
    | v => some (String.ofList v)
  | none =>
    if c = 'h' then l.display .displayHelp
    else if c = 'V' && l.command.isNone then l.display .displayVersion
    else .error .unknownArgument

/-- Reads a word that is no option and no value of one. -/
def word (l : Level) (text : String) : Except UsageError Level :=
  if l.takesArgument then do
    let l ← l.settle
    return { l with argument := some text }
  else match l.command with
    | some _ => .error .unknownArgument
    | none =>
      if l.trailing && (text = "help" || (CommandName.ofText? text).isSome) then
        .error .unknownArgument
      else .error .invalidSubcommand

/-- Reads one word of a command line. -/
def step (l : Level) (text : String) : Except UsageError Level :=
  if l.trailing then l.word text
  else match text.toList with
    | ['-', '-'] => .ok { l with trailing := true }
    | '-' :: '-' :: rest => l.longOption (String.ofList rest)
    | '-' :: c :: rest => l.shortOption c rest
    | _ =>
      match l.pending with
      | some (s, none) => .ok { l with pending := some (s, some text) }
      | _ => l.word text

/-- The help that is asked for by name, which has to be a command's or its own. -/
def help : List String → UsageError
  | [] => .displayHelp
  | [name] =>
    if name = "help" || (CommandName.ofText? name).isSome then .displayHelp else .invalidSubcommand
  | _ => .invalidSubcommand

/-- Reads words up to a command, which comes back with the words after it. -/
def readWords (l : Level) : List String →
    Except UsageError (Level × Option (CommandName × List String))
  | [] => .ok (l, none)
  | text :: rest =>
    let mayCommand := l.command.isNone && !l.trailing && !l.awaitsValue
    match if mayCommand then CommandName.ofText? text else none with
    | some c => .ok (l, some (c, rest))
    | none =>
      if mayCommand && text = "help" then .error (help rest)
      else do readWords (← l.step text) rest

end Level

/-! ## The whole command line -/

/-- What a command line asks for. -/
inductive Invocation where
  | explain (query : String) (parameters : QueryParameters)
  | createTable
  | list (query : Option String) (parameters : QueryParameters)
  | get (id : String) (sort : Option String)

/-- A command line that was read to its end. -/
structure CommandLine where
  connection : Remote.Connection
  format : OutputFormat
  table : TableFlags
  invocation : Invocation

/-- What a level asks for, after it was read. -/
def Level.toInvocation (l : Level) (name : CommandName) : Except UsageError Invocation :=
  let parameters : QueryParameters := ⟨l.values .param, l.values .named⟩
  match name, l.argument with
  | .explain, some query => .ok (.explain query parameters)
  | .createTable, _ => .ok .createTable
  | .list, query => .ok (.list query parameters)
  | .get, some id => .ok (.get id (l.values .sort).head?)
  | .explain, none | .get, none => .error .missingRequiredArgument

/-- Where the values of settings come from: after the command, before it, or the environment. -/
structure Sources where
  after : Level
  before : Level
  environment : String → Option String

/-- The values of a setting, from the first source that has any. -/
def Sources.values (src : Sources) (s : Setting) : List String :=
  let given := src.after.values s
  if !given.isEmpty then given
  else
    let given := src.before.values s
    if !given.isEmpty then given
    else (s.environmentName?.bind src.environment).toList

/-- The value of a setting that is given once at most. -/
def Sources.value? (src : Sources) (s : Setting) : Option String := (src.values s).head?

/-- The command line that settings and a command make. -/
def Sources.commandLine (src : Sources) (invocation : Invocation) : CommandLine where
  connection := {
    endpointUrl := src.value? .endpointUrl
    region := (src.value? .region).getD Remote.Connection.defaultRegion
    tablePrefix := src.value? .tablePrefix }
  format := ((src.value? .format).bind OutputFormat.ofName?).getD .pretty
  table := {
    table := (src.value? .table).getD ""
    partitionKey := (src.value? .partitionKey).getD "id"
    sortKey := src.value? .sortKey
    fields := src.values .field }
  invocation := invocation

/-- Whether a level, or the environment, says anything. -/
def saysAnything (l : Level) (environment : String → Option String) : Bool :=
  !l.given.isEmpty || Setting.shared.any fun s => (s.environmentName?.bind environment).isSome

/-- Reads a command line. -/
def CommandLine.read (environment : String → Option String) (words : List String) :
    Except UsageError CommandLine := do
  let (before, found) ← ({} : Level).readWords words
  match found with
  | some (name, rest) =>
    let (after, _) ← ({ command := some name } : Level).readWords rest
    let after ← after.settle
    let invocation ← after.toInvocation name
    let before ← before.settle
    return Sources.commandLine ⟨after, before, environment⟩ invocation
  | none =>
    let before ← before.settle
    if saysAnything before environment then throw .missingSubcommand
    else throw .displayHelpOnMissingArgumentOrSubcommand

end ItemStore.Command
