import ItemStore.Query.Bindings
import ItemStore.Query.SyntaxError
import ItemStore.Schema.Build

/-!
# Errors

Everything that can go wrong between a query text and a stored item, by its cause. An error's
message names the kind of failure first and then the cause.
-/

namespace ItemStore

/-- Whether a store was read or written when it failed. -/
inductive Access where
  | read
  | write
  deriving DecidableEq, Repr

/-- What a remote store reports, or the request that failed for another reason. -/
inductive ServiceFault where
  | throughputExceeded
  | requestLimitExceeded
  | internalError
  | collectionTooLarge
  | transactionConflict
  | tableLimitExceeded
  /-- The request by the name of its operation. -/
  | unhandled (operation : String)
  deriving DecidableEq, Repr

/-- What a user reads of a service fault. -/
def ServiceFault.message : ServiceFault → String
  | throughputExceeded => "Throughput exceeded, please retry"
  | requestLimitExceeded => "Request limit exceeded, please retry"
  | internalError => "DynamoDB internal server error"
  | collectionTooLarge => "Item collection size limit exceeded"
  | transactionConflict => "Transaction conflict, please retry"
  | tableLimitExceeded => "Table limit exceeded"
  | unhandled operation => operation ++ " failed: "

/-- Why a store refused an operation. -/
inductive StoreFault where
  | tableNotFound (table : String)
  | tableExists (table : String)
  | batchTooLarge (count limit : Nat)
  | missingKey (m : MissingKey)
  | partitionType (field : String) (expected : FieldType) (found : Value)
  | sortType (expected : FieldType) (found : Value)
  | noSortValue
  | extraSortValue
  /-- A condition looks for a partition by a value that no key has. -/
  | partitionValue (found : Value)
  /-- A partition was to be read, and nothing says which. -/
  | noKeyCondition
  | service (fault : ServiceFault)
  /-- A cursor was followed for as many pages as allowed and did not end. -/
  | tooManyPages
  deriving DecidableEq

/-- What a user reads of a refusal, without the kind of failure. -/
def StoreFault.message : StoreFault → String
  | tableNotFound table => "Table not found: " ++ table
  | tableExists table => "Table " ++ table ++ " already exists"
  | batchTooLarge count limit =>
    "Batch of " ++ toString count ++ " items exceeds the limit of " ++ toString limit
  | missingKey m => "Invalid data: " ++ m.message
  | partitionType field expected found =>
    "Partition key '" ++ field ++ "' expects " ++ expected.title ++ ", got " ++ found.typeName
  | sortType expected found => "Sort key expects " ++ expected.title ++ ", got " ++ found.typeName
  | noSortValue => "Missing sort key value"
  | extraSortValue => "Table has no sort key but one was given"
  | partitionValue found => "Partition key value must be S, N or B, got " ++ found.typeName
  | noKeyCondition => "Query without a key condition"
  | service fault => fault.message
  | tooManyPages => "Too many pages"

/-- Why an item is not what it should be. -/
inductive DataFault where
  | missingKey (m : MissingKey)
  /-- An attribute is absent or of another kind. -/
  | badAttribute (name : String)
  /-- The text of a number attribute does not say a number of the wanted type. -/
  | badNumber (name digits : String)
  /-- An attribute from a remote store is of a kind that values do not have. -/
  | unknownAttribute
  /-- An entity with a sort key cannot be found by its partition value alone. -/
  | needsSortValue (entity sortKey : String)
  /-- An entity of the caller's does not accept the item. -/
  | rejected (reason : String)
  deriving DecidableEq

/-- What a user reads of a fault in an item, without the kind of failure. -/
def DataFault.message : DataFault → String
  | missingKey m => m.message
  | badAttribute name => "Missing or invalid field: " ++ name
  | badNumber name digits => "Invalid number " ++ name ++ ": " ++ digits
  | unknownAttribute => "Unsupported attribute value: Unknown"
  | needsSortValue entity sortKey =>
    entity ++ " has sort key '" ++ sortKey ++ "'; look it up with a full key"
  | rejected reason => reason

/-- Why a call gives no result. -/
inductive Error where
  | badSyntax (e : Query.SyntaxError)
  | binding (fault : Query.BindingFault)
  | unknownField (entity field : String)
  | schema (fault : SchemaFault)
  | unboundTable (entity table : String)
  | store (access : Access) (fault : StoreFault)
  | unprocessed (count : Nat)
  | data (fault : DataFault)
  /-- A sum of places does not fit in a word. The call is broken off, and no store has answered. -/
  | overflow
  deriving DecidableEq

namespace Error

/-- What a user reads: the kind of failure, and then its cause. -/
def message : Error → String
  | badSyntax e => "Syntax error at position " ++ toString e.position ++ ": " ++ e.fault.message
  | binding fault => "Binding error: " ++ fault.message
  | unknownField entity field => "Unknown field '" ++ field ++ "' on " ++ entity
  | schema fault => "Configuration error: " ++ fault.message
  | unboundTable entity table =>
    "Configuration error: No table bound for entity " ++ entity ++ " (table " ++ table ++ ")"
  | store .read fault => "Query failed: " ++ fault.message
  | store .write fault => "Write failed: " ++ fault.message
  | unprocessed count => "Batch write left " ++ toString count ++ " unprocessed items"
  | data fault => "Invalid data: " ++ fault.message
  | overflow => "attempt to add with overflow"

/-- Whether an error is in the query itself, found before any table is reached. -/
def isQueryError : Error → Bool
  | badSyntax _ | binding _ | unknownField _ _ => true
  | _ => false

/-- An item without a key where an item with one is needed. -/
def ofMissingKey (m : MissingKey) : Error := data (.missingKey m)

end Error

end ItemStore
