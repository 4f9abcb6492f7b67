import ItemStore.Query.Json
import ItemStore.Remote.Attribute

/-!
# Requests

The requests that a remote store understands, each with the name of its operation and its body as
JSON, and the faults that a request can meet.
-/

namespace ItemStore.Remote

open Query

/-- A key field as a remote store defines it: its name, and the short name of its type. -/
structure KeyDefinition where
  name : String
  typeName : String
  deriving DecidableEq

/-- The short name of a type that keys can be of. -/
def scalarName : FieldType → Except SchemaFault String
  | .string => .ok "S"
  | .number => .ok "N"
  | .binary => .ok "B"
  | t => .error (.noScalar t)

/-- Defines a key field of a type. -/
def KeyDefinition.of (name : String) (type : FieldType) : Except SchemaFault KeyDefinition :=
  (scalarName type).map fun typeName => ⟨name, typeName⟩

/-- The requests that a remote table sends, with the table they are for. -/
inductive Request where
  | getItem (table : String) (key : Item)
  | putItem (table : String) (item : Item)
  | updateItem (table : String) (key : Item) (update : UpdateExpression)
  | deleteItem (table : String) (key : Item)
  | batchWrite (table : String) (items : List Item)
  /-- A query or a scan, by the operation of its expression. -/
  | read (table : String) (expression : Expression) (start : Option Item)
  | createTable (table : String) (partitionKey : KeyDefinition) (sortKey : Option KeyDefinition)

namespace Request

/-- The name of a request's operation. -/
def target : Request → String
  | getItem _ _ => "GetItem"
  | putItem _ _ => "PutItem"
  | updateItem _ _ _ => "UpdateItem"
  | deleteItem _ _ => "DeleteItem"
  | batchWrite _ _ => "BatchWriteItem"
  | read _ e _ => match e.operation with
    | .query => "Query"
    | .scan => "Scan"
  | createTable _ _ _ => "CreateTable"

/-- The table of a request. -/
def table : Request → String
  | getItem t _ | putItem t _ | updateItem t _ _ | deleteItem t _ | batchWrite t _ | read t _ _
  | createTable t _ _ => t

/-- Whether a request reads or writes. -/
def access : Request → Access
  | getItem _ _ | read _ _ _ => .read
  | _ => .write

/-! ## Bodies -/

/-- A member, where there is something to say. -/
def member (name : String) : Option Json → List (String × Json)
  | some j => [(name, j)]
  | none => []

/-- The tables of an expression, where they have entries. -/
def tables (names : Dict String) (values : Dict Value) : List (String × Json) :=
  let ifAny (l : List (String × Json)) := if l.isEmpty then none else some (Json.object l)
  member "ExpressionAttributeNames" (ifAny (names.entries.map fun e => (e.1, .string e.2)))
    ++ member "ExpressionAttributeValues"
      (ifAny (values.entries.map fun e => (e.1, (Attribute.ofValue e.2).toJson)))

/-- The definition of a key field. -/
def attributeDefinition (k : KeyDefinition) : Json :=
  .object [("AttributeName", .string k.name), ("AttributeType", .string k.typeName)]

/-- The role of a key field. -/
def keyElement (role : String) (k : KeyDefinition) : Json :=
  .object [("AttributeName", .string k.name), ("KeyType", .string role)]

/-- The body of a request. -/
def body : Request → Json
  | getItem t key | deleteItem t key =>
    .object [("TableName", .string t), ("Key", Attribute.itemJson key)]
  | putItem t item => .object [("TableName", .string t), ("Item", Attribute.itemJson item)]
  | updateItem t key u =>
    .object ([("TableName", .string t), ("Key", Attribute.itemJson key)]
      ++ member "UpdateExpression" (u.text.map .string) ++ tables u.names u.values)
  | batchWrite t items =>
    let put (item : Item) : Json :=
      .object [("PutRequest", .object [("Item", Attribute.itemJson item)])]
    .object [("RequestItems", .object [(t, .array (items.map put))])]
  | read t e start =>
    .object ([("TableName", .string t)]
      ++ member "KeyConditionExpression" (e.keyCondition.map .string)
      ++ member "FilterExpression" (e.filter.map .string) ++ tables e.names e.values
      ++ member "ExclusiveStartKey" (start.map Attribute.itemJson))
  | createTable t partition sort =>
    .object [("TableName", .string t),
      ("AttributeDefinitions", .array ((partition :: sort.toList).map attributeDefinition)),
      ("KeySchema", .array (keyElement "HASH" partition :: sort.toList.map (keyElement "RANGE"))),
      ("BillingMode", .string "PAY_PER_REQUEST")]

/-! ## Faults -/

/-- Whether a write can make a collection of items too large. -/
def growsCollection : Request → Bool
  | putItem _ _ | updateItem _ _ _ | batchWrite _ _ => true
  | _ => false

/-- Whether a request can meet a transaction on its item. -/
def conflicts : Request → Bool
  | putItem _ _ | updateItem _ _ _ | deleteItem _ _ => true
  | _ => false

/-- Whether a request creates a table. -/
def isCreateTable : Request → Bool
  | createTable _ _ _ => true
  | _ => false

/-- A fault that none of the named ones is. -/
def unhandled (r : Request) : StoreFault := .service (.unhandled r.target)

/-- The name of a fault without a remark, which a colon sets off. -/
def faultName (name : String) : String := String.ofList (name.toList.takeWhile (· != ':'))

/-- The fault that a request meets, by its name. -/
def namedFault (r : Request) (name : String) : StoreFault :=
  if name = "InternalServerError" then .service .internalError
  else if r.isCreateTable then
    if name = "ResourceInUseException" then .tableExists r.table
    else if name = "LimitExceededException" then .service .tableLimitExceeded
    else r.unhandled
  else if name = "ResourceNotFoundException" then .tableNotFound r.table
  else if name = "ProvisionedThroughputExceededException" then .service .throughputExceeded
  else if name = "RequestLimitExceeded" then .service .requestLimitExceeded
  else if name = "ItemCollectionSizeLimitExceededException" && r.growsCollection then
    .service .collectionTooLarge
  else if name = "TransactionConflictException" && r.conflicts then .service .transactionConflict
  else r.unhandled

/-- The fault that a request meets, by what the store calls it. -/
def fault (r : Request) (name : String) : StoreFault := r.namedFault (faultName name)

end Request

end ItemStore.Remote
