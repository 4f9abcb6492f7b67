import ItemStore.Remote.Request
import ItemStore.Remote.Shape

/-!
# Answers

What the body of a response says. Every operation promises a shape for its body (`Request.answer`),
of which only a few members are read. A body that breaks the promise anywhere is no answer.
-/

namespace ItemStore.Remote

namespace Shape

/-! ## Parts of answers -/

/-- The attributes of an item, by name. -/
def attributes : Shape := map attributeValue

/-- Integers of 32 bits. -/
def int32 : Shape := whole (.signed 32)

/-- Integers of 64 bits. -/
def int64 : Shape := whole (.signed 64)

/-- How much of a table's capacity something took. -/
def capacity : Shape :=
  record [("ReadCapacityUnits", float), ("WriteCapacityUnits", float), ("CapacityUnits", float)]

/-- What a request consumed of a table and of its indexes. -/
def consumedCapacity : Shape :=
  record [("TableName", text), ("CapacityUnits", float), ("ReadCapacityUnits", float),
    ("WriteCapacityUnits", float), ("Table", capacity), ("LocalSecondaryIndexes", map capacity),
    ("GlobalSecondaryIndexes", map capacity)]

/-- The size of a collection of items. -/
def collectionMetrics : Shape :=
  record [("ItemCollectionKey", attributes), ("SizeEstimateRangeGB", list float)]

/-- A write of a batch, a put or a deletion. -/
def writeRequest : Shape :=
  record [("PutRequest", record [("Item", attributes)]),
    ("DeleteRequest", record [("Key", attributes)])]

/-! ### The description of a table -/

/-- The attributes of a key, with the part that each plays. -/
def keySchema : Shape := list (record [("AttributeName", text), ("KeyType", text)])

/-- Which attributes an index holds. -/
def projection : Shape := record [("ProjectionType", text), ("NonKeyAttributes", list text)]

/-- The throughput that is set aside for a table or an index. -/
def throughput : Shape :=
  record [("LastIncreaseDateTime", time), ("LastDecreaseDateTime", time),
    ("NumberOfDecreasesToday", int64), ("ReadCapacityUnits", int64), ("WriteCapacityUnits", int64)]

/-- The limits of a table that is paid by request. -/
def onDemandThroughput : Shape :=
  record [("MaxReadRequestUnits", int64), ("MaxWriteRequestUnits", int64)]

/-- What a table or an index can serve at once. -/
def warmThroughput : Shape :=
  record [("ReadUnitsPerSecond", int64), ("WriteUnitsPerSecond", int64), ("Status", text)]

/-- The throughput of a replica, where it has its own. -/
def throughputOverride : Shape := record [("ReadCapacityUnits", int64)]

/-- The limits of a replica, where it has its own. -/
def onDemandOverride : Shape := record [("MaxReadRequestUnits", int64)]

/-- The storage class of a table. -/
def tableClass : Shape := record [("TableClass", text), ("LastUpdateDateTime", time)]

/-- An index that shares the partition keys of its table. -/
def localIndex : Shape :=
  record [("IndexName", text), ("KeySchema", keySchema), ("Projection", projection),
    ("IndexSizeBytes", int64), ("ItemCount", int64), ("IndexArn", text)]

/-- An index with keys of its own. -/
def globalIndex : Shape :=
  record [("IndexName", text), ("KeySchema", keySchema), ("Projection", projection),
    ("IndexStatus", text), ("Backfilling", bool), ("ProvisionedThroughput", throughput),
    ("IndexSizeBytes", int64), ("ItemCount", int64), ("IndexArn", text),
    ("OnDemandThroughput", onDemandThroughput), ("WarmThroughput", warmThroughput)]

/-- An index of a replica. -/
def replicaIndex : Shape :=
  record [("IndexName", text), ("ProvisionedThroughputOverride", throughputOverride),
    ("OnDemandThroughputOverride", onDemandOverride), ("WarmThroughput", warmThroughput)]

/-- A copy of the table in another region. -/
def replica : Shape :=
  record [("RegionName", text), ("ReplicaStatus", text), ("ReplicaStatusDescription", text),
    ("ReplicaStatusPercentProgress", text), ("KMSMasterKeyId", text),
    ("ProvisionedThroughputOverride", throughputOverride),
    ("OnDemandThroughputOverride", onDemandOverride), ("WarmThroughput", warmThroughput),
    ("GlobalSecondaryIndexes", list replicaIndex), ("ReplicaInaccessibleDateTime", time),
    ("ReplicaTableClassSummary", tableClass)]

/-- All that is said of a table which was created. None of it is used, but each member that is there
has to be of its shape. -/
def tableDescription : Shape :=
  record [
    ("AttributeDefinitions", list (record [("AttributeName", text), ("AttributeType", text)])),
    ("TableName", text), ("KeySchema", keySchema), ("TableStatus", text),
    ("CreationDateTime", time), ("ProvisionedThroughput", throughput), ("TableSizeBytes", int64),
    ("ItemCount", int64), ("TableArn", text), ("TableId", text),
    ("BillingModeSummary",
      record [("BillingMode", text), ("LastUpdateToPayPerRequestDateTime", time)]),
    ("LocalSecondaryIndexes", list localIndex), ("GlobalSecondaryIndexes", list globalIndex),
    ("StreamSpecification", record [("StreamEnabled", bool), ("StreamViewType", text)]),
    ("LatestStreamLabel", text), ("LatestStreamArn", text), ("GlobalTableVersion", text),
    ("Replicas", list replica),
    ("GlobalTableWitnesses", list (record [("RegionName", text), ("WitnessStatus", text)])),
    ("RestoreSummary", record [("SourceBackupArn", text), ("SourceTableArn", text),
      ("RestoreDateTime", time), ("RestoreInProgress", bool)]),
    ("SSEDescription", record [("Status", text), ("SSEType", text), ("KMSMasterKeyArn", text),
      ("InaccessibleEncryptionDateTime", time)]),
    ("ArchivalSummary", record [("ArchivalDateTime", time), ("ArchivalReason", text),
      ("ArchivalBackupArn", text)]),
    ("TableClassSummary", tableClass), ("DeletionProtectionEnabled", bool),
    ("OnDemandThroughput", onDemandThroughput), ("WarmThroughput", warmThroughput),
    ("MultiRegionConsistency", text)]

end Shape

/-! ## Answers by operation -/

open Shape in
/-- The shape of the answer to a request. -/
def Request.answer : Request → Shape
  | getItem _ _ => record [("Item", attributes), ("ConsumedCapacity", consumedCapacity)]
  | putItem _ _ | updateItem _ _ _ | deleteItem _ _ =>
    record [("Attributes", attributes), ("ConsumedCapacity", consumedCapacity),
      ("ItemCollectionMetrics", collectionMetrics)]
  | batchWrite _ _ =>
    record [("UnprocessedItems", map (list writeRequest)),
      ("ItemCollectionMetrics", map (list collectionMetrics)),
      ("ConsumedCapacity", list consumedCapacity)]
  | read _ _ _ =>
    record [("Items", list attributes), ("Count", int32), ("ScannedCount", int32),
      ("LastEvaluatedKey", attributes), ("ConsumedCapacity", consumedCapacity)]
  | createTable _ _ _ => record [("TableDescription", tableDescription)]

/-! ## What is read of an answer -/

/-- A member that may be absent or null, read if it is there. -/
def optional? {α : Type} (read? : Json → Option α) (name : String) (j : Json) :
    Option (Option α) :=
  match j.member? name with
  | none | some .null => some none
  | some m => (read? m).map some

/-- Nothing. -/
def acknowledged (_ : Json) : Option Unit := some ()

/-- The item that was found, if there is one. -/
def foundItem? : Json → Option (Option (List (String × Attribute))) :=
  optional? Attribute.itemOfJson? "Item"

/-- A list of items. -/
def itemsOfJson? (j : Json) : Option (List (List (String × Attribute))) :=
  j.array?.bind fun elements => elements.mapM Attribute.itemOfJson?

/-- The items of a page, and the key where it stopped. -/
def page? (j : Json) :
    Option (List (List (String × Attribute)) × Option (List (String × Attribute))) := do
  let items ← optional? itemsOfJson? "Items" j
  let key ← optional? Attribute.itemOfJson? "LastEvaluatedKey" j
  return (items.getD [], key)

/-- How many items of a batch were left, in all tables. -/
def unprocessed? (j : Json) : Option Nat := do
  let tables ← optional? Json.object? "UnprocessedItems" j
  let lists ← ((tables.getD []).map Prod.snd).mapM Json.array?
  return lists.foldl (fun n l => n + l.length) 0

end ItemStore.Remote
