import ItemStore.Remote.Answer
import ItemStore.Store.Table

/-!
# Remote tables

A store that is reached by requests. Its state is a transport: the responses that are still to
come, and the requests that were sent. Every operation sends one request at most, and what the
response says becomes its result.
-/

namespace ItemStore.Remote

open Query Store

/-- What comes back for a request. -/
inductive Response where
  | body (j : Json)
  /-- A fault by its name. -/
  | fault (name : String)

/-- A connection: what will come back, and what was sent. -/
structure Transport where
  /-- Responses that are to come. After the last one every body is empty. -/
  responses : List Response := []
  /-- Requests that were sent, the last one first. -/
  sent : List Request := []

/-- Sends a request. -/
def Transport.send (r : Request) : Step Transport Response := fun t =>
  let t := { t with sent := r :: t.sent }
  match t.responses with
  | response :: rest => (.ok response, { t with responses := rest })
  | [] => (.ok (.body (.object [])), t)

/-- Sends a request and reads its answer, if that is of its shape. -/
def call {α : Type} (r : Request) (read? : Json → Option α) : Step Transport α := do
  match ← Transport.send r with
  | .fault name => throw (.store r.access (r.fault name))
  | .body j =>
    match if r.answer.admits j then read? j else none with
    | some a => return a
    | none => throw (.store r.access r.unhandled)

/-- The step that gives what attributes say, or fails. -/
def converted {α : Type} (r : Except DataFault α) : Step Transport α :=
  .ofExcept (r.mapError .data)

/-! ## Operations -/

variable (name : String) (s : Schema)

/-- Asks for one item. -/
def getItem (key : Key) : Step Transport (Option Item) := do
  match ← call (.getItem name (s.keyItem key)) foundItem? with
  | some attributes => return some (← converted (Attribute.toItem attributes))
  | none => return none

/-- Has an item written over one with its key. -/
def putItem (item : Item) : Step Transport Unit := call (.putItem name item) acknowledged

/-- Has the attributes of an item set and the declared ones that it lacks removed. -/
def updateItem (item : Item) : Step Transport Unit := do
  let key ← .ofExcept ((s.keyOf item).mapError .ofMissingKey)
  call (.updateItem name (s.keyItem key) (renderUpdate s item)) acknowledged

/-- Has the item with a key deleted. -/
def deleteItem (key : Key) : Step Transport Unit :=
  call (.deleteItem name (s.keyItem key)) acknowledged

/-- Has a batch written, and fails if the answer says that items are left. -/
def putBatch (items : List Item) : Step Transport Unit := do
  if items.isEmpty then return
  if batchLimit < items.length then
    throw (.store .write (.batchTooLarge items.length batchLimit))
  let left ← call (.batchWrite name items) unprocessed?
  if 0 < left then throw (.unprocessed left)

/-- Reads a page. An empty key where it stopped means that it is the last one. -/
def fetchPage (c : Condition) (start : Option Item) : Step Transport Page := do
  let e := c.render s
  if e.operation == .query && e.keyCondition.isNone then throw (.store .read .noKeyCondition)
  let (items, key) ← call (.read name e start) page?
  let items ← converted (items.mapM Attribute.toItem)
  match key with
  | some (e :: rest) => return ⟨items, some (← converted (Attribute.toItem (e :: rest)))⟩
  | _ => return ⟨items, none⟩

/-- The step that gives the definition of a key field, or fails. -/
def defined (field : String) (type : FieldType) : Step Transport KeyDefinition :=
  .ofExcept ((KeyDefinition.of field type).mapError .schema)

/-- Creates the table, if its keys are of types that a remote store has. -/
def createTable : Step Transport Unit := do
  let partition ← defined s.partitionKey.name s.partitionType
  let sort ← match s.sortName?, s.sortType? with
    | some field, some type => some <$> defined field type
    | _, _ => pure none
  call (.createTable name partition sort) acknowledged

/-- The remote store. Every table's name starts with `tablePrefix`. -/
def backend (tablePrefix : String) : Backend Transport where
  table s :=
    let name := tablePrefix ++ s.table
    .ok {
      name
      schema := s
      get := getItem name s
      put := putItem name
      update := updateItem name s
      delete := deleteItem name s
      putBatch := putBatch name
      fetch := fetchPage name s
      create := createTable name s }

end ItemStore.Remote
