import ItemStore.Entity.Attributes
import ItemStore.Entity.Basic

/-!
# Sample entities

Two entities to try a store with: fruits, which have a partition key only, and readings of a
sensor, which are sorted by time.
-/

namespace ItemStore.Sample

open Numeral

/-- An entity that is found by its id alone. It may have no color. -/
structure Fruit where
  id : String
  name : String
  weight : Int
  color : Option String := none

/-- A measurement of a sensor at a time. -/
structure Reading where
  sensor : String
  time : Int
  value : Datum

/-- Integers of 64 bits. -/
def readInt64? : List Char → Option Int := (WholeRange.signed 64).read?

/-- Numbers of double precision. -/
def readDouble? : List Char → Option Datum := Datum.read? .double

/-- How fruit is kept: a fruit without a color has no such attribute. -/
def fruit : Entity Fruit where
  id := "fruit"
  describe := Schema.build {
    entity := "Fruit"
    fields := [⟨"id", .string⟩, ⟨"name", .string⟩, ⟨"weight", .number⟩, ⟨"color", .string⟩]
    partitionKey := some "id" }
  toItem f :=
    (Dict.ofList [("id", .text f.id), ("name", .text f.name),
      ("weight", .ofNumber (.whole f.weight))]).insertOption "color" (f.color.map Value.text)
  ofItem item := do
    let id ← Item.text item "id"
    let name ← Item.text item "name"
    let weight ← Item.number readInt64? item "weight"
    return { id, name, weight, color := Item.text? item "color" }

/-- How readings are kept, by sensor and then by time. -/
def reading : Entity Reading where
  id := "reading"
  describe := Schema.build {
    entity := "Reading"
    table := some "sensor_readings"
    fields := [⟨"sensor", .string⟩, ⟨"ts", .number⟩, ⟨"value", .number⟩]
    partitionKey := some "sensor"
    sortKey := some "ts" }
  toItem r :=
    Dict.ofList [("sensor", .text r.sensor), ("ts", .ofNumber (.whole r.time)),
      ("value", .ofNumber (.float .double r.value))]
  ofItem item := do
    let sensor ← Item.text item "sensor"
    let time ← Item.number readInt64? item "ts"
    let value ← Item.number readDouble? item "value"
    return { sensor, time, value }

end ItemStore.Sample
