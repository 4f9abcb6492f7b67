import ItemStore.Numeral.Shortest
import ItemStore.Numeral.Whole

/-!
# Number types

The machine numbers that an entity's field can have: integers of a range, and binary
floating-point numbers. Each reads its texts and has one text for every number.
-/

namespace ItemStore.Numeral

/-- A whole number, or one of a float format. -/
inductive Number where
  | whole (n : Int)
  | float (format : Format) (d : Datum)

/-- The text of a number. -/
def Number.text : Number → String
  | whole n => toString n
  | float format d => d.text format

/-- A type of numbers: the whole ones of a range, or those of a float format. -/
inductive NumberType where
  | whole (range : WholeRange)
  | float (format : Format)

namespace NumberType

/-- Reads a whole text as a number of the type. -/
def read? : NumberType → List Char → Option Number
  | whole range, cs => (range.read? cs).map .whole
  | float format, cs => (Datum.read? format cs).map (.float format)

/-- The integers of 64 bits with a sign. -/
def int64 : NumberType := whole (.signed 64)

/-- Double precision. -/
def double : NumberType := float .double

end NumberType

end ItemStore.Numeral
