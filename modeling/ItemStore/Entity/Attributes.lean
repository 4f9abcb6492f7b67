import ItemStore.Error
import ItemStore.Numeral.NumberType
import ItemStore.Value.Order

/-!
# Reading and writing attributes

What an entity is made from and turned into. A required attribute that is absent, or of another
kind, is a fault that names it; an optional one may be absent.
-/

namespace ItemStore.Item

open Numeral

/-- What a required attribute holds. -/
def required {α : Type} (name : String) : Option α → Except DataFault α
  | some a => .ok a
  | none => .error (.badAttribute name)

/-- The text of an attribute that has to be there. -/
def text (item : Item) (name : String) : Except DataFault String :=
  required name ((item.get? name).bind Value.text?)

/-- A text, or nothing where there is none, whatever stands in its place. -/
def text? (item : Item) (name : String) : Option String := (item.get? name).bind Value.text?

/-- The truth value of an attribute that has to be there. -/
def bool (item : Item) (name : String) : Except DataFault Bool :=
  required name ((item.get? name).bind Value.bool?)

/-- The bytes of an attribute that has to be there. -/
def binary (item : Item) (name : String) : Except DataFault (List UInt8) :=
  required name ((item.get? name).bind Value.binary?)

/-- A number that `read` makes of the text, blanks at its ends aside. -/
def number {α : Type} (read : List Char → Option α) (item : Item) (name : String) :
    Except DataFault α := do
  let digits ← required name ((item.get? name).bind Value.number?)
  match read (Text.trim digits.toList) with
  | some n => return n
  | none => throw (.badNumber name digits)

/-- A number, or nothing where the attribute is absent or null. -/
def number? {α : Type} (read : List Char → Option α) (item : Item) (name : String) :
    Except DataFault (Option α) :=
  match item.get? name with
  | none | some .null => .ok none
  | some _ => (number read item name).map some

end ItemStore.Item

namespace ItemStore

/-- A number as an attribute value. -/
def Value.ofNumber (n : Numeral.Number) : Value := .number n.text

end ItemStore
