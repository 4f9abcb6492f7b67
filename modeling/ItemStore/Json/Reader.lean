import ItemStore.Json.Basic
import ItemStore.Json.Token

/-!
# Reading JSON

Tokens become a tree in one pass. The reader is an automaton: its state is the stack of arrays and
objects that are open, and what may come next. So reading is a fold over the tokens, and text is
JSON if the fold ends in `finished`. More than 127 arrays and objects inside one another are
refused.
-/

namespace ItemStore.Json

/-- A place in an open array or object that a value will fill, with what stands before it in
reverse order. -/
inductive Slot where
  | element (done : List Json)
  | member (done : List (String × Json)) (name : String)

/-- What may come next. -/
inductive ReaderState where
  /-- A value, for the innermost slot. -/
  | value (slots : List Slot)
  /-- The first element of an array, or its end. -/
  | firstElement (slots : List Slot)
  /-- A comma or the end of an array. -/
  | afterElement (done : List Json) (slots : List Slot)
  /-- The first name of an object, or its end. -/
  | firstName (slots : List Slot)
  /-- The next name of an object. -/
  | nextName (done : List (String × Json)) (slots : List Slot)
  /-- The colon after a name. -/
  | colon (done : List (String × Json)) (name : String) (slots : List Slot)
  /-- A comma or the end of an object. -/
  | afterMember (done : List (String × Json)) (slots : List Slot)
  /-- Nothing. -/
  | finished (j : Json)

namespace ReaderState

/-- How many arrays and objects may be open at a time. -/
def maxDepth : Nat := 127

/-- The state after a value that fills the innermost slot. -/
def fill (j : Json) : List Slot → ReaderState
  | [] => finished j
  | .element done :: slots => afterElement (j :: done) slots
  | .member done name :: slots => afterMember ((name, j) :: done) slots

/-- A token where a value has to start. -/
def start (slots : List Slot) : Token → Option ReaderState
  | .null => some (fill .null slots)
  | .bool b => some (fill (.bool b) slots)
  | .string s => some (fill (.string s) slots)
  | .number digits => some (fill (.number digits) slots)
  | .beginArray => if slots.length < maxDepth then some (firstElement slots) else none
  | .beginObject => if slots.length < maxDepth then some (firstName slots) else none
  | _ => none

/-- One token. -/
def step : ReaderState → Token → Option ReaderState
  | value slots, t => start slots t
  | firstElement slots, .endArray => some (fill (.array []) slots)
  | firstElement slots, t => start (.element [] :: slots) t
  | afterElement done slots, .comma => some (value (.element done :: slots))
  | afterElement done slots, .endArray => some (fill (.array done.reverse) slots)
  | firstName slots, .endObject => some (fill (.object []) slots)
  | firstName slots, .string s => some (colon [] s slots)
  | nextName done slots, .string s => some (colon done s slots)
  | colon done s slots, .colon => some (value (.member done s :: slots))
  | afterMember done slots, .comma => some (nextName done slots)
  | afterMember done slots, .endObject => some (fill (.object done.reverse) slots)
  | _, _ => none

/-- All tokens. -/
def run : ReaderState → List Token → Option ReaderState
  | s, [] => some s
  | s, t :: rest => (s.step t).bind fun s => run s rest

end ReaderState

/-- Reads a whole text. -/
def read? (text : String) : Option Json :=
  (Token.ofChars? text.toList).bind fun tokens =>
    match ReaderState.run (.value []) tokens with
    | some (.finished j) => some j
    | _ => none

end ItemStore.Json
