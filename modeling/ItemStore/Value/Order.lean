import ItemStore.Numeral.Binary
import ItemStore.Text.Blank
import ItemStore.Value.Basic

/-!
# The order of values

Texts and binary values compare byte by byte, numbers by their value in double precision. Nothing
else has an order: two values of different kinds, and a number text that says no number, do not
compare at all. Equality is finer where there is no order and coarser on numbers: `1` and `1.0` are
one number, though not one text.
-/

namespace ItemStore.Value

open Numeral

/-- The place of a number text in the order of numbers, blanks at its ends aside. -/
def numberRank? (digits : String) : Option Int :=
  (Datum.read? .double (Text.trim digits.toList)).bind Datum.order?

/-- How two values compare, where they do. -/
def compare? : Value → Value → Option Ordering
  | text a, text b => some (compare a b)
  | binary a, binary b => some (compare a b)
  | number a, number b => (numberRank? a).bind fun m => (numberRank? b).map fun n => compare m n
  | bool a, bool b => if a = b then some .eq else none
  | null, null => some .eq
  | _, _ => none

/-- Whether two values are the same to a store: numbers by value, all else as it stands. -/
def same (a b : Value) : Bool :=
  match a, b with
  | number m, number n => compare? (number m) (number n) == some .eq
  | a, b => a == b

end ItemStore.Value

namespace ItemStore

/-- Whether two keys say the same row. -/
def Key.same (a b : Key) : Bool :=
  a.partition.same b.partition &&
    match a.sort, b.sort with
    | some s, some t => s.same t
    | none, none => true
    | _, _ => false

end ItemStore
