import ItemStore.Numeral.Literal

/-!
# Whole numbers of a bounded range

Reading an integer that has to fit a range, as an entity's field does. A minus sign is read only
where the range holds negative numbers, so `-0` is no number of an unsigned range.
-/

namespace ItemStore.Numeral

/-- The integers from `low` to `high`. -/
structure WholeRange where
  low : Int
  high : Int

namespace WholeRange

/-- The integers of two's complement with `bits` bits. -/
def signed (bits : Nat) : WholeRange :=
  ⟨-(1 <<< (bits - 1) : Nat), (1 <<< (bits - 1) : Nat) - 1⟩

/-- The natural numbers of `bits` bits. -/
def unsigned (bits : Nat) : WholeRange := ⟨0, (1 <<< bits : Nat) - 1⟩

/-- Reads a whole text as an integer of the range. -/
def read? (r : WholeRange) (cs : List Char) : Option Int :=
  if 0 ≤ r.low && cs.head? = some '-' then none
  else match readSigned? cs with
    | some n => if r.low ≤ n && n ≤ r.high then some n else none
    | none => none

end WholeRange

end ItemStore.Numeral
