import ItemStore.Numeral.Binary
import ItemStore.Numeral.Whole

/-!
# Whole numbers in any notation

A number text can say a whole number with a point or an exponent, as in `2.0` or `1e3`. Plain digits
that fit 64 bits are taken exactly. Any other text is taken as the double nearest to it, which has
to be whole and within the range, whose ends are taken as doubles too.
-/

namespace ItemStore.Numeral

/-- Whether an encoded number is finite and whole. -/
def Format.isWhole (f : Format) (magnitude : Nat) : Bool :=
  let (m, e) := f.decode magnitude
  magnitude < f.infinity && (0 ≤ e || m % 1 <<< (-e).toNat == 0)

/-- The double nearest to an integer. -/
def Datum.ofInt (n : Int) : Datum := .ofLiteral .double (.finite (n < 0) n.natAbs 0)

namespace WholeRange

/-- Whether a double is a whole number of the range. -/
def holdsDouble (r : WholeRange) (d : Datum) : Bool :=
  match d, d.order?, (Datum.ofInt r.low).order?, (Datum.ofInt r.high).order? with
  | .number _ magnitude, some place, some low, some high =>
    Format.double.isWhole magnitude && low ≤ place && place ≤ high
  | _, _, _, _ => false

/-- Whether a text is plain digits that fit 64 bits. -/
def fitsWord (cs : List Char) : Bool :=
  ((signed 64).read? cs).isSome || ((unsigned 64).read? cs).isSome

/-- Whether a number text says a whole number of the range. -/
def holdsText (r : WholeRange) (cs : List Char) : Bool :=
  if fitsWord cs then (r.read? cs).isSome
  else (Datum.read? .double cs).any r.holdsDouble

end WholeRange

end ItemStore.Numeral
