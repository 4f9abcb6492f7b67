import ItemStore.Numeral.Literal

/-!
# Binary floating-point numbers

Numbers compare as binary floating-point numbers of double precision. A format rounds a decimal
to the nearest number it has, of two equally near ones to the even one, and what it has is
numbered in increasing order from zero up to infinity: `Format.encode` gives that number, which
for the two standard formats is the bit pattern without its sign. So comparing is comparing
integers (`Datum.order?`), exactly and without machine arithmetic.
-/

namespace ItemStore.Numeral

/-- A binary format: significands of `precision` bits, `2 ^ minExponent` as its smallest positive
number, and the encoding of infinity. -/
structure Format where
  precision : Nat
  minExponent : Int
  infinity : Nat

/-- Double precision. -/
def Format.double : Format := ⟨53, -1074, 0x7FF0000000000000⟩

/-- Single precision. -/
def Format.single : Format := ⟨24, -149, 0x7F800000⟩

/-- `num / den` to the nearest integer, a half to the even one. -/
def roundHalfEven (num den : Nat) : Nat :=
  let q := num / den
  let r := num % den
  if 2 * r < den then q
  else if den < 2 * r then q + 1
  else if q % 2 = 0 then q else q + 1

/-- The exponent of the largest power of two that is at most `num / den`. -/
def floorLog2 (num den : Nat) : Int :=
  let q : Int := (num.log2 : Int) - den.log2
  if 0 ≤ q then
    if den <<< q.toNat ≤ num then q else q - 1
  else if den ≤ num <<< (-q).toNat then q else q - 1

namespace Format

variable (f : Format)

/-- Rounds `num / den` and numbers the result: a significand at the exponent that gives it
`precision` bits, or at the smallest exponent. -/
def encode (num den : Nat) : Nat :=
  let e := max (floorLog2 num den - (f.precision - 1 : Nat)) f.minExponent
  let m := if 0 ≤ e then roundHalfEven num (den <<< e.toNat)
    else roundHalfEven (num <<< (-e).toNat) den
  min f.infinity ((e - f.minExponent).toNat <<< (f.precision - 1) + m)

/-- Rounds `digits · 10 ^ exponent`. Exponents outside ±400 are past the range of both standard
formats whatever the digits, which are fewer than `log2 digits / 3 + 1`. -/
def encodeDecimal (digits : Nat) (exponent : Int) : Nat :=
  if digits = 0 then 0
  else if 400 < exponent then f.infinity
  else if exponent + (digits.log2 / 3 + 1 : Nat) < -400 then 0
  else if 0 ≤ exponent then f.encode (digits * Nat.pow 10 exponent.toNat) 1
  else f.encode digits (Nat.pow 10 (-exponent).toNat)

/-- The significand and exponent of an encoded finite number. -/
def decode (magnitude : Nat) : Nat × Int :=
  let unit := 1 <<< (f.precision - 1)
  if magnitude < unit then (magnitude, f.minExponent)
  else (magnitude % unit + unit, (magnitude / unit - 1 : Nat) + f.minExponent)

end Format

/-- A number of a binary format by its sign and encoding, or no number at all. -/
inductive Datum where
  | nan
  | number (negative : Bool) (magnitude : Nat)
  deriving DecidableEq, Repr

namespace Datum

/-- The place of a number in the order of its format; the two zeros share one. -/
def order? : Datum → Option Int
  | nan => none
  | number negative magnitude => some (if negative then -(magnitude : Int) else magnitude)

/-- Rounds what a number text says. -/
def ofLiteral (f : Format) : Literal → Datum
  | .nan => .nan
  | .infinite negative => .number negative f.infinity
  | .finite negative digits exponent => .number negative (f.encodeDecimal digits exponent)

/-- Whether this is a number of the format other than an infinity. -/
def isFinite (f : Format) : Datum → Bool
  | nan => false
  | number _ magnitude => magnitude < f.infinity

/-- Reads a whole text as a number of the format. -/
def read? (f : Format) (cs : List Char) : Option Datum :=
  (Literal.read? cs).map (ofLiteral f)

end Datum

end ItemStore.Numeral
