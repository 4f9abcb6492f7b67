import ItemStore.Numeral.Binary

/-!
# Shortest decimal texts

A binary number is written with the fewest digits that read back as it, of several the nearest
to it, always positionally: `0.00001`, never `1e-5`, and no point after a whole number.
-/

namespace ItemStore.Numeral

/-- A positive rational as numerator and denominator, times `10 ^ k`. -/
def scaleByTen (num den : Nat) (k : Int) : Nat × Nat :=
  if 0 ≤ k then (num * Nat.pow 10 k.toNat, den) else (num, den * Nat.pow 10 (-k).toNat)

/-- The reals that round to one number, around it: `value`, `low` and `high` over `den`. -/
structure Interval where
  low : Nat
  value : Nat
  high : Nat
  den : Nat
  /-- Whether the two ends belong to it. -/
  closed : Bool

namespace Interval

/-- Whether `n · 10 ^ k` lies in the interval. -/
def holds (i : Interval) (n : Nat) (k : Int) : Bool :=
  let (num, den) := scaleByTen n 1 k
  if i.closed then i.low * den ≤ num * i.den && num * i.den ≤ i.high * den
  else i.low * den < num * i.den && num * i.den < i.high * den

/-- The multiple of `10 ^ k` in the interval that is nearest to its value, if there is one: one of
the value's two neighbours, the upper one if both are equally near. -/
def nearest? (i : Interval) (k : Int) : Option Nat :=
  let (num, den) := scaleByTen i.value i.den (-k)
  let below := num / den
  let nearAbove := den ≤ 2 * (num % den)
  match i.holds below k, i.holds (below + 1) k with
  | true, true => some (if nearAbove then below + 1 else below)
  | true, false => some below
  | false, true => some (below + 1)
  | false, false => none

/-- Searches grids of `fuel` decreasing steps, from `10 ^ k` on. -/
def firstGrid (i : Interval) : Nat → Int → Nat × Int
  | 0, k => ((scaleByTen i.value i.den (-k)).1 / (scaleByTen i.value i.den (-k)).2, k)
  | fuel + 1, k => match i.nearest? k with
    | some n => (n, k)
    | none => i.firstGrid fuel (k - 1)

end Interval

/-- The reals that round to an encoded number: half a step to each side, and half of the smaller
step below a power of two. -/
def Format.interval (f : Format) (magnitude : Nat) : Interval :=
  let (m, e) := f.decode magnitude
  let narrow := m = 1 <<< (f.precision - 1) && f.minExponent < e
  let unit := if 0 ≤ e then 1 <<< e.toNat else 1
  let den := if 0 ≤ e then 1 else 1 <<< (-e).toNat
  { low := (4 * m - if narrow then 1 else 2) * unit
    value := 4 * m * unit
    high := (4 * m + 2) * unit
    den := 4 * den
    closed := m % 2 == 0 }

/-- The number of decimal digits of the whole part of `num / den`, or one less than the number of
zeros after the point with its sign changed: the value is below ten to that power. -/
def decimalExponent (num den : Nat) : Int :=
  if den ≤ num then (Nat.toDigits 10 (num / den)).length
  else 1 - (Nat.toDigits 10 (den / num)).length

/-- The fewest digits, as `n · 10 ^ k`, that read back as an encoded positive number. -/
def Format.shortest (f : Format) (magnitude : Nat) : Nat × Int :=
  let i := f.interval magnitude
  i.firstGrid 20 (decimalExponent i.value i.den)

/-- Drops zeros at the end of a number in favour of its exponent. -/
def dropZeros : Nat → Nat → Int → Nat × Int
  | 0, n, k => (n, k)
  | fuel + 1, n, k => if n ≠ 0 && n % 10 = 0 then dropZeros fuel (n / 10) (k + 1) else (n, k)

/-- `n · 10 ^ k` in positional notation. -/
def positional (n : Nat) (k : Int) : List Char :=
  let (n, k) := dropZeros (n.log2 + 1) n k
  let digits := Nat.toDigits 10 n
  if 0 ≤ k then digits ++ List.replicate k.toNat '0'
  else
    let places := (-k).toNat
    if places < digits.length then
      digits.take (digits.length - places) ++ '.' :: digits.drop (digits.length - places)
    else '0' :: '.' :: List.replicate (places - digits.length) '0' ++ digits

/-- The text of a number of the format. -/
def Datum.text (f : Format) : Datum → String
  | .nan => "NaN"
  | .number negative magnitude =>
    let body :=
      if f.infinity ≤ magnitude then ['i', 'n', 'f']
      else if magnitude = 0 then ['0']
      else
        let (n, k) := f.shortest magnitude
        positional n k
    String.ofList (if negative then '-' :: body else body)

end ItemStore.Numeral
