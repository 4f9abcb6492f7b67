/-!
# Number texts

The texts that read as a number: an optional sign, then `inf`, `infinity` or `nan` in any case,
or decimal digits with an optional point and exponent. A point needs a digit on one of its sides
only. A finite text keeps its exact value, its digits times a power of ten.
-/

namespace ItemStore.Numeral

/-- What a number text says, before any rounding. -/
inductive Literal where
  | nan
  | infinite (negative : Bool)
  /-- `digits · 10 ^ exponent`. -/
  | finite (negative : Bool) (digits : Nat) (exponent : Int)
  deriving DecidableEq, Repr

/-- The value of decimal digits, the first the most significant. -/
def ofDigits (cs : List Char) : Nat :=
  cs.foldl (fun n c => 10 * n + (c.toNat - 0x30)) 0

/-- An integer with an optional sign, digits to the end. -/
def readSigned? (cs : List Char) : Option Int :=
  let (negative, body) := match cs with
    | '-' :: r => (true, r)
    | '+' :: r => (false, r)
    | r => (false, r)
  if body.isEmpty || !body.all Char.isDigit then none
  else some (if negative then -(ofDigits body : Int) else ofDigits body)

/-- The exponent after the digits: nothing, or `e` and an integer. -/
def readExponent? : List Char → Option Int
  | [] => some 0
  | c :: r => if c = 'e' || c = 'E' then readSigned? r else none

/-- The part of a number text after its sign. -/
def Literal.readMagnitude? (negative : Bool) (cs : List Char) : Option Literal :=
  let word := cs.map Char.toLower
  if word = ['i', 'n', 'f'] || word = ['i', 'n', 'f', 'i', 'n', 'i', 't', 'y'] then
    some (.infinite negative)
  else if word = ['n', 'a', 'n'] then some .nan
  else
    let whole := cs.takeWhile Char.isDigit
    let (fraction, rest) := match cs.dropWhile Char.isDigit with
      | '.' :: r => (r.takeWhile Char.isDigit, r.dropWhile Char.isDigit)
      | r => ([], r)
    if whole.isEmpty && fraction.isEmpty then none
    else (readExponent? rest).map fun e =>
      .finite negative (ofDigits (whole ++ fraction)) (e - fraction.length)

/-- Reads a whole text as a number. -/
def Literal.read? : List Char → Option Literal
  | '-' :: r => readMagnitude? true r
  | '+' :: r => readMagnitude? false r
  | r => readMagnitude? false r

end ItemStore.Numeral
