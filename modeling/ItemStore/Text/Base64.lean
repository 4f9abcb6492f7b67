/-!
# Base64

Bytes as text of 64 symbols, three bytes to four symbols, the last group filled up with `=`.
Every byte string has one encoded text and no other is read: padding is required, and the bits of
the last symbol that no byte takes have to be zero. What is refused is refused with a reason that
says where.
-/

namespace ItemStore.Text.Base64

/-- Why a text is no encoding. -/
inductive Error where
  | symbol (byte : UInt8) (offset : Nat)
  | length (count : Nat)
  /-- The last symbol has bits that belong to no byte. -/
  | lastSymbol (byte : UInt8) (offset : Nat)
  | padding
  deriving DecidableEq, Repr

/-- What a user reads of a text that is not in this form. -/
def Error.message : Error → String
  | symbol b o => "Invalid symbol " ++ toString b.toNat ++ ", offset " ++ toString o ++ "."
  | length n => "Invalid input length: " ++ toString n
  | lastSymbol b o => "Invalid last symbol " ++ toString b.toNat ++ ", offset " ++ toString o ++ "."
  | padding => "Invalid padding"

/-! ## Symbols -/

/-- The symbol of a number below 64. -/
def symbol (n : Nat) : Char :=
  if n < 26 then Char.ofNat (0x41 + n)
  else if n < 52 then Char.ofNat (0x61 + (n - 26))
  else if n < 62 then Char.ofNat (0x30 + (n - 52))
  else if n = 62 then '+'
  else '/'

/-- The number of a symbol, by its ASCII byte. -/
def sextet? (b : UInt8) : Option Nat :=
  let n := b.toNat
  if 0x41 ≤ n && n ≤ 0x5A then some (n - 0x41)
  else if 0x61 ≤ n && n ≤ 0x7A then some (n - 0x61 + 26)
  else if 0x30 ≤ n && n ≤ 0x39 then some (n - 0x30 + 52)
  else if n = 0x2B then some 62
  else if n = 0x2F then some 63
  else none

/-- The byte of the padding character. -/
def pad : UInt8 := 0x3D

/-! ## Encoding -/

/-- The text of some bytes. -/
def encode : List UInt8 → List Char
  | [] => []
  | [a] =>
    let n := a.toNat * 16
    [symbol (n / 64), symbol (n % 64), '=', '=']
  | [a, b] =>
    let n := (a.toNat * 256 + b.toNat) * 4
    [symbol (n / 4096), symbol (n / 64 % 64), symbol (n % 64), '=']
  | a :: b :: c :: rest =>
    let n := (a.toNat * 256 + b.toNat) * 256 + c.toNat
    symbol (n / 262144) :: symbol (n / 4096 % 64) :: symbol (n / 64 % 64) :: symbol (n % 64) ::
      encode rest

/-! ## Decoding -/

/-- Reads symbols at the given offset. -/
def sextets (offset : Nat) : List UInt8 → Except Error (List Nat)
  | [] => .ok []
  | b :: rest =>
    match sextet? b with
    | none => .error (.symbol b offset)
    | some n => (sextets (offset + 1) rest).map (n :: ·)

/-- The bytes of one to four symbols, and the bits left over. -/
def groupBytes : List Nat → List UInt8 × Nat
  | [w, x] => let n := w * 64 + x; ([UInt8.ofNat (n / 16)], n % 16)
  | [w, x, y] =>
    let n := (w * 64 + x) * 64 + y
    ([UInt8.ofNat (n / 1024), UInt8.ofNat (n / 4 % 256)], n % 4)
  | [w, x, y, z] =>
    let n := ((w * 64 + x) * 64 + y) * 64 + z
    ([UInt8.ofNat (n / 65536), UInt8.ofNat (n / 256 % 256), UInt8.ofNat (n % 256)], 0)
  | _ => ([], 0)

/-- Decodes the last group: at most four characters, two symbols at least, then padding. -/
def decodeLast (offset : Nat) (group : List UInt8) : Except Error (List UInt8) :=
  let symbols := group.takeWhile (· != pad)
  let padding := group.drop symbols.length
  match sextets offset symbols with
  | .error e => .error e
  | .ok ns =>
    if !padding.isEmpty && symbols.length < 2 then .error (.symbol pad (offset + symbols.length))
    else if padding.any (· != pad) then .error (.symbol pad (offset + symbols.length))
    else if group.isEmpty then .ok []
    else if symbols.length < 2 then .error (.length (offset + symbols.length))
    else if group.length % 4 ≠ 0 then .error .padding
    else
      let (bytes, left) := groupBytes ns
      if left ≠ 0 then .error (.lastSymbol (symbols.getLastD 0) (offset + symbols.length - 1))
      else .ok bytes

/-- Decodes the groups from an offset on. Only the last one may have padding. -/
def decodeFrom (offset : Nat) : List UInt8 → Except Error (List UInt8)
  | a :: b :: c :: d :: e :: rest =>
    match sextets offset [a, b, c, d] with
    | .error e => .error e
    | .ok ns => (decodeFrom (offset + 4) (e :: rest)).map ((groupBytes ns).1 ++ ·)
  | group => decodeLast offset group

/-- The bytes that a text, given by its own bytes, encodes. A single character that is left over
and is no symbol is told before anything else. -/
def decode (text : List UInt8) : Except Error (List UInt8) :=
  match text.getLast? with
  | some b =>
    if text.length % 4 = 1 && b != pad && (sextet? b).isNone then
      .error (.symbol b (text.length - 1))
    else decodeFrom 0 text
  | none => .ok []

end ItemStore.Text.Base64
