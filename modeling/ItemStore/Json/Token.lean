/-!
# JSON tokens

JSON text as marks, words, strings and numbers. Blanks between them are the space, the tab and
the two line ends. A string is read with its escapes undone; a code point above U+FFFF may be
written as two escaped halves, and a half alone is refused.
-/

namespace ItemStore.Json

/-- The tokens of a JSON text. -/
inductive Token where
  | beginArray
  | endArray
  | beginObject
  | endObject
  | comma
  | colon
  | null
  | bool (b : Bool)
  | string (s : String)
  | number (digits : String)
  deriving DecidableEq, Repr

namespace Token

/-- The blanks of JSON: space, tab, and the two ends of a line. -/
def isBlank (c : Char) : Bool := c == ' ' || c == '\t' || c == '\n' || c == '\r'

/-! ## Strings -/

/-- The value of a hexadecimal digit. -/
def hexValue? (c : Char) : Option Nat :=
  if '0' ≤ c ∧ c ≤ '9' then some (c.toNat - 0x30)
  else if 'a' ≤ c ∧ c ≤ 'f' then some (c.toNat - 0x57)
  else if 'A' ≤ c ∧ c ≤ 'F' then some (c.toNat - 0x37)
  else none

/-- The number that four hexadecimal digits write. -/
def hexValue4? (a b c d : Char) : Option Nat := do
  let w ← hexValue? a
  let x ← hexValue? b
  let y ← hexValue? c
  let z ← hexValue? d
  return ((w * 16 + x) * 16 + y) * 16 + z

/-- The character of a short escape. -/
def shortEscape? (c : Char) : Option Char :=
  if c = '"' ∨ c = '\\' ∨ c = '/' then some c
  else if c = 'b' then some '\x08'
  else if c = 'f' then some '\x0c'
  else if c = 'n' then some '\n'
  else if c = 'r' then some '\r'
  else if c = 't' then some '\t'
  else none

/-- Puts a character before a string that has been read. -/
def consChar (c : Char) (r : List Char × List Char) : List Char × List Char := (c :: r.1, r.2)

/-- Reads the rest of a string, its closing quote included. -/
def readString : List Char → Option (List Char × List Char)
  | '"' :: rest => some ([], rest)
  | '\\' :: 'u' :: a :: b :: c :: d :: rest =>
    match hexValue4? a b c d with
    | none => none
    | some n =>
      if n < 0xD800 ∨ 0xDFFF < n then (readString rest).map (consChar (Char.ofNat n))
      else match rest with
        | '\\' :: 'u' :: a :: b :: c :: d :: rest =>
          match hexValue4? a b c d with
          | none => none
          | some m =>
            if n < 0xDC00 ∧ 0xDC00 ≤ m ∧ m ≤ 0xDFFF then
              (readString rest).map
                (consChar (Char.ofNat (0x10000 + (n - 0xD800) * 0x400 + (m - 0xDC00))))
            else none
        | _ => none
  | '\\' :: c :: rest =>
    match shortEscape? c with
    | some e => (readString rest).map (consChar e)
    | none => none
  | c :: rest => if c.toNat < 0x20 then none else (readString rest).map (consChar c)
  | [] => none

/-! ## Numbers -/

/-- Digits at the front, one at least. -/
def readDigits (cs : List Char) : Option (List Char × List Char) :=
  if (cs.takeWhile Char.isDigit).isEmpty then none
  else some (cs.takeWhile Char.isDigit, cs.dropWhile Char.isDigit)

/-- The whole part: a zero alone, or digits that start with another one. -/
def readWhole : List Char → Option (List Char × List Char)
  | '0' :: rest => some (['0'], rest)
  | cs => readDigits cs

/-- An optional point with digits. -/
def readFraction : List Char → Option (List Char × List Char)
  | '.' :: rest => (readDigits rest).map fun r => ('.' :: r.1, r.2)
  | cs => some ([], cs)

/-- An optional exponent. -/
def readExponent : List Char → Option (List Char × List Char)
  | c :: s :: rest =>
    if c = 'e' ∨ c = 'E' then
      if s = '+' ∨ s = '-' then (readDigits rest).map fun r => (c :: s :: r.1, r.2)
      else (readDigits (s :: rest)).map fun r => (c :: r.1, r.2)
    else some ([], c :: s :: rest)
  | [c] => if c = 'e' ∨ c = 'E' then none else some ([], [c])
  | [] => some ([], [])

/-- A number without its sign. -/
def readMagnitude (cs : List Char) : Option (List Char × List Char) := do
  let (whole, cs) ← readWhole cs
  let (fraction, cs) ← readFraction cs
  let (exponent, cs) ← readExponent cs
  return (whole ++ fraction ++ exponent, cs)

/-! ## Text to tokens -/

/-- One token at the front of a text that starts with no blank. -/
def next? : List Char → Option (Token × List Char)
  | '[' :: rest => some (beginArray, rest)
  | ']' :: rest => some (endArray, rest)
  | '\x7b' :: rest => some (beginObject, rest)
  | '\x7d' :: rest => some (endObject, rest)
  | ',' :: rest => some (comma, rest)
  | ':' :: rest => some (colon, rest)
  | 'n' :: 'u' :: 'l' :: 'l' :: rest => some (null, rest)
  | 't' :: 'r' :: 'u' :: 'e' :: rest => some (bool true, rest)
  | 'f' :: 'a' :: 'l' :: 's' :: 'e' :: rest => some (bool false, rest)
  | '"' :: rest => (readString rest).map fun r => (string (String.ofList r.1), r.2)
  | '-' :: rest => (readMagnitude rest).map fun r => (number (String.ofList ('-' :: r.1)), r.2)
  | cs => (readMagnitude cs).map fun r => (number (String.ofList r.1), r.2)

/-! ### What is read leaves less -/

/-- A string takes at least its closing quote. -/
theorem length_readString {cs : List Char} {r : List Char × List Char}
    (h : readString cs = some r) : r.2.length < cs.length := by
  fun_induction readString cs generalizing r <;>
    simp_all only [Option.map_eq_some_iff, Option.some.injEq, reduceCtorEq, consChar] <;>
    first
    | (subst h; simp)
    | (obtain ⟨q, hq, rfl⟩ := h; rename_i ih; have := ih hq; simp only [List.length_cons]; omega)

/-- Digits are at least one character. -/
theorem length_readDigits {cs : List Char} {r : List Char × List Char}
    (h : readDigits cs = some r) : r.2.length < cs.length := by
  unfold readDigits at h
  split at h
  · simp at h
  · rename_i hne
    obtain rfl := Option.some.inj h
    have := congrArg List.length (List.takeWhile_append_dropWhile (p := Char.isDigit) (l := cs))
    have : 0 < (cs.takeWhile Char.isDigit).length :=
      List.length_pos_iff.2 fun h => hne (by simp [h])
    simp only [List.length_append] at *
    omega

theorem length_readWhole {cs : List Char} {r : List Char × List Char}
    (h : readWhole cs = some r) : r.2.length < cs.length := by
  unfold readWhole at h
  split at h
  · obtain rfl := Option.some.inj h; simp
  · exact length_readDigits h

theorem length_readFraction {cs : List Char} {r : List Char × List Char}
    (h : readFraction cs = some r) : r.2.length ≤ cs.length := by
  unfold readFraction at h
  split at h
  · obtain ⟨q, hq, rfl⟩ := Option.map_eq_some_iff.1 h
    have := length_readDigits hq
    simp only [List.length_cons]
    omega
  · obtain rfl := Option.some.inj h; simp

theorem length_readExponent {cs : List Char} {r : List Char × List Char}
    (h : readExponent cs = some r) : r.2.length ≤ cs.length := by
  unfold readExponent at h
  split at h
  · split at h
    · split at h
      · obtain ⟨q, hq, rfl⟩ := Option.map_eq_some_iff.1 h
        have := length_readDigits hq
        simp only [List.length_cons]
        omega
      · obtain ⟨q, hq, rfl⟩ := Option.map_eq_some_iff.1 h
        have := length_readDigits hq
        simp only [List.length_cons] at *
        omega
    · obtain rfl := Option.some.inj h; simp
  · split at h
    · simp at h
    · obtain rfl := Option.some.inj h; simp
  · obtain rfl := Option.some.inj h; simp

theorem length_readMagnitude {cs : List Char} {r : List Char × List Char}
    (h : readMagnitude cs = some r) : r.2.length < cs.length := by
  simp only [readMagnitude, Option.bind_eq_bind, Option.bind_eq_some_iff, Option.pure_def,
    Option.some.injEq] at h
  obtain ⟨w, hw, f, hf, e, he, rfl⟩ := h
  have := length_readWhole hw
  have := length_readFraction hf
  have := length_readExponent he
  simp only
  omega

/-- A token takes at least one character. -/
theorem length_next? {cs : List Char} {r : Token × List Char} (h : next? cs = some r) :
    r.2.length < cs.length := by
  unfold next? at h
  split at h <;>
    simp only [Option.map_eq_some_iff, Option.some.injEq] at h
  all_goals first
    | (subst h; simp only [List.length_cons]; omega)
    | (obtain ⟨q, hq, rfl⟩ := h; have := length_readString hq; simp only [List.length_cons]; omega)
    | (obtain ⟨q, hq, rfl⟩ := h; have := length_readMagnitude hq;
       simp only [List.length_cons] at *; omega)

/-- The tokens of a text, if it is made of tokens and blanks. -/
def ofChars? : List Char → Option (List Token)
  | [] => some []
  | c :: rest =>
    if isBlank c then ofChars? rest
    else match h : next? (c :: rest) with
      | none => none
      | some (t, left) =>
        have : left.length ≤ rest.length := Nat.le_of_lt_succ (length_next? h)
        (ofChars? left).map (t :: ·)
termination_by cs => cs.length

end Token

end ItemStore.Json
