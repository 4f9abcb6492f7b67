import ItemStore.Numeral.Literal
import ItemStore.Query.SyntaxError
import ItemStore.Text.Bytes
import ItemStore.Text.Letter

/-!
# Text to tokens

A query text is tokens with any blanks between them. A number gives up the plus sign and the
capital letter of its exponent, a text its quotes, where a quote written twice stands for itself.

A colon before a name starts a parameter, except after the name of a map entry, where it ends that
name: `{id::a}` is a name, a colon and a parameter. So the lexer knows how many maps are open
and which token came last.
-/

namespace ItemStore.Query

namespace Token

/-! ## One token -/

/-- The word of a name, or the keyword that it is in any case. -/
def ofWord (word : List Char) : Token :=
  match String.ofList (word.map Char.toLower) with
  | "and" => and
  | "or" => or
  | "null" => null
  | "true" => bool true
  | "false" => bool false
  | _ => name (String.ofList word)

/-- Reads the rest of a quoted text and its closing quote. -/
def readQuoted (quote : Char) : List Char → Option (List Char × List Char)
  | [] => none
  | [c] => if c = quote then some ([], []) else none
  | c :: d :: rest =>
    if c = quote then
      if d = quote then (readQuoted quote rest).map fun r => (quote :: r.1, r.2)
      else some ([], d :: rest)
    else (readQuoted quote (d :: rest)).map fun r => (c :: r.1, r.2)

/-- Reads the digits of a part of a number, one at least. -/
def readDigits (part : NumberPart) (cs : List Char) :
    Except SyntaxFault (List Char × List Char) :=
  if (cs.takeWhile Char.isDigit).isEmpty then .error (.missingDigits part)
  else .ok (cs.takeWhile Char.isDigit, cs.dropWhile Char.isDigit)

/-- Reads an optional point with digits after it. -/
def readFraction : List Char → Except SyntaxFault (List Char × List Char)
  | '.' :: rest => (readDigits .fraction rest).map fun r => ('.' :: r.1, r.2)
  | cs => .ok ([], cs)

/-- Reads an optional exponent. -/
def readExponent : List Char → Except SyntaxFault (List Char × List Char)
  | c :: rest =>
    if c = 'e' ∨ c = 'E' then
      match rest with
      | '-' :: rest => (readDigits .exponent rest).map fun r => ('e' :: '-' :: r.1, r.2)
      | '+' :: rest => (readDigits .exponent rest).map fun r => ('e' :: r.1, r.2)
      | rest => (readDigits .exponent rest).map fun r => ('e' :: r.1, r.2)
    else .ok ([], c :: rest)
  | [] => .ok ([], [])

/-- Reads a number without its sign. -/
def readMagnitude (cs : List Char) : Except SyntaxFault (List Char × List Char) := do
  let (whole, cs) ← readDigits .whole cs
  let (fraction, cs) ← readFraction cs
  let (exponent, cs) ← readExponent cs
  return (whole ++ fraction ++ exponent, cs)

/-- Reads the index of a parameter by place: from one on, below `2 ^ 64`. -/
def readIndex (cs : List Char) : Except SyntaxFault (Token × List Char) :=
  let index := Numeral.ofDigits (cs.takeWhile Char.isDigit)
  if 1 ≤ index ∧ index < 1 <<< 64 then .ok (positional index, cs.dropWhile Char.isDigit)
  else .error .badIndex

/-- Reads what comes after a colon: the name of a parameter, or nothing. -/
def readColon (afterName : Bool) : List Char → Token × List Char
  | c :: rest =>
    if !afterName && Text.isNameStart c then
      (named (String.ofList ((c :: rest).takeWhile Text.isNameChar)),
        (c :: rest).dropWhile Text.isNameChar)
    else (colon, c :: rest)
  | [] => (colon, [])

/-- Reads an operator that starts with `<` or `>`, after that. -/
def readOrder (strict loose : CompareOp) : List Char → Token × List Char
  | '=' :: rest => (op loose, rest)
  | cs => (op strict, cs)

/-- Reads the token that starts with `c`, which is no blank. `afterName` says that a colon would
end the name of a map entry. -/
def next (afterName : Bool) (c : Char) (rest : List Char) :
    Except SyntaxFault (Token × List Char) :=
  match c with
  | '(' => .ok (openGroup, rest)
  | ')' => .ok (closeGroup, rest)
  | '\x7b' => .ok (openMap, rest)
  | '\x7d' => .ok (closeMap, rest)
  | ',' => .ok (comma, rest)
  | '=' => .ok (op .eq, rest)
  | '!' => match rest with
    | '=' :: rest => .ok (op .ne, rest)
    | _ => .error .loneExclamation
  | '<' => match rest with
    | '>' :: rest => .ok (op .ne, rest)
    | rest => .ok (readOrder .lt .le rest)
  | '>' => .ok (readOrder .gt .ge rest)
  | '?' => readIndex rest
  | ':' => .ok (readColon afterName rest)
  | '-' => (readMagnitude rest).map fun r => (number (String.ofList ('-' :: r.1)), r.2)
  | c =>
    if c = '\'' ∨ c = '"' then
      match readQuoted c rest with
      | some (s, rest) => .ok (text (String.ofList s), rest)
      | none => .error .unterminatedText
    else if c.isDigit then
      (readMagnitude (c :: rest)).map fun r => (number (String.ofList r.1), r.2)
    else if Text.isNameStart c then
      .ok (ofWord (c :: rest.takeWhile Text.isNameChar), rest.dropWhile Text.isNameChar)
    else .error (.unexpectedCharacter c)

/-! ### What is read leaves less -/

/-- A quoted text takes at least its closing quote. -/
theorem length_readQuoted {quote : Char} {cs : List Char} {r : List Char × List Char}
    (h : readQuoted quote cs = some r) : r.2.length < cs.length := by
  fun_induction readQuoted quote cs generalizing r with
  | case1 => simp at h
  | case2 => obtain rfl := Option.some.inj h; simp
  | case3 => simp at h
  | case4 rest ih =>
    obtain ⟨q, hq, rfl⟩ := Option.map_eq_some_iff.1 h
    have := ih hq
    simp only [List.length_cons]
    omega
  | case5 => obtain rfl := Option.some.inj h; simp
  | case6 c d rest hc ih =>
    obtain ⟨q, hq, rfl⟩ := Option.map_eq_some_iff.1 h
    have := ih hq
    simp only [List.length_cons] at *
    omega

theorem map_eq_ok {ε α β : Type} {f : α → β} {x : Except ε α} {b : β}
    (h : x.map f = .ok b) : ∃ a, x = .ok a ∧ f a = b := by
  cases x with
  | error e => simp [Except.map] at h
  | ok a => exact ⟨a, rfl, by simpa [Except.map] using h⟩

/-- Digits are at least one character. -/
theorem length_readDigits {part : NumberPart} {cs : List Char} {r : List Char × List Char}
    (h : readDigits part cs = .ok r) : r.2.length < cs.length := by
  unfold readDigits at h
  split at h
  · simp at h
  · rename_i hne
    obtain rfl := Except.ok.inj h
    have := congrArg List.length (List.takeWhile_append_dropWhile (p := Char.isDigit) (l := cs))
    have : 0 < (cs.takeWhile Char.isDigit).length :=
      List.length_pos_iff.2 fun h => hne (by simp [h])
    simp only [List.length_append] at *
    omega

theorem length_readFraction {cs : List Char} {r : List Char × List Char}
    (h : readFraction cs = .ok r) : r.2.length ≤ cs.length := by
  unfold readFraction at h
  split at h
  · obtain ⟨q, hq, rfl⟩ := map_eq_ok h
    have := length_readDigits hq
    simp only [List.length_cons]
    omega
  · obtain rfl := Except.ok.inj h; simp

theorem length_readExponent {cs : List Char} {r : List Char × List Char}
    (h : readExponent cs = .ok r) : r.2.length ≤ cs.length := by
  unfold readExponent at h
  split at h
  · split at h
    · split at h <;>
      · obtain ⟨q, hq, rfl⟩ := map_eq_ok h
        have := length_readDigits hq
        simp only [List.length_cons] at *
        omega
    · obtain rfl := Except.ok.inj h; simp
  · obtain rfl := Except.ok.inj h; simp

theorem length_readMagnitude {cs : List Char} {r : List Char × List Char}
    (h : readMagnitude cs = .ok r) : r.2.length < cs.length := by
  unfold readMagnitude at h
  cases hw : readDigits .whole cs with
  | error e => simp [hw, bind, Except.bind] at h
  | ok w =>
    cases hf : readFraction w.2 with
    | error e => simp [hw, hf, bind, Except.bind] at h
    | ok f =>
      cases he : readExponent f.2 with
      | error e => simp [hw, hf, he, bind, Except.bind] at h
      | ok e =>
        simp only [hw, hf, he, bind, Except.bind, pure, Except.pure, Except.ok.injEq] at h
        obtain rfl := h
        have := length_readDigits hw
        have := length_readFraction hf
        have := length_readExponent he
        simp only
        omega

theorem length_readColon (afterName : Bool) (cs : List Char) :
    (readColon afterName cs).2.length ≤ cs.length := by
  unfold readColon
  split
  · split
    · exact (List.dropWhile_sublist _).length_le
    · exact Nat.le_refl _
  · exact Nat.le_refl _

theorem length_readOrder (strict loose : CompareOp) (cs : List Char) :
    (readOrder strict loose cs).2.length ≤ cs.length := by
  unfold readOrder
  split <;> simp

/-- A token that starts with a character takes nothing back of what comes after it. -/
theorem length_next {afterName : Bool} {c : Char} {rest : List Char} {r : Token × List Char}
    (h : next afterName c rest = .ok r) : r.2.length ≤ rest.length := by
  unfold next at h
  split at h
  all_goals try (obtain rfl := Except.ok.inj h; exact Nat.le_refl _)
  · split at h
    · obtain rfl := Except.ok.inj h; simp
    · simp at h
  · split at h
    · obtain rfl := Except.ok.inj h; simp
    · obtain rfl := Except.ok.inj h; exact length_readOrder _ _ _
  · obtain rfl := Except.ok.inj h; exact length_readOrder _ _ _
  · unfold readIndex at h
    simp only at h
    split at h
    · obtain rfl := Except.ok.inj h; exact (List.dropWhile_sublist _).length_le
    · simp at h
  · obtain rfl := Except.ok.inj h; exact length_readColon _ _
  · obtain ⟨q, hq, rfl⟩ := map_eq_ok h
    exact Nat.le_of_lt (length_readMagnitude hq)
  · split at h
    · split at h
      · rename_i hq
        obtain rfl := Except.ok.inj h
        exact Nat.le_of_lt (length_readQuoted hq)
      · simp at h
    · split at h
      · obtain ⟨q, hq, rfl⟩ := map_eq_ok h
        exact Nat.le_of_lt_succ (length_readMagnitude hq)
      · split at h
        · obtain rfl := Except.ok.inj h; exact (List.dropWhile_sublist _).length_le
        · simp at h

end Token

/-! ## All tokens -/

/-- The number of open maps after a token. A closing brace too many closes nothing. -/
def depthAfter (depth : Nat) : Token → Nat
  | .openMap => depth + 1
  | .closeMap => depth - 1
  | _ => depth

/-- Whether the last token is the name of a map entry. -/
def endsMapName (depth : Nat) (last : Option Token) : Bool :=
  0 < depth && last.any Token.isMapName

/-- The tokens of a text that starts at a byte, with `depth` maps open and `last` before it. -/
def lexFrom (depth : Nat) (last : Option Token) (position : Nat) :
    List Char → Except SyntaxError (List Lexeme)
  | [] => .ok []
  | c :: rest =>
    if Text.isBlank c then lexFrom depth last (position + c.utf8Size) rest
    else match h : Token.next (endsMapName depth last) c rest with
      | .error fault => .error ⟨position, fault⟩
      | .ok (t, left) =>
        have : left.length ≤ rest.length := Token.length_next h
        let size := Text.byteLength ((c :: rest).take (rest.length + 1 - left.length))
        (lexFrom (depthAfter depth t) (some t) (position + size) left).map (⟨t, position⟩ :: ·)
termination_by cs => cs.length

/-- The tokens of a text. -/
def lex (text : String) : Except SyntaxError (List Lexeme) := lexFrom 0 none 0 text.toList

end ItemStore.Query
