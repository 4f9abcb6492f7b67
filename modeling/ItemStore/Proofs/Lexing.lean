import ItemStore.Query.Lexer

/-!
# Texts that are read as tokens

`Lexes` says which tokens the characters of a text are, with no map open before them. `Spells` says
it of a part of a text: whatever comes after the part, if it does not go on with its last word, is
read as if it stood alone. Parts can be put together with blanks and parentheses (`Spells.space`,
`Spells.group`), and the words of the language spell their tokens: names (`Spells.name`), keywords,
operators, parameters (`Spells.positional`, `Spells.named`), texts (`Spells.quoted`) and numbers
(`Spells.number`).
-/

namespace ItemStore

namespace Text

/-! ## Classes of characters -/

/-- A character in one of two disjoint classes is not in the other. -/
theorem inRanges_eq_false {rs bs : List (Nat × Nat)} {c : Char}
    (hdisjoint : (rs.all fun r => bs.all fun b => r.2 < b.1 || b.2 < r.1) = true)
    (h : inRanges rs c = true) : inRanges bs c = false := by
  obtain ⟨r, hr, hcr⟩ := List.any_eq_true.1 h
  rw [inRanges, List.any_eq_false]
  intro b hb
  have hrb := List.all_eq_true.1 (List.all_eq_true.1 hdisjoint r hr) b hb
  simp only [Bool.or_eq_true, Bool.and_eq_true, decide_eq_true_eq] at hrb hcr ⊢
  omega

theorem toNat_of_isDigit {c : Char} (h : c.isDigit = true) : 48 ≤ c.toNat ∧ c.toNat ≤ 57 := by
  simpa [Char.isDigit, UInt32.le_iff_toNat_le] using h

theorem toNat_of_isAlpha {c : Char} (h : c.isAlpha = true) :
    (65 ≤ c.toNat ∧ c.toNat ≤ 90) ∨ (97 ≤ c.toNat ∧ c.toNat ≤ 122) := by
  obtain hupper | hlower := (Bool.or_eq_true c.isUpper c.isLower).mp h
  · exact .inl (of_decide_eq_true hupper : 'A'.val ≤ c.val ∧ c.val ≤ 'Z'.val)
  · obtain ⟨ha, hz⟩ := (Bool.and_eq_true _ _).mp hlower
    exact .inr ⟨of_decide_eq_true ha, of_decide_eq_true hz⟩

theorem isBlank_of_isDigit {c : Char} (h : c.isDigit = true) : isBlank c = false := by
  have hrange : inRanges [(48, 57)] c = true := by
    simpa [inRanges] using toNat_of_isDigit h
  exact inRanges_eq_false (by decide) hrange

/-- No letter of any script is a blank. -/
theorem isBlank_of_isNameStart {c : Char} (h : isNameStart c = true) : isBlank c = false := by
  rw [isNameStart, Bool.or_eq_true, isLetter] at h
  split at h
  · have hrange : inRanges [(65, 90), (97, 122), (95, 95)] c = true := by
      obtain halpha | hunderscore := h
      · have := toNat_of_isAlpha halpha
        simp [inRanges]
        omega
      · obtain rfl := eq_of_beq hunderscore
        decide
    exact inRanges_eq_false (by decide) hrange
  · obtain hletter | hunderscore := h
    · exact inRanges_eq_false (by decide +kernel) hletter
    · obtain rfl := eq_of_beq hunderscore
      decide

theorem isDigit_of_isNameStart {c : Char} (h : isNameStart c = true) : c.isDigit = false := by
  refine Bool.eq_false_iff.2 fun hdigit => ?_
  have hrange := toNat_of_isDigit hdigit
  rw [isNameStart, Bool.or_eq_true, isLetter, if_pos (by omega)] at h
  obtain halpha | hunderscore := h
  · have := toNat_of_isAlpha halpha
    omega
  · obtain rfl := eq_of_beq hunderscore
    exact absurd hrange (by decide)

theorem isNameChar_of_isNameStart {c : Char} (h : isNameStart c = true) : isNameChar c = true := by
  rw [isNameStart, Bool.or_eq_true] at h
  obtain hletter | hunderscore := h <;> simp [isNameChar, *]

end Text

namespace Query

/-! ## Words at their end -/

/-- The characters do not go on with any that pass a test. -/
def Stops (p : Char → Bool) (rest : List Char) : Prop := ∀ c ∈ rest.head?, p c = false

/-- A word that stands here is over: the text ends, or there is a blank or a closing parenthesis. -/
def Ends (rest : List Char) : Prop := ∀ c ∈ rest.head?, c = ' ' ∨ c = ')'

theorem ends_nil : Ends [] := nofun

theorem ends_cons {c : Char} (rest : List Char) (h : c = ' ' ∨ c = ')') : Ends (c :: rest) := by
  intro d hd
  obtain rfl := Option.some.inj hd
  exact h

/-- A text that has to end there stops whatever takes neither a blank nor a parenthesis. -/
theorem Ends.stops {rest : List Char} (h : Ends rest) {p : Char → Bool} (hblank : p ' ' = false)
    (hclose : p ')' = false) : Stops p rest := by
  intro c hc
  obtain rfl | rfl := h c hc
  · exact hblank
  · exact hclose

section Stops

variable {p : Char → Bool} {cs rest : List Char}

/-- What is taken is all that comes before the stop. -/
theorem Stops.takeWhile (h : Stops p rest) (hcs : ∀ c ∈ cs, p c = true) :
    (cs ++ rest).takeWhile p = cs := by
  rw [List.takeWhile_append_of_pos hcs]
  cases rest with
  | nil => simp
  | cons c rest => simp [h c rfl]

/-- What is left starts at the stop. -/
theorem Stops.dropWhile (h : Stops p rest) (hcs : ∀ c ∈ cs, p c = true) :
    (cs ++ rest).dropWhile p = rest := by
  rw [List.dropWhile_append_of_pos hcs]
  cases rest with
  | nil => simp
  | cons c rest => simp [h c rfl]

end Stops

/-! ## Forms of words -/

/-- A letter or an underscore, and letters, number characters and underscores after it. -/
def IsName (s : String) : Prop :=
  ∃ c cs, s.toList = c :: cs ∧ Text.isNameStart c = true ∧ ∀ d ∈ cs, Text.isNameChar d = true

theorem IsName.of_toList {s : String} {c : Char} {cs : List Char} (h : s.toList = c :: cs)
    (hc : Text.isNameStart c = true) (hcs : cs.all Text.isNameChar = true) : IsName s :=
  ⟨c, cs, h, hc, List.all_eq_true.1 hcs⟩

/-- The words that are no names, in any case. -/
def IsKeyword (s : String) : Prop :=
  String.ofList (s.toList.map Char.toLower) ∈ ["and", "or", "null", "true", "false"]

instance (s : String) : Decidable (IsKeyword s) := inferInstanceAs (Decidable (_ ∈ _))

/-- Digits, one at least: `d+`. -/
def IsDigits (cs : List Char) : Prop := cs ≠ [] ∧ ∀ c ∈ cs, c.isDigit = true

instance (cs : List Char) : Decidable (IsDigits cs) :=
  decidable_of_decidable_of_iff (and_congr_right fun _ => List.all_eq_true)

theorem IsDigits.isDigit_head {ds rest cs : List Char} {c : Char} (h : IsDigits ds)
    (heq : ds ++ rest = c :: cs) : c.isDigit = true := by
  cases ds with
  | nil => exact absurd rfl h.1
  | cons d ds =>
    obtain ⟨rfl, -⟩ := List.cons.inj heq
    exact h.2 d (.head _)

/-- Digits after a point, or nothing: `(.d+)?`. -/
inductive IsFraction : List Char → Prop where
  | none : IsFraction []
  | point {cs : List Char} (digits : IsDigits cs) : IsFraction ('.' :: cs)

/-- An exponent, or nothing: `(e-?d+)?`. -/
inductive IsExponent : List Char → Prop where
  | none : IsExponent []
  | positive {cs : List Char} (digits : IsDigits cs) : IsExponent ('e' :: cs)
  | negative {cs : List Char} (digits : IsDigits cs) : IsExponent ('e' :: '-' :: cs)

/-- A number without its sign: `d+(.d+)?(e-?d+)?`. -/
inductive IsMagnitude : List Char → Prop where
  | intro {ds fs es : List Char} (whole : IsDigits ds) (fraction : IsFraction fs)
    (exponent : IsExponent es) : IsMagnitude (ds ++ fs ++ es)

theorem IsMagnitude.exists_digit {cs : List Char} (h : IsMagnitude cs) :
    ∃ c ds, cs = c :: ds ∧ c.isDigit = true := by
  obtain @⟨_ | ⟨c, ds⟩, fs, es, whole, -, -⟩ := h
  · exact absurd rfl whole.1
  · exact ⟨c, ds ++ fs ++ es, rfl, whole.2 c (.head _)⟩

/-- A number as the lexer keeps it: `-?d+(.d+)?(e-?d+)?`. -/
inductive IsNumber : List Char → Prop where
  | positive {cs : List Char} (magnitude : IsMagnitude cs) : IsNumber cs
  | negative {cs : List Char} (magnitude : IsMagnitude cs) : IsNumber ('-' :: cs)

/-! ## Reading a word -/

namespace Token

variable {rest : List Char}

/-- A letter starts a word. -/
theorem next_of_isNameStart (afterName : Bool) {c : Char} (h : Text.isNameStart c = true)
    (rest : List Char) : next afterName c rest =
      .ok (ofWord (c :: rest.takeWhile Text.isNameChar), rest.dropWhile Text.isNameChar) := by
  have hquote : ¬(c = '\'' ∨ c = '"') := by
    rintro (rfl | rfl) <;> exact absurd h (by decide)
  unfold next
  split
  case h_13 => simp [hquote, Text.isDigit_of_isNameStart h, h]
  all_goals exact absurd h (by decide)

/-- A digit starts a number. -/
theorem next_of_isDigit (afterName : Bool) {c : Char} (h : c.isDigit = true) (rest : List Char) :
    next afterName c rest =
      (readMagnitude (c :: rest)).map fun r => (number (String.ofList r.1), r.2) := by
  have hquote : ¬(c = '\'' ∨ c = '"') := by
    rintro (rfl | rfl) <;> exact absurd h (by decide)
  unfold next
  split
  case h_13 => simp [hquote, h]
  all_goals exact absurd h (by decide)

theorem ofWord_ne_openMap (word : List Char) : ofWord word ≠ openMap := by
  unfold ofWord
  split <;> nofun

/-- A word that is no keyword is a name. -/
theorem ofWord_of_not_isKeyword {s : String} (h : ¬IsKeyword s) : ofWord s.toList = name s := by
  rw [IsKeyword] at h
  unfold ofWord
  split
  case h_6 => rw [String.ofList_toList]
  all_goals
    rename_i heq
    rw [heq] at h
    exact absurd (by decide) h

theorem readDigits_append (part : NumberPart) {ds : List Char} (h : IsDigits ds)
    (hrest : Stops Char.isDigit rest) : readDigits part (ds ++ rest) = .ok (ds, rest) := by
  rw [readDigits, hrest.takeWhile h.2, hrest.dropWhile h.2, if_neg (by simp [h.1])]

theorem readFraction_append {fraction : List Char} (h : IsFraction fraction)
    (hrest : Stops (fun c => c.isDigit || c == '.') rest) :
    readFraction (fraction ++ rest) = .ok (fraction, rest) := by
  cases h with
  | none =>
    rw [List.nil_append]
    unfold readFraction
    split
    · exact absurd (hrest '.' rfl) (by decide)
    · rfl
  | point digits =>
    have hdigits : Stops Char.isDigit rest := fun c hc => (Bool.or_eq_false_iff.1 (hrest c hc)).1
    rw [List.cons_append, readFraction, readDigits_append .fraction digits hdigits]
    rfl

theorem readExponent_append {exponent : List Char} (h : IsExponent exponent)
    (hrest : Ends rest) : readExponent (exponent ++ rest) = .ok (exponent, rest) := by
  have hstops : Stops Char.isDigit rest := hrest.stops (by decide) (by decide)
  cases h with
  | none =>
    cases rest with
    | nil => rfl
    | cons c rest => obtain rfl | rfl := hrest c rfl <;> rfl
  | @positive ds digits =>
    have hread := readDigits_append .exponent digits hstops
    rw [List.cons_append, readExponent, if_pos (.inl rfl), hread]
    · rfl
    · exact fun _ heq => absurd (digits.isDigit_head heq) (by decide)
    · exact fun _ heq => absurd (digits.isDigit_head heq) (by decide)
  | negative digits =>
    have hread := readDigits_append .exponent digits hstops
    rw [List.cons_append, List.cons_append, readExponent, if_pos (.inl rfl)]
    simp only [hread]
    rfl

/-- An exponent does not go on with what is before it. -/
theorem stops_exponent {exponent : List Char} (h : IsExponent exponent) (hrest : Ends rest) :
    Stops (fun c => c.isDigit || c == '.') (exponent ++ rest) := by
  cases h with
  | none => exact hrest.stops (by decide) (by decide)
  | positive | negative =>
    intro c hc
    obtain rfl := Option.some.inj hc
    decide

/-- A number is read up to where it has to end. -/
theorem readMagnitude_append {cs : List Char} (h : IsMagnitude cs) (hrest : Ends rest) :
    readMagnitude (cs ++ rest) = .ok (cs, rest) := by
  obtain @⟨ds, fs, es, whole, fraction, exponent⟩ := h
  have hexponent := stops_exponent exponent hrest
  have hwhole : Stops Char.isDigit (fs ++ (es ++ rest)) := by
    cases fraction with
    | none => exact fun c hc => (Bool.or_eq_false_iff.1 (hexponent c hc)).1
    | point =>
      intro c hc
      obtain rfl := Option.some.inj hc
      decide
  rw [List.append_assoc, List.append_assoc, readMagnitude, readDigits_append .whole whole hwhole]
  simp only [bind, Except.bind, pure, Except.pure, readFraction_append fraction hexponent,
    readExponent_append exponent hrest]

/-- An index is read up to where it has to end. -/
theorem readIndex_append {i : Nat} (h : 1 ≤ i ∧ i < 1 <<< 64) (hrest : Ends rest) :
    readIndex ((toString i).toList ++ rest) = .ok (positional i, rest) := by
  have hdigits : ∀ c ∈ Nat.toDigits 10 i, c.isDigit = true := fun c hc =>
    Nat.isDigit_of_mem_toDigits (by decide) (by decide) hc
  have hstops : Stops Char.isDigit rest := hrest.stops (by decide) (by decide)
  have hvalue : Numeral.ofDigits (Nat.toDigits 10 i) = i := Nat.ofDigitChars_ten_toDigits
  rw [Nat.toString_eq_ofList_toDigits, String.toList_ofList, readIndex, hstops.takeWhile hdigits,
    hstops.dropWhile hdigits, hvalue, if_pos (by simpa using h)]

/-- The name of a parameter is read up to where it has to end. -/
theorem readColon_append {name : List Char} {c : Char} (hc : Text.isNameStart c = true)
    (h : ∀ d ∈ name, Text.isNameChar d = true) (hrest : Ends rest) :
    readColon false (c :: name ++ rest) = (named (String.ofList (c :: name)), rest) := by
  have hall : ∀ d ∈ c :: name, Text.isNameChar d = true :=
    List.forall_mem_cons.2 ⟨Text.isNameChar_of_isNameStart hc, h⟩
  have hstops : Stops Text.isNameChar rest := hrest.stops (by decide) (by decide)
  rw [List.cons_append, readColon, if_pos (by simp [hc]), ← List.cons_append,
    hstops.takeWhile hall, hstops.dropWhile hall]

/-- Characters before the closing quote that are no quotes are those of the text. -/
theorem readQuoted_append {quote : Char} {cs : List Char} (h : quote ∉ cs)
    (hrest : Stops (fun c => c == quote) rest) :
    readQuoted quote (cs ++ quote :: rest) = some (cs, rest) := by
  induction cs with
  | nil =>
    cases rest with
    | nil => simp [readQuoted]
    | cons d rest =>
      have hd : d ≠ quote := by simpa using hrest d rfl
      simp [readQuoted, hd]
  | cons c cs ih =>
    rw [List.mem_cons, not_or] at h
    have hcons : readQuoted quote (c :: (cs ++ quote :: rest)) =
        (readQuoted quote (cs ++ quote :: rest)).map fun r => (c :: r.1, r.2) := by
      cases cs <;> simp [readQuoted, Ne.symm h.1]
    rw [List.cons_append, hcons, ih h.2]
    rfl

end Token

/-! ## Texts -/

/-- The tokens that characters are read as when no map is open before them. -/
def Lexes (cs : List Char) (ts : List Token) : Prop :=
  ∀ last position,
    ∃ lexemes, lexFrom 0 last position cs = .ok lexemes ∧ lexemes.map Lexeme.token = ts

namespace Lexes

variable {c : Char} {cs left : List Char} {t : Token} {ts : List Token}

theorem nil : Lexes [] [] := fun _ _ => ⟨[], by rw [lexFrom], rfl⟩

theorem blank (hc : Text.isBlank c = true) (rest : Lexes cs ts) : Lexes (c :: cs) ts := by
  intro last position
  rw [lexFrom, if_pos hc]
  exact rest last _

theorem token (hc : Text.isBlank c = false) (ht : t ≠ .openMap)
    (next : Token.next false c cs = .ok (t, left)) (rest : Lexes left ts) :
    Lexes (c :: cs) (t :: ts) := by
  intro last position
  have hdepth : depthAfter 0 t = 0 := by
    cases t <;> first | rfl | exact absurd rfl ht
  obtain ⟨lexemes, hlexemes, htokens⟩ := rest (some t)
    (position + Text.byteLength ((c :: cs).take (cs.length + 1 - left.length)))
  refine ⟨⟨t, position⟩ :: lexemes, ?_, by rw [List.map_cons, htokens]⟩
  rw [lexFrom, if_neg (by simp [hc])]
  split
  · rename_i heq
    cases next.symm.trans heq
  · rename_i heq
    obtain ⟨rfl, rfl⟩ := Prod.mk.inj (Except.ok.inj (next.symm.trans heq))
    simp only [hdepth, hlexemes]
    rfl

end Lexes

/-- A text that is read as some tokens wherever it stands. -/
def Spells (text : String) (ts : List Token) : Prop :=
  ∀ rest us, Ends rest → Lexes rest us → Lexes (text.toList ++ rest) (ts ++ us)

namespace Spells

variable {a b : String} {ts us : List Token}

/-- A text that spells tokens is read as them. -/
theorem lex (h : Spells a ts) : ∃ lexemes, lex a = .ok lexemes ∧ lexemes.map Lexeme.token = ts := by
  have hlexes := h [] [] ends_nil .nil
  rw [List.append_nil, List.append_nil] at hlexes
  exact hlexes none 0

/-! ### Texts that are put together -/

/-- A blank between two texts keeps their tokens apart. -/
theorem space (ha : Spells a ts) (hb : Spells b us) : Spells (a ++ " " ++ b) (ts ++ us) := by
  intro rest vs hrest hlexes
  have hchars : (a ++ " " ++ b).toList ++ rest = a.toList ++ ' ' :: (b.toList ++ rest) := by
    simp
  rw [hchars, List.append_assoc]
  exact ha _ _ (ends_cons _ (.inl rfl)) (.blank (by decide) (hb rest vs hrest hlexes))

/-- Parentheses around a text are tokens around its tokens. -/
theorem group (h : Spells a ts) :
    Spells ("(" ++ a ++ ")") (.openGroup :: (ts ++ [.closeGroup])) := by
  intro rest vs hrest hlexes
  have hchars : ("(" ++ a ++ ")").toList ++ rest = '(' :: (a.toList ++ ')' :: rest) := by
    simp
  rw [hchars, List.cons_append, List.append_assoc]
  have hclose : Lexes (')' :: rest) (.closeGroup :: vs) := .token (by decide) (by decide) rfl hlexes
  exact .token (by decide) (by decide) rfl (h _ _ (ends_cons _ (.inr rfl)) hclose)

/-- A word between blanks joins a text to those after it. -/
theorem intercalate {sep between : String} {t : Token} {texts : List String}
    (hbetween : between = " " ++ sep ++ " ") (ha : Spells a ts) (hsep : Spells sep [t])
    (hb : Spells (between.intercalate (b :: texts)) us) :
    Spells (between.intercalate (a :: b :: texts)) (ts ++ t :: us) := by
  have htext : between.intercalate (a :: b :: texts) =
      a ++ " " ++ sep ++ " " ++ between.intercalate (b :: texts) := by
    rw [String.intercalate_cons_cons, hbetween]
    simp only [String.append_assoc]
  have hspells := (ha.space hsep).space hb
  rwa [List.append_assoc, ← htext] at hspells

/-! ### Words -/

/-- A word that is read as one token, up to where it has to end, spells it. -/
theorem of_next {c : Char} {cs : List Char} {t : Token} (ha : a.toList = c :: cs)
    (hc : Text.isBlank c = false) (ht : t ≠ .openMap)
    (hnext : ∀ rest, Ends rest → Token.next false c (cs ++ rest) = .ok (t, rest)) :
    Spells a [t] := by
  intro rest us hrest hlexes
  rw [ha]
  exact .token hc ht (hnext rest hrest) hlexes

/-- A word is the keyword that it is in any case, or a name. -/
theorem word {s : String} (h : IsName s) : Spells s [Token.ofWord s.toList] := by
  obtain ⟨c, cs, hs, hc, hcs⟩ := h
  have hword := Token.ofWord_ne_openMap s.toList
  refine of_next hs (Text.isBlank_of_isNameStart hc) hword fun rest hrest => ?_
  have hstops : Stops Text.isNameChar rest := hrest.stops (by decide) (by decide)
  rw [Token.next_of_isNameStart _ hc, hstops.takeWhile hcs, hstops.dropWhile hcs, hs]

theorem name {s : String} (h : IsName s) (hkeyword : ¬IsKeyword s) : Spells s [.name s] := by
  rw [← Token.ofWord_of_not_isKeyword hkeyword]
  exact word h

theorem keyword {s : String} {t : Token} (h : IsName s) (ht : Token.ofWord s.toList = t) :
    Spells s [t] :=
  ht ▸ word h

theorem and : Spells "AND" [.and] :=
  keyword (.of_toList rfl (by decide) (by decide)) rfl

theorem or : Spells "OR" [.or] :=
  keyword (.of_toList rfl (by decide) (by decide)) rfl

/-- The symbol of an operator spells it. -/
theorem symbol (op : CompareOp) : Spells op.symbol [.op op] := by
  cases op
  case lt | gt =>
    refine of_next rfl (by decide) nofun fun rest hrest => ?_
    cases rest with
    | nil => rfl
    | cons c rest => obtain rfl | rfl := hrest c rfl <;> rfl
  all_goals exact of_next rfl (by decide) nofun fun rest _ => rfl

/-- A placeholder by place spells itself, if its index is one. -/
theorem positional {i : Nat} (h : 1 ≤ i ∧ i < 1 <<< 64) :
    Spells (Placeholder.positional i).display [.positional i] := by
  have hchars : (Placeholder.positional i).display.toList = '?' :: (toString i).toList := by
    simp [Placeholder.display]
  exact of_next hchars (by decide) nofun fun rest hrest => Token.readIndex_append h hrest

/-- A placeholder by name spells itself. -/
theorem named {s : String} (h : IsName s) : Spells (Placeholder.named s).display [.named s] := by
  obtain ⟨c, cs, hs, hc, hcs⟩ := h
  have hchars : (Placeholder.named s).display.toList = ':' :: (c :: cs) := by
    simp [Placeholder.display, hs]
  have hname : String.ofList (c :: cs) = s := by
    rw [← hs, String.ofList_toList]
  refine of_next hchars (by decide) nofun fun rest hrest => ?_
  rw [← hname, ← Token.readColon_append hc hcs hrest]
  rfl

/-- A text value without quotes in it spells itself. -/
theorem quoted {s : String} (h : '\'' ∉ s.toList) : Spells (Value.text s).display [.text s] := by
  have hchars : (Value.text s).display.toList = '\'' :: (s.toList ++ ['\'']) := by
    simp [Value.display]
  refine of_next hchars (by decide) nofun fun rest hrest => ?_
  have hread := Token.readQuoted_append h (hrest.stops (p := fun c => c == '\'') rfl rfl)
  simp [Token.next, hread]

/-- A number in its plain notation spells itself. -/
theorem number {s : String} (h : IsNumber s.toList) : Spells s [.number s] := by
  generalize hs : s.toList = cs at h
  have hnumber : String.ofList cs = s := by
    rw [← hs, String.ofList_toList]
  cases h with
  | positive magnitude =>
    obtain ⟨c, ds, rfl, hc⟩ := magnitude.exists_digit
    refine of_next hs (Text.isBlank_of_isDigit hc) nofun fun rest hrest => ?_
    have hread := Token.readMagnitude_append magnitude hrest
    rw [Token.next_of_isDigit _ hc, ← List.cons_append, hread, ← hnumber]
    rfl
  | negative magnitude =>
    refine of_next hs (by decide) nofun fun rest hrest => ?_
    rw [← hnumber]
    simp [Token.next, Token.readMagnitude_append magnitude hrest, Except.map]

end Spells

end Query

end ItemStore
