import ItemStore.Proofs.NumberTexts

/-!
# What the words of a query mean

A token is what a word of the text means (`Means`): a sign stands for itself, a keyword is written
in any case, the name of a field or of a parameter is the word itself, a parameter by place has the
decimal value of its digits, from one on and below `2 ^ 64`, a text between quotes has each quote in
it written twice, and a number keeps its value when it is brought into the one form that tokens
have. Main statement: what the lexer reads is a word and its meaning (`means_of_next`).
-/

namespace ItemStore

namespace Query

open Numeral

/-! ## Meanings -/

/-- The tokens of the words that are no names. -/
def keywords : List (String × Token) :=
  [("and", .and), ("or", .or), ("null", .null), ("true", .bool true), ("false", .bool false)]

/-- Characters with every quote of a kind written twice. -/
def doubled (quote : Char) (cs : List Char) : List Char :=
  cs.flatMap fun c => if c = quote then [c, c] else [c]

/-- What the characters of a word mean. -/
inductive Means : List Char → Token → Prop where
  | openGroup : Means ['('] .openGroup
  | closeGroup : Means [')'] .closeGroup
  | openMap : Means ['\x7b'] .openMap
  | closeMap : Means ['\x7d'] .closeMap
  | comma : Means [','] .comma
  | colon : Means [':'] .colon
  | symbol (o : CompareOp) : Means o.symbol.toList (.op o)
  | unequal : Means ['!', '='] (.op .ne)
  | keyword {word : String} {t : Token}
    (h : (String.ofList (word.toList.map Char.toLower), t) ∈ keywords) : Means word.toList t
  | name {s : String} (h : IsName s) (hkeyword : ¬IsKeyword s) : Means s.toList (.name s)
  | named {s : String} (h : IsName s) : Means (':' :: s.toList) (.named s)
  | positional {ds : List Char} (digits : IsDigits ds) (hlow : 1 ≤ ofDigits ds)
    (hhigh : ofDigits ds < 1 <<< 64) : Means ('?' :: ds) (.positional (ofDigits ds))
  | text {quote : Char} (hquote : quote = '\'' ∨ quote = '"') (s : String) :
    Means (quote :: (doubled quote s.toList ++ [quote])) (.text s)
  | number {word : List Char} {s : String} (form : IsNumber s.toList) {negative : Bool} {n : Nat}
    {e : Int} (hword : Says word (.finite negative n e))
    (hs : Says s.toList (.finite negative n e)) : Means word (.number s)

/-! ## Numbers -/

theorem isDigits_takeWhile {cs : List Char} (h : cs.takeWhile Char.isDigit ≠ []) :
    IsDigits (cs.takeWhile Char.isDigit) :=
  ⟨h, fun _ => List.mem_takeWhile_imp⟩

/-- Digits and a fraction are a mantissa. -/
theorem IsFraction.exists_mantissa {ws fs : List Char} (whole : IsDigits ws) (h : IsFraction fs) :
    ∃ ds places, IsMantissa ds places (ws ++ fs) := by
  cases h with
  | none =>
    rw [List.append_nil]
    exact ⟨ws, 0, .whole whole⟩
  | @point cs digits =>
    have hall : IsDigits (ws ++ cs) :=
      ⟨fun h => whole.1 (List.append_eq_nil_iff.1 h).1,
        List.forall_mem_append.2 ⟨whole.2, digits.2⟩⟩
    exact ⟨ws ++ cs, cs.length, .point hall⟩

namespace Token

variable {cs : List Char} {r : List Char × List Char}

/-- What is read are digits, and the rest is what comes after them. -/
theorem readDigits_spec {part : NumberPart} (h : readDigits part cs = .ok r) :
    cs = r.1 ++ r.2 ∧ IsDigits r.1 := by
  unfold readDigits at h
  split at h
  · cases h
  · rename_i hne
    obtain rfl := Except.ok.inj h
    exact ⟨List.takeWhile_append_dropWhile.symm, isDigits_takeWhile (by simpa using hne)⟩

theorem readFraction_spec (h : readFraction cs = .ok r) : cs = r.1 ++ r.2 ∧ IsFraction r.1 := by
  unfold readFraction at h
  split at h
  · obtain ⟨q, hq, rfl⟩ := map_eq_ok h
    obtain ⟨hcs, digits⟩ := readDigits_spec hq
    exact ⟨congrArg ('.' :: ·) hcs, .point digits⟩
  · obtain rfl := Except.ok.inj h
    exact ⟨rfl, .none⟩

/-- An exponent loses a plus sign and a capital letter, and says the same power. -/
theorem readExponent_spec (h : readExponent cs = .ok r) :
    ∃ word, cs = word ++ r.2 ∧ IsExponent r.1 ∧ ∃ e, IsPower e word ∧ IsPower e r.1 := by
  unfold readExponent at h
  split at h
  · rename_i c rest
    split at h
    · rename_i hc
      split at h
      all_goals
        obtain ⟨q, hq, rfl⟩ := map_eq_ok h
        obtain ⟨rfl, digits⟩ := readDigits_spec hq
      · exact ⟨c :: '-' :: q.1, rfl, .negative digits, _, .power hc (.intro .minus digits),
          .power (.inl rfl) (.intro .minus digits)⟩
      · exact ⟨c :: '+' :: q.1, rfl, .positive digits, _, .power hc (.intro .plus digits),
          .power (.inl rfl) (.intro .none digits)⟩
      · exact ⟨c :: q.1, rfl, .positive digits, _, .power hc (.intro .none digits),
          .power (.inl rfl) (.intro .none digits)⟩
    · obtain rfl := Except.ok.inj h
      exact ⟨[], rfl, .none, 0, .none, .none⟩
  · obtain rfl := Except.ok.inj h
    exact ⟨[], rfl, .none, 0, .none, .none⟩

/-- A number comes into the form of tokens and says the same. -/
theorem readMagnitude_spec (h : readMagnitude cs = .ok r) (negative : Bool) :
    ∃ word, cs = word ++ r.2 ∧ IsMagnitude r.1 ∧ ∃ n e,
      SaysAfter negative word (.finite negative n e) ∧
        SaysAfter negative r.1 (.finite negative n e) := by
  obtain ⟨whole, fraction, exponent, hw, hf, he, rfl⟩ := exists_of_readMagnitude h
  obtain ⟨rfl, digits⟩ := readDigits_spec hw
  obtain ⟨hrest, isFraction⟩ := readFraction_spec hf
  obtain ⟨word, hrest', isExponent, e, hword, hexponent⟩ := readExponent_spec he
  obtain ⟨ds, places, mantissa⟩ := isFraction.exists_mantissa digits
  refine ⟨whole.1 ++ fraction.1 ++ word, ?_, .intro digits isFraction isExponent, _, _,
    .decimal mantissa hword, .decimal mantissa hexponent⟩
  rw [hrest, hrest', List.append_assoc, List.append_assoc, List.append_assoc]

/-! ## Names and texts -/

/-- A name goes as far as there are characters of names. -/
theorem isName_takeWhile {c : Char} (hc : Text.isNameStart c = true) (cs : List Char) :
    IsName (String.ofList ((c :: cs).takeWhile Text.isNameChar)) := by
  rw [List.takeWhile_cons_of_pos (Text.isNameChar_of_isNameStart hc)]
  exact ⟨c, _, String.toList_ofList, hc, fun _ => List.mem_takeWhile_imp⟩

/-- A word is the keyword that it is in any case, or a name. -/
theorem means_ofWord {word : List Char} (h : IsName (String.ofList word)) :
    Means word (ofWord word) := by
  obtain ⟨s, rfl⟩ : ∃ s : String, word = s.toList := ⟨String.ofList word, String.toList_ofList.symm⟩
  rw [String.ofList_toList] at h
  by_cases hkeyword : IsKeyword s
  · refine .keyword ?_
    unfold ofWord
    rw [IsKeyword] at hkeyword
    generalize String.ofList (s.toList.map Char.toLower) = lower at hkeyword
    simp only [List.mem_cons, List.not_mem_nil, or_false] at hkeyword
    obtain rfl | rfl | rfl | rfl | rfl := hkeyword <;> simp [keywords]
  · rw [ofWord_of_not_isKeyword hkeyword]
    exact .name h hkeyword

/-- A quoted text is its characters with the quotes among them doubled, up to a quote. -/
theorem readQuoted_spec {quote : Char} (h : readQuoted quote cs = some r) :
    cs = doubled quote r.1 ++ quote :: r.2 := by
  fun_induction readQuoted quote cs generalizing r with
  | case1 => cases h
  | case2 =>
    obtain rfl := Option.some.inj h
    rfl
  | case3 => cases h
  | case4 rest ih =>
    obtain ⟨q, hq, rfl⟩ := Option.map_eq_some_iff.1 h
    rw [ih hq]
    simp [doubled]
  | case5 d rest hd =>
    obtain rfl := Option.some.inj h
    rfl
  | case6 c d rest hc ih =>
    obtain ⟨q, hq, rfl⟩ := Option.map_eq_some_iff.1 h
    rw [ih hq]
    simp [doubled, hc]

/-! ## Tokens -/

/-- What is read after a question mark is an index. -/
theorem readIndex_spec {r : Token × List Char} (h : readIndex cs = .ok r) :
    ∃ ds, cs = ds ++ r.2 ∧ Means ('?' :: ds) r.1 := by
  unfold readIndex at h
  dsimp only at h
  split at h
  · rename_i hindex
    obtain rfl := Except.ok.inj h
    have hne : cs.takeWhile Char.isDigit ≠ [] := by
      intro hnil
      rw [hnil] at hindex
      exact absurd hindex.1 (by decide)
    exact ⟨_, List.takeWhile_append_dropWhile.symm,
      .positional (isDigits_takeWhile hne) hindex.1 hindex.2⟩
  · cases h

/-- A colon stands alone or starts the name of a parameter. -/
theorem readColon_spec (afterName : Bool) (cs : List Char) :
    ∃ word, cs = word ++ (readColon afterName cs).2 ∧
      Means (':' :: word) (readColon afterName cs).1 := by
  fun_cases readColon afterName cs with
  | case1 c rest hc =>
    have hmeans := Means.named (isName_takeWhile (Bool.and_eq_true_iff.1 hc).2 rest)
    rw [String.toList_ofList] at hmeans
    exact ⟨_, List.takeWhile_append_dropWhile.symm, hmeans⟩
  | case2 | case3 => exact ⟨[], rfl, .colon⟩

/-- What the lexer reads is a word and its meaning. -/
theorem means_of_next {afterName : Bool} {c : Char} {rest : List Char} {r : Token × List Char}
    (h : next afterName c rest = .ok r) : ∃ word, c :: rest = word ++ r.2 ∧ Means word r.1 := by
  revert h
  fun_cases next afterName c rest with
  | case1 =>
    rintro ⟨⟩
    exact ⟨_, rfl, .openGroup⟩
  | case2 =>
    rintro ⟨⟩
    exact ⟨_, rfl, .closeGroup⟩
  | case3 =>
    rintro ⟨⟩
    exact ⟨_, rfl, .openMap⟩
  | case4 =>
    rintro ⟨⟩
    exact ⟨_, rfl, .closeMap⟩
  | case5 =>
    rintro ⟨⟩
    exact ⟨_, rfl, .comma⟩
  | case6 =>
    rintro ⟨⟩
    exact ⟨_, rfl, .symbol .eq⟩
  | case7 =>
    rintro ⟨⟩
    exact ⟨_, rfl, .unequal⟩
  | case9 =>
    rintro ⟨⟩
    exact ⟨_, rfl, .symbol .ne⟩
  | case8 | case16 | case19 => rintro ⟨⟩
  | case10 =>
    rintro ⟨⟩
    fun_cases readOrder .lt .le rest with
    | case1 rest => exact ⟨_, rfl, .symbol .le⟩
    | case2 => exact ⟨_, rfl, .symbol .lt⟩
  | case11 =>
    rintro ⟨⟩
    fun_cases readOrder .gt .ge rest with
    | case1 rest => exact ⟨_, rfl, .symbol .ge⟩
    | case2 => exact ⟨_, rfl, .symbol .gt⟩
  | case12 =>
    intro h
    obtain ⟨ds, hrest, hmeans⟩ := readIndex_spec h
    exact ⟨_, congrArg ('?' :: ·) hrest, hmeans⟩
  | case13 =>
    rintro ⟨⟩
    obtain ⟨word, hrest, hmeans⟩ := readColon_spec afterName rest
    exact ⟨_, congrArg (':' :: ·) hrest, hmeans⟩
  | case14 =>
    intro h
    obtain ⟨q, hq, rfl⟩ := map_eq_ok h
    obtain ⟨word, hrest, form, n, e, hword, hq⟩ := readMagnitude_spec hq true
    refine ⟨'-' :: word, congrArg ('-' :: ·) hrest, .number ?_ (.intro .minus hword) ?_⟩
    · rw [String.toList_ofList]
      exact .negative form
    · rw [String.toList_ofList]
      exact .intro .minus hq
  | case15 =>
    rename_i hquote hq
    rintro ⟨⟩
    refine ⟨_, ?_, .text hquote _⟩
    rw [String.toList_ofList, readQuoted_spec hq, List.cons_append, List.append_assoc]
    rfl
  | case17 =>
    -- The first digit belongs to the number, which is read with it.
    intro h
    obtain ⟨q, hq, rfl⟩ := map_eq_ok h
    obtain ⟨word, hrest, form, n, e, hword, hq⟩ := readMagnitude_spec hq false
    refine ⟨word, hrest, .number ?_ (.intro .none hword) ?_⟩
    · rw [String.toList_ofList]
      exact .positive form
    · rw [String.toList_ofList]
      exact .intro .none hq
  | case18 =>
    rename_i hname
    rintro ⟨⟩
    have hmeans := means_ofWord (isName_takeWhile hname rest)
    rw [List.takeWhile_cons_of_pos (Text.isNameChar_of_isNameStart hname)] at hmeans
    refine ⟨_, ?_, hmeans⟩
    rw [List.cons_append, List.takeWhile_append_dropWhile]

end Token

end Query

end ItemStore
