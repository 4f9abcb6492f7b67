import ItemStore.Numeral.Literal
import ItemStore.Proofs.TokenEnds

/-!
# Texts of numbers

    number   := sign (mantissa power | 'inf' | 'infinity' | 'nan')
    sign     := nothing | '+' | '-'
    mantissa := digits | digits with a point before, among or after them
    power    := nothing | ('e' | 'E') sign digits

Words count in any case of their letters. `Says` relates the characters of such a text to what it
says: a decimal number, an infinity or no number. Main statement: these are the texts that are read,
and they are read as what they say (`read?_eq_some_iff`). None of them has a blank (`Says.solid`).
-/

namespace ItemStore

/-- Characters without a blank stand for themselves. -/
theorem Text.trim_eq_self {cs : List Char} (h : ∀ c ∈ cs, isBlank c = false) : trim cs = cs := by
  have hdrop : ∀ l : List Char, (∀ c ∈ l, isBlank c = false) → l.dropWhile isBlank = l := by
    intro l hl
    cases l with
    | nil => rfl
    | cons c l => rw [List.dropWhile_cons_of_neg (by simp [hl c (.head _)])]
  rw [trim, hdrop cs h, hdrop cs.reverse (by simpa using h), List.reverse_reverse]

namespace Numeral

open Query (IsDigits Stops)

/-! ## The grammar -/

/-- A sign, and whether it is a minus. -/
inductive IsSign : Bool → List Char → Prop where
  | none : IsSign false []
  | plus : IsSign false ['+']
  | minus : IsSign true ['-']

/-- Digits and how many of them are after a point. -/
inductive IsMantissa : List Char → Nat → List Char → Prop where
  | whole {ds : List Char} (digits : IsDigits ds) : IsMantissa ds 0 ds
  | point {ws fs : List Char} (digits : IsDigits (ws ++ fs)) :
    IsMantissa (ws ++ fs) fs.length (ws ++ '.' :: fs)

/-- Digits after a sign. -/
inductive IsSigned : Int → List Char → Prop where
  | intro {negative : Bool} {sign ds : List Char} (hsign : IsSign negative sign)
    (digits : IsDigits ds) :
    IsSigned (if negative then -(ofDigits ds : Int) else ofDigits ds) (sign ++ ds)

/-- A power of ten, or nothing, which is the power of zero. -/
inductive IsPower : Int → List Char → Prop where
  | none : IsPower 0 []
  | power {e : Int} {mark : Char} {cs : List Char} (hmark : mark = 'e' ∨ mark = 'E')
    (h : IsSigned e cs) : IsPower e (mark :: cs)

/-- What a number text says after its sign. -/
inductive SaysAfter (negative : Bool) : List Char → Literal → Prop where
  | decimal {ds ms es : List Char} {places : Nat} {e : Int} (mantissa : IsMantissa ds places ms)
    (power : IsPower e es) :
    SaysAfter negative (ms ++ es) (.finite negative (ofDigits ds) (e - places))
  | infinite {word : List Char} (hword : word.map Char.toLower = ['i', 'n', 'f'] ∨
      word.map Char.toLower = ['i', 'n', 'f', 'i', 'n', 'i', 't', 'y']) :
    SaysAfter negative word (.infinite negative)
  | nan {word : List Char} (hword : word.map Char.toLower = ['n', 'a', 'n']) :
    SaysAfter negative word .nan

/-- What a number text says. -/
inductive Says : List Char → Literal → Prop where
  | intro {negative : Bool} {sign body : List Char} {l : Literal} (hsign : IsSign negative sign)
    (h : SaysAfter negative body l) : Says (sign ++ body) l

/-! ## Signs -/

/-- The characters do not start with a sign. -/
def Unsigned (cs : List Char) : Prop := ∀ c ∈ cs.head?, c ≠ '-' ∧ c ≠ '+'

/-- A sign can be taken off any characters. -/
theorem exists_sign (cs : List Char) : ∃ negative sign body, cs = sign ++ body ∧
    IsSign negative sign ∧ (sign = [] → Unsigned body) := by
  by_cases hminus : ∃ body, cs = '-' :: body
  · obtain ⟨body, rfl⟩ := hminus
    exact ⟨true, ['-'], body, rfl, .minus, nofun⟩
  by_cases hplus : ∃ body, cs = '+' :: body
  · obtain ⟨body, rfl⟩ := hplus
    exact ⟨false, ['+'], body, rfl, .plus, nofun⟩
  refine ⟨false, [], cs, rfl, .none, fun _ c hc => ?_⟩
  obtain ⟨rest, rfl⟩ := List.head?_eq_some_iff.1 hc
  exact ⟨fun h => hminus ⟨rest, h ▸ rfl⟩, fun h => hplus ⟨rest, h ▸ rfl⟩⟩

section Sign

variable {negative : Bool} {sign body : List Char}

/-- The sign of a whole number is read first. -/
theorem readSigned?_append (hsign : IsSign negative sign) (h : sign = [] → Unsigned body) :
    readSigned? (sign ++ body) = if body.isEmpty || !body.all Char.isDigit then none
      else some (if negative then -(ofDigits body : Int) else ofDigits body) := by
  cases hsign with
  | plus => rfl
  | minus => rfl
  | none =>
    cases body with
    | nil => rfl
    | cons c rest =>
      have hc := h rfl c rfl
      simp [readSigned?, hc]

/-- The sign of a number is read first. -/
theorem read?_append (hsign : IsSign negative sign) (h : sign = [] → Unsigned body) :
    Literal.read? (sign ++ body) = Literal.readMagnitude? negative body := by
  cases hsign with
  | plus => rfl
  | minus => rfl
  | none =>
    cases body with
    | nil => rfl
    | cons c rest =>
      have hc := h rfl c rfl
      simp [Literal.read?, hc]

end Sign

theorem unsigned_of_isDigits {ds : List Char} (h : IsDigits ds) : Unsigned ds := by
  intro c hc
  have hdigit := h.2 c (List.mem_of_head? hc)
  exact ⟨fun h => absurd hdigit (h ▸ by decide), fun h => absurd hdigit (h ▸ by decide)⟩

theorem isDigits_iff {ds : List Char} :
    IsDigits ds ↔ (ds.isEmpty || !ds.all Char.isDigit) = false := by
  simp [IsDigits]

/-- A text is read as a whole number just when it is one in digits, with a sign or without. -/
theorem readSigned?_eq_some_iff {cs : List Char} {n : Int} :
    readSigned? cs = some n ↔ IsSigned n cs := by
  constructor
  · intro h
    obtain ⟨negative, sign, body, rfl, hsign, hbody⟩ := exists_sign cs
    rw [readSigned?_append hsign hbody] at h
    split at h
    · cases h
    · rename_i hdigits
      obtain rfl := Option.some.inj h
      exact .intro hsign (isDigits_iff.2 (Bool.eq_false_iff.2 hdigits))
  · rintro ⟨hsign, digits⟩
    rw [readSigned?_append hsign fun _ => unsigned_of_isDigits digits, isDigits_iff.1 digits,
      if_neg Bool.false_ne_true]

/-- An exponent is read just when it is written like one. -/
theorem readExponent?_eq_some_iff {cs : List Char} {e : Int} :
    readExponent? cs = some e ↔ IsPower e cs := by
  constructor
  · intro h
    cases cs with
    | nil =>
      obtain rfl := Option.some.inj h
      exact .none
    | cons mark cs =>
      rw [readExponent?] at h
      split at h
      · rename_i hmark
        exact .power (by simpa using hmark) (readSigned?_eq_some_iff.1 h)
      · cases h
  · rintro (_ | ⟨hmark, hsigned⟩)
    · rfl
    · rw [readExponent?, if_pos (by simpa using hmark), readSigned?_eq_some_iff.2 hsigned]

/-! ## Magnitudes -/

theorem toLower_of_not_upper {c : Char} (h : c.toNat < 65 ∨ 90 < c.toNat) : c.toLower = c := by
  have hnot : ¬(c.val ≥ 'A'.val ∧ c.val ≤ 'Z'.val) := by
    rintro ⟨hlow, hhigh⟩
    have hlow : 65 ≤ c.toNat := hlow
    have hhigh : c.toNat ≤ 90 := hhigh
    omega
  exact dif_neg hnot

theorem toLower_of_isDigit {c : Char} (h : c.isDigit = true) : c.toLower = c := by
  have hrange := Text.toNat_of_isDigit h
  exact toLower_of_not_upper (by omega)

section Magnitude

variable {negative : Bool} {ds ms es cs : List Char} {places : Nat} {e : Int}

/-- A power does not go on with what is before it. -/
theorem IsPower.stops (h : IsPower e es) : Stops Char.isDigit es ∧ es.head? ≠ some '.' := by
  cases h with
  | none => exact ⟨nofun, nofun⟩
  | power hmark h =>
    refine ⟨fun c hc => ?_, fun hc => ?_⟩
    · obtain rfl := Option.some.inj hc
      obtain rfl | rfl := hmark <;> decide
    · obtain rfl := Option.some.inj hc
      revert hmark
      decide

/-- A mantissa starts with a digit or a point. -/
theorem IsMantissa.head (h : IsMantissa ds places ms) :
    ∃ c rest, ms = c :: rest ∧ (c.isDigit = true ∨ c = '.') := by
  cases h with
  | whole digits =>
    obtain ⟨c, rest, rfl⟩ := List.exists_cons_of_ne_nil digits.1
    exact ⟨c, rest, rfl, .inl (digits.2 c (.head _))⟩
  | @point ws fs digits =>
    cases ws with
    | nil => exact ⟨'.', fs, rfl, .inr rfl⟩
    | cons c ws => exact ⟨c, ws ++ '.' :: fs, rfl, .inl (digits.2 c (.head _))⟩

/-- No word starts as a mantissa does. -/
theorem IsMantissa.ne_word (h : IsMantissa ds places ms) (es : List Char) {first : Char}
    (hfirst : first.isAlpha = true) (rest : List Char) :
    (ms ++ es).map Char.toLower ≠ first :: rest := by
  intro heq
  obtain ⟨c, more, rfl, hc⟩ := h.head
  have hlower : c.toLower = first := (List.cons.inj heq).1
  obtain hdigit | rfl := hc
  · rw [toLower_of_isDigit hdigit] at hlower
    have hrange := Text.toNat_of_isDigit hdigit
    have halpha := Text.toNat_of_isAlpha hfirst
    rw [← hlower] at halpha
    omega
  · rw [← hlower] at hfirst
    exact absurd hfirst (by decide)

/-- Digits with a point are read up to a power. -/
theorem readMagnitude?_append (h : IsMantissa ds places ms) (power : IsPower e es) :
    Literal.readMagnitude? negative (ms ++ es) =
      some (.finite negative (ofDigits ds) (e - places)) := by
  obtain ⟨hstops, hpoint⟩ := power.stops
  have hinf : ¬((ms ++ es).map Char.toLower = ['i', 'n', 'f'] ||
      (ms ++ es).map Char.toLower = ['i', 'n', 'f', 'i', 'n', 'i', 't', 'y']) = true := by
    simp only [Bool.or_eq_true, decide_eq_true_eq]
    exact not_or_intro (h.ne_word es rfl _) (h.ne_word es rfl _)
  have hnan : (ms ++ es).map Char.toLower ≠ ['n', 'a', 'n'] := h.ne_word es rfl _
  have hexponent := readExponent?_eq_some_iff.2 power
  unfold Literal.readMagnitude?
  simp only [if_neg hinf, if_neg hnan]
  cases h with
  | whole digits =>
    have hempty : (ds.isEmpty && ([] : List Char).isEmpty) = false := by
      simpa using digits.1
    rw [hstops.takeWhile digits.2, hstops.dropWhile digits.2]
    split
    · exact absurd rfl hpoint
    · simp only [hempty, hexponent, List.append_nil]
      rfl
  | @point ws fs digits =>
    have hws : ∀ c ∈ ws, c.isDigit = true := fun c hc => digits.2 c (List.mem_append_left _ hc)
    have hfs : ∀ c ∈ fs, c.isDigit = true := fun c hc => digits.2 c (List.mem_append_right _ hc)
    have hdot : Stops Char.isDigit ('.' :: (fs ++ es)) := by
      intro c hc
      obtain rfl := Option.some.inj hc
      rfl
    have hempty : (ws.isEmpty && fs.isEmpty) = false := by
      simpa [List.append_eq_nil_iff] using digits.1
    rw [List.append_assoc, List.cons_append, hdot.takeWhile hws, hdot.dropWhile hws]
    simp only [hstops.takeWhile hfs, hstops.dropWhile hfs, hempty, hexponent]
    rfl

/-- What is read is digits with a point and a power, or a word. -/
theorem saysAfter_of_readMagnitude? {l : Literal}
    (h : Literal.readMagnitude? negative cs = some l) : SaysAfter negative cs l := by
  unfold Literal.readMagnitude? at h
  dsimp only at h
  split at h
  · rename_i hword
    obtain rfl := Option.some.inj h
    exact .infinite (by simpa using hword)
  split at h
  · rename_i hword
    obtain rfl := Option.some.inj h
    exact .nan hword
  have hwhole : ∀ c ∈ cs.takeWhile Char.isDigit, c.isDigit = true :=
    fun c hc => List.mem_takeWhile_imp hc
  rw [← cs.takeWhile_append_dropWhile (p := Char.isDigit)]
  generalize cs.takeWhile Char.isDigit = ws at h hwhole
  split at h
  · rename_i rest hpoint
    rw [hpoint]
    dsimp only at h
    split at h
    · cases h
    · rename_i hsome
      obtain ⟨e, he, rfl⟩ := Option.map_eq_some_iff.1 h
      have hfs : ∀ c ∈ rest.takeWhile Char.isDigit, c.isDigit = true :=
        fun c hc => List.mem_takeWhile_imp hc
      have digits : IsDigits (ws ++ rest.takeWhile Char.isDigit) :=
        ⟨by simpa using hsome, List.forall_mem_append.2 ⟨hwhole, hfs⟩⟩
      have hrest : ws ++ '.' :: rest = ws ++ '.' :: rest.takeWhile Char.isDigit ++
          rest.dropWhile Char.isDigit := by
        rw [List.append_assoc, List.cons_append, List.takeWhile_append_dropWhile]
      rw [hrest]
      exact .decimal (.point digits) (readExponent?_eq_some_iff.1 he)
  · dsimp only at h
    split at h
    · cases h
    · rename_i hsome
      obtain ⟨e, he, rfl⟩ := Option.map_eq_some_iff.1 h
      rw [List.append_nil]
      exact .decimal (.whole ⟨by simpa using hsome, hwhole⟩) (readExponent?_eq_some_iff.1 he)

/-- What comes after the sign is read just as the grammar says. -/
theorem readMagnitude?_eq_some_iff {l : Literal} :
    Literal.readMagnitude? negative cs = some l ↔ SaysAfter negative cs l := by
  refine ⟨saysAfter_of_readMagnitude?, fun h => ?_⟩
  cases h with
  | decimal mantissa power => exact readMagnitude?_append mantissa power
  | infinite hword =>
    rw [Literal.readMagnitude?, if_pos (by simpa using hword)]
  | nan hword =>
    rw [Literal.readMagnitude?, if_neg (by simp [hword]), if_pos hword]

/-- No magnitude starts with a sign. -/
theorem SaysAfter.unsigned {l : Literal} (h : SaysAfter negative cs l) : Unsigned cs := by
  -- A word starts with a letter.
  have hword {word rest : List Char} {first c : Char} (hfirst : first = 'i' ∨ first = 'n')
      (h : word.map Char.toLower = first :: rest) (hc : c ∈ word.head?) : c ≠ '-' ∧ c ≠ '+' := by
    have hlower : c.toLower = first := by
      have hhead := congrArg List.head? h
      rw [List.head?_map, Option.mem_def.1 hc] at hhead
      exact Option.some.inj hhead
    constructor <;> rintro rfl <;> obtain rfl | rfl := hfirst <;> exact absurd hlower (by decide)
  intro c hc
  cases h with
  | decimal mantissa power =>
    obtain ⟨d, rest, rfl, hd⟩ := mantissa.head
    obtain rfl := Option.some.inj hc
    constructor <;> rintro rfl <;> exact absurd hd (by decide)
  | infinite h => exact h.elim (fun h => hword (.inl rfl) h hc) fun h => hword (.inl rfl) h hc
  | nan h => exact hword (.inr rfl) h hc

end Magnitude

/-! ## Texts -/

/-- The texts that are read as numbers are those of the grammar, and they are read as what they
say. -/
theorem read?_eq_some_iff {cs : List Char} {l : Literal} :
    Literal.read? cs = some l ↔ Says cs l := by
  constructor
  · intro h
    obtain ⟨negative, sign, body, rfl, hsign, hbody⟩ := exists_sign cs
    rw [read?_append hsign hbody] at h
    exact .intro hsign (readMagnitude?_eq_some_iff.1 h)
  · rintro ⟨hsign, h⟩
    rw [read?_append hsign fun _ => h.unsigned, readMagnitude?_eq_some_iff.2 h]

/-! ## Blanks -/

theorem isBlank_of_toLower {c : Char} (h : Text.isBlank c.toLower = false) :
    Text.isBlank c = false := by
  by_cases hupper : c.toNat < 65 ∨ 90 < c.toNat
  · rwa [toLower_of_not_upper hupper] at h
  · have hrange : Text.inRanges [(65, 90)] c = true := by
      simp [Text.inRanges]
      omega
    exact Text.inRanges_eq_false (by decide) hrange

theorem isBlank_of_word {word letters : List Char} (h : word.map Char.toLower = letters)
    (hletters : letters.any Text.isBlank = false) : ∀ c ∈ word, Text.isBlank c = false := by
  intro c hc
  have hlower := List.any_eq_false.1 hletters c.toLower (h ▸ List.mem_map_of_mem hc)
  exact isBlank_of_toLower (Bool.eq_false_iff.2 hlower)

theorem IsSign.solid {negative : Bool} {sign : List Char} (h : IsSign negative sign) :
    ∀ c ∈ sign, Text.isBlank c = false := by
  cases h with
  | none => exact nofun
  | plus => exact List.forall_mem_singleton.2 rfl
  | minus => exact List.forall_mem_singleton.2 rfl

theorem solid_of_isDigits {ds : List Char} (h : IsDigits ds) : ∀ c ∈ ds, Text.isBlank c = false :=
  fun c hc => Text.isBlank_of_isDigit (h.2 c hc)

/-- No blank stands in the digits of a number. -/
theorem IsMantissa.solid {ds ms : List Char} {places : Nat} (h : IsMantissa ds places ms) :
    ∀ c ∈ ms, Text.isBlank c = false := by
  cases h with
  | whole digits => exact solid_of_isDigits digits
  | point digits =>
    obtain ⟨hws, hfs⟩ := List.forall_mem_append.1 (solid_of_isDigits digits)
    exact List.forall_mem_append.2 ⟨hws, List.forall_mem_cons.2 ⟨rfl, hfs⟩⟩

/-- No blank stands in an exponent. -/
theorem IsPower.solid {e : Int} {es : List Char} (h : IsPower e es) :
    ∀ c ∈ es, Text.isBlank c = false := by
  cases h with
  | none => exact nofun
  | power hmark h =>
    obtain ⟨hsign, digits⟩ := h
    refine List.forall_mem_cons.2 ⟨?_, List.forall_mem_append.2
      ⟨hsign.solid, solid_of_isDigits digits⟩⟩
    obtain rfl | rfl := hmark <;> rfl

/-- There is no blank in a number text. -/
theorem Says.solid {cs : List Char} {l : Literal} (h : Says cs l) :
    ∀ c ∈ cs, Text.isBlank c = false := by
  obtain ⟨hsign, h⟩ := h
  refine List.forall_mem_append.2 ⟨hsign.solid, ?_⟩
  cases h with
  | decimal mantissa power => exact List.forall_mem_append.2 ⟨mantissa.solid, power.solid⟩
  | infinite hword => exact hword.elim (isBlank_of_word · rfl) (isBlank_of_word · rfl)
  | nan hword => exact isBlank_of_word hword rfl

/-! ## Classes of number texts -/

theorem Says.unique {cs : List Char} {l l' : Literal} (h : Says cs l) (h' : Says cs l') : l = l' :=
  Option.some.inj ((read?_eq_some_iff.2 h).symm.trans (read?_eq_some_iff.2 h'))

instance (cs : List Char) (l : Literal) : Decidable (Says cs l) :=
  decidable_of_iff _ read?_eq_some_iff

/-- The characters say a number, an infinity or no number. -/
def IsNumberText (cs : List Char) : Prop := ∃ l, Says cs l

/-- The characters say a number. -/
def IsDecimal (cs : List Char) : Prop :=
  ∃ negative digits exponent, Says cs (.finite negative digits exponent)

instance (cs : List Char) : Decidable (IsNumberText cs) :=
  decidable_of_iff ((Literal.read? cs).isSome = true) <| by
    simp [IsNumberText, Option.isSome_iff_exists, read?_eq_some_iff]

end Numeral

end ItemStore
