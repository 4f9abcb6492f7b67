import Mathlib.Data.List.TakeWhile
import ItemStore.Proofs.Lexing

/-!
# Where tokens end

A reader of the lexer takes a word off the characters. It looks at the character after the word, but
only to see that the word does not go on there. A blank ends every word, and so does a closing
parenthesis (`endsWord`). So the same word is taken wherever it ends (`Takes`). The parts of a
number, the texts between quotes, the parameters and the operators are words of that kind, and so is
every token (`Token.takes_next`).
-/

namespace ItemStore

namespace Text

theorem isBlank_of_isNameChar {c : Char} (h : isNameChar c = true) : isBlank c = false := by
  rw [isNameChar, Bool.or_assoc, Bool.or_comm, Bool.or_assoc, Bool.or_eq_true] at h
  obtain hnumeric | hstart := h
  · rw [isNumeric] at hnumeric
    split at hnumeric
    · exact isBlank_of_isDigit hnumeric
    · exact inRanges_eq_false (by decide +kernel) hnumeric
  · rw [Bool.or_comm] at hstart
    exact isBlank_of_isNameStart hstart

end Text

namespace Query

/-! ## Words -/

/-- Whether a character ends every word before it. -/
def endsWord (c : Char) : Bool := Text.isBlank c || c == ')'

theorem isBlank_of_endsWord {c : Char} (h : endsWord c = false) : Text.isBlank c = false :=
  (Bool.or_eq_false_iff.1 h).1

theorem endsWord_of_isDigit {c : Char} (h : c.isDigit = true) : endsWord c = false := by
  rw [endsWord, Text.isBlank_of_isDigit h, Bool.false_or, beq_eq_false_iff_ne]
  rintro rfl
  exact absurd h (by decide)

theorem endsWord_of_isNameChar {c : Char} (h : Text.isNameChar c = true) : endsWord c = false := by
  rw [endsWord, Text.isBlank_of_isNameChar h, Bool.false_or, beq_eq_false_iff_ne]
  rintro rfl
  exact absurd h (by decide +kernel)

/-- Characters before which a word ends if it ends before others: there are none, the first of them
ends every word, or it is the first of the others. -/
def EndsAs (left left' : List Char) : Prop :=
  ∀ c ∈ left'.head?, endsWord c = true ∨ c ∈ left.head?

/-- A word before both rests keeps that they end alike. -/
theorem EndsAs.append {left left' : List Char} (h : EndsAs left left') (word : List Char) :
    EndsAs (word ++ left) (word ++ left') := by
  cases word with
  | nil => exact h
  | cons c word => exact fun d hd => .inr hd

/-- What stops at a rest stops at one that ends alike. -/
theorem EndsAs.stops {left left' : List Char} {p : Char → Bool} (h : EndsAs left left')
    (hp : ∀ c, p c = true → endsWord c = false) (hleft : Stops p left) : Stops p left' := by
  intro c hc
  obtain hends | hsame := h c hc
  · refine Bool.eq_false_iff.2 fun hpc => ?_
    rw [hp c hpc] at hends
    cases hends
  · exact hleft c hsame

/-- What is left of a run stops it. -/
theorem stops_dropWhile (p : Char → Bool) (cs : List Char) : Stops p (cs.dropWhile p) := by
  intro c hc
  have hnot := List.head?_dropWhile_not p cs
  rw [Option.mem_def.1 hc] at hnot
  simpa using hnot

theorem stops_contains {marks cs : List Char} (h : ∀ c rest, cs = c :: rest → c ∉ marks) :
    Stops marks.contains cs := by
  intro c hc
  cases cs with
  | nil => cases hc
  | cons d rest =>
    obtain rfl := Option.some.inj hc
    simpa using h d rest rfl

theorem Stops.not_mem {marks cs : List Char} {c : Char} (h : Stops marks.contains (c :: cs)) :
    c ∉ marks := by
  simpa using h c rfl

/-- The last character is no blank, if there is one. -/
def SolidEnd (word : List Char) : Prop := ∀ c ∈ word.getLast?, Text.isBlank c = false

theorem SolidEnd.of_any {word : List Char} (h : word.any Text.isBlank = false) : SolidEnd word :=
  fun c hc => Bool.eq_false_iff.2 (List.any_eq_false.1 h c (List.mem_of_getLast? hc))

theorem SolidEnd.cons {word : List Char} (h : SolidEnd word) (hne : word ≠ []) (c : Char) :
    SolidEnd (c :: word) := by
  intro d hd
  rw [List.getLast?_cons_of_ne_nil hne] at hd
  exact h d hd

theorem SolidEnd.tail {c : Char} {word : List Char} (h : SolidEnd (c :: word)) :
    SolidEnd word := by
  intro d hd
  refine h d ?_
  rw [List.getLast?_cons, Option.mem_def.1 hd]
  rfl

theorem SolidEnd.append {word more : List Char} (h : SolidEnd word) (hmore : SolidEnd more) :
    SolidEnd (word ++ more) := by
  intro c hc
  rw [List.getLast?_append] at hc
  cases hlast : more.getLast? with
  | none =>
    rw [hlast] at hc
    exact h c hc
  | some d =>
    rw [hlast] at hc
    exact hmore c (hlast ▸ hc)

/-- Reading takes a word off the characters: it takes the same word wherever that ends. -/
def Takes {α : Type} (reads : List Char → α × List Char → Prop) (cs : List Char)
    (r : α × List Char) : Prop :=
  ∃ word, cs = word ++ r.2 ∧ SolidEnd word ∧
    ∀ left, EndsAs r.2 left → reads (word ++ left) (r.1, left)

namespace Takes

variable {α β γ : Type} {R : List Char → α × List Char → Prop}
  {S : List Char → β × List Char → Prop} {T : List Char → γ × List Char → Prop}
  {cs : List Char} {p : Char → Bool}

/-- Nothing is taken from characters that do not go on. -/
theorem nothing {a : α} (hp : ∀ c, p c = true → endsWord c = false)
    (hread : ∀ cs, Stops p cs → R cs (a, cs)) (hcs : Stops p cs) : Takes R cs (a, cs) :=
  ⟨[], rfl, nofun, fun left hleft => hread left (hleft.stops hp hcs)⟩

/-- Nothing is taken from characters that do not go on with some marks. -/
theorem unmarked {a : α} {marks : List Char} (hmarks : marks.any endsWord = false)
    (hread : ∀ cs, Stops marks.contains cs → R cs (a, cs))
    (hcs : ∀ c rest, cs = c :: rest → c ∉ marks) : Takes R cs (a, cs) := by
  refine nothing (fun c hc => ?_) hread (stops_contains hcs)
  exact Bool.eq_false_iff.2 (List.any_eq_false.1 hmarks c (List.contains_iff_mem.1 hc))

/-- A word is taken whatever comes after it. -/
theorem fixed {a : α} (word : List Char) (hword : word.any Text.isBlank = false)
    (hread : ∀ cs, R (word ++ cs) (a, cs)) : Takes R (word ++ cs) (a, cs) :=
  ⟨word, rfl, .of_any hword, fun left _ => hread left⟩

/-- What is made of a reading takes the same word. -/
theorem map {r : α × List Char} {f : α → β} (h : Takes R cs r)
    (hread : ∀ cs r, R cs r → S cs (f r.1, r.2)) : Takes S cs (f r.1, r.2) := by
  obtain ⟨word, hcs, hsolid, hword⟩ := h
  exact ⟨word, hcs, hsolid, fun left hleft => hread _ _ (hword left hleft)⟩

/-- Characters in front belong to the word. -/
theorem after {r : α × List Char} {f : α → β} (front : List Char)
    (hfront : front.any Text.isBlank = false) (h : Takes R cs r)
    (hread : ∀ cs r, R cs r → S (front ++ cs) (f r.1, r.2)) :
    Takes S (front ++ cs) (f r.1, r.2) := by
  obtain ⟨word, hcs, hsolid, hword⟩ := h
  refine ⟨front ++ word, by rw [List.append_assoc, ← hcs],
    (SolidEnd.of_any hfront).append hsolid, fun left hleft => ?_⟩
  rw [List.append_assoc]
  exact hread _ _ (hword left hleft)

/-- What is taken with a character in front is taken after that character. -/
theorem behind {r : α × List Char} {c : Char} (h : Takes R (c :: cs) r)
    (hless : r.2.length ≤ cs.length) : Takes (fun cs r => R (c :: cs) r) cs r := by
  obtain ⟨word, hcs, hsolid, hword⟩ := h
  cases word with
  | nil =>
    rw [List.nil_append] at hcs
    rw [← hcs] at hless
    exact absurd hless (Nat.not_succ_le_self _)
  | cons d word =>
    obtain ⟨rfl, htail⟩ := List.cons.inj hcs
    exact ⟨word, htail, hsolid.tail, hword⟩

/-- Two words one after the other are a word. -/
theorem seq {x : α × List Char} {y : β × List Char} {f : α → β → γ} (hx : Takes R cs x)
    (hy : Takes S x.2 y) (hread : ∀ cs x y, R cs x → S x.2 y → T cs (f x.1 y.1, y.2)) :
    Takes T cs (f x.1 y.1, y.2) := by
  obtain ⟨word, hcs, hsolid, hword⟩ := hx
  obtain ⟨more, hmore, hsolid', hword'⟩ := hy
  refine ⟨word ++ more, by rw [List.append_assoc, ← hmore, hcs], hsolid.append hsolid',
    fun left hleft => ?_⟩
  have hends : EndsAs x.2 (more ++ left) := by
    rw [hmore]
    exact hleft.append more
  rw [List.append_assoc]
  exact hread _ _ _ (hword _ hends) (hword' left hleft)

/-- The longest word of characters that pass a test is taken. -/
theorem longest {a : α} (hp : ∀ c, p c = true → endsWord c = false)
    (hread : ∀ left, Stops p left → R (cs.takeWhile p ++ left) (a, left)) :
    Takes R cs (a, cs.dropWhile p) := by
  have hword : (cs.takeWhile p).any Text.isBlank = false :=
    List.any_eq_false.2 fun c hc =>
      Bool.eq_false_iff.1 (isBlank_of_endsWord (hp c (List.mem_takeWhile_imp hc)))
  exact ⟨cs.takeWhile p, List.takeWhile_append_dropWhile.symm, .of_any hword,
    fun left hleft => hread left (hleft.stops hp (stops_dropWhile p cs))⟩

end Takes

namespace Token

/-! ## Reading a word -/

variable {cs rest : List Char}

theorem takeWhile_longest {p : Char → Bool} {left : List Char} (h : Stops p left)
    (cs : List Char) : (cs.takeWhile p ++ left).takeWhile p = cs.takeWhile p :=
  h.takeWhile fun _ hc => List.mem_takeWhile_imp hc

theorem dropWhile_longest {p : Char → Bool} {left : List Char} (h : Stops p left)
    (cs : List Char) : (cs.takeWhile p ++ left).dropWhile p = left :=
  h.dropWhile fun _ hc => List.mem_takeWhile_imp hc

/-- Digits take their word. -/
theorem takes_readDigits {part : NumberPart} {r : List Char × List Char}
    (h : readDigits part cs = .ok r) : Takes (fun cs r => readDigits part cs = .ok r) cs r := by
  unfold readDigits at h
  split at h
  · cases h
  · rename_i hne
    obtain rfl := Except.ok.inj h
    refine .longest (fun _ => endsWord_of_isDigit) fun left hleft => ?_
    rw [readDigits, takeWhile_longest hleft, dropWhile_longest hleft, if_neg hne]

theorem readFraction_point {r : List Char × List Char} (h : readDigits .fraction rest = .ok r) :
    readFraction ('.' :: rest) = .ok ('.' :: r.1, r.2) := by
  rw [readFraction, h]
  rfl

theorem readFraction_stops (h : Stops ['.'].contains cs) : readFraction cs = .ok ([], cs) := by
  unfold readFraction
  split
  · exact absurd (.head _) h.not_mem
  · rfl

/-- A fraction takes its word. -/
theorem takes_readFraction {r : List Char × List Char} (h : readFraction cs = .ok r) :
    Takes (fun cs r => readFraction cs = .ok r) cs r := by
  unfold readFraction at h
  split at h
  · obtain ⟨q, hq, rfl⟩ := map_eq_ok h
    exact .after (f := ('.' :: ·)) ['.'] (by decide) (takes_readDigits hq)
      fun _ _ => readFraction_point
  · rename_i hpoint
    obtain rfl := Except.ok.inj h
    refine .unmarked (by decide) (fun _ => readFraction_stops) ?_
    rintro c rest rfl hc
    obtain rfl := List.mem_singleton.1 hc
    exact hpoint rest rfl

section Exponent

variable {c : Char} (hc : c = 'e' ∨ c = 'E') {r : List Char × List Char}

include hc

theorem readExponent_minus (h : readDigits .exponent rest = .ok r) :
    readExponent (c :: '-' :: rest) = .ok ('e' :: '-' :: r.1, r.2) := by
  refine (if_pos hc).trans ?_
  show (readDigits .exponent rest).map (fun r => ('e' :: '-' :: r.1, r.2)) = _
  rw [h]
  rfl

theorem readExponent_plus (h : readDigits .exponent rest = .ok r) :
    readExponent (c :: '+' :: rest) = .ok ('e' :: r.1, r.2) := by
  refine (if_pos hc).trans ?_
  show (readDigits .exponent rest).map (fun r => ('e' :: r.1, r.2)) = _
  rw [h]
  rfl

theorem readExponent_digits (h : readDigits .exponent rest = .ok r) :
    readExponent (c :: rest) = .ok ('e' :: r.1, r.2) := by
  refine (if_pos hc).trans ?_
  split
  · cases h
  · cases h
  · rw [h]
    rfl

end Exponent

theorem readExponent_stops (h : Stops ['e', 'E'].contains cs) : readExponent cs = .ok ([], cs) := by
  cases cs with
  | nil => rfl
  | cons c cs =>
    have hc : ¬(c = 'e' ∨ c = 'E') := by simpa using h.not_mem
    exact if_neg hc

/-- An exponent takes its word. -/
theorem takes_readExponent {r : List Char × List Char} (h : readExponent cs = .ok r) :
    Takes (fun cs r => readExponent cs = .ok r) cs r := by
  unfold readExponent at h
  split at h
  · rename_i c rest
    split at h
    · rename_i hc
      have hsolid : Text.isBlank c = false := by
        obtain rfl | rfl := hc <;> decide
      split at h
      all_goals obtain ⟨q, hq, rfl⟩ := map_eq_ok h
      · exact .after (f := ('e' :: '-' :: ·)) [c, '-'] (by rw [List.any_cons, hsolid]; rfl)
          (takes_readDigits hq) fun _ _ => readExponent_minus hc
      · exact .after (f := ('e' :: ·)) [c, '+'] (by rw [List.any_cons, hsolid]; rfl)
          (takes_readDigits hq) fun _ _ => readExponent_plus hc
      · exact .after (f := ('e' :: ·)) [c] (by simp [hsolid]) (takes_readDigits hq)
          fun _ _ => readExponent_digits hc
    · rename_i hc
      obtain rfl := Except.ok.inj h
      refine .unmarked (by decide) (fun _ => readExponent_stops) ?_
      rintro _ _ ⟨⟩
      simpa using hc
  · obtain rfl := Except.ok.inj h
    exact .unmarked (by decide) (fun _ => readExponent_stops) nofun

section Magnitude

variable {whole fraction exponent : List Char × List Char}

theorem readMagnitude_of (hw : readDigits .whole cs = .ok whole)
    (hf : readFraction whole.2 = .ok fraction) (he : readExponent fraction.2 = .ok exponent) :
    readMagnitude cs = .ok (whole.1 ++ fraction.1 ++ exponent.1, exponent.2) := by
  rw [readMagnitude, hw]
  simp only [bind, Except.bind, pure, Except.pure, hf, he]

/-- A number is read in three parts. -/
theorem exists_of_readMagnitude {r : List Char × List Char} (h : readMagnitude cs = .ok r) :
    ∃ whole fraction exponent, readDigits .whole cs = .ok whole ∧
      readFraction whole.2 = .ok fraction ∧ readExponent fraction.2 = .ok exponent ∧
      r = (whole.1 ++ fraction.1 ++ exponent.1, exponent.2) := by
  cases hw : readDigits .whole cs with
  | error e => simp [readMagnitude, hw, bind, Except.bind] at h
  | ok w =>
    cases hf : readFraction w.2 with
    | error e => simp [readMagnitude, hw, hf, bind, Except.bind] at h
    | ok f =>
      cases he : readExponent f.2 with
      | error e => simp [readMagnitude, hw, hf, he, bind, Except.bind] at h
      | ok e =>
        rw [readMagnitude_of hw hf he] at h
        exact ⟨w, f, e, rfl, hf, he, (Except.ok.inj h).symm⟩

/-- A number takes its word. -/
theorem takes_readMagnitude {r : List Char × List Char} (h : readMagnitude cs = .ok r) :
    Takes (fun cs r => readMagnitude cs = .ok r) cs r := by
  obtain ⟨whole, fraction, exponent, hw, hf, he, rfl⟩ := exists_of_readMagnitude h
  have hrest := (takes_readFraction hf).seq (takes_readExponent he) (f := Prod.mk)
    (T := fun cs r => ∃ x y, readFraction cs = .ok x ∧ readExponent x.2 = .ok y ∧
      r = ((x.1, y.1), y.2)) fun cs x y hx hy => ⟨x, y, hx, hy, rfl⟩
  refine (takes_readDigits hw).seq hrest (f := fun w p => w ++ p.1 ++ p.2) ?_
  rintro cs w _ hw ⟨x, y, hx, hy, rfl⟩
  show readMagnitude cs = .ok (w.1 ++ x.1 ++ y.1, y.2)
  exact readMagnitude_of hw hx hy

end Magnitude

/-- An index takes its word. -/
theorem takes_readIndex {r : Token × List Char} (h : readIndex cs = .ok r) :
    Takes (fun cs r => readIndex cs = .ok r) cs r := by
  unfold readIndex at h
  simp only at h
  split at h
  · rename_i hindex
    obtain rfl := Except.ok.inj h
    refine .longest (fun _ => endsWord_of_isDigit) fun left hleft => ?_
    unfold readIndex
    rw [takeWhile_longest hleft, dropWhile_longest hleft]
    exact if_pos hindex
  · cases h

theorem readQuoted_cons {quote c : Char} (hc : c ≠ quote) (cs : List Char) :
    readQuoted quote (c :: cs) = (readQuoted quote cs).map fun r => (c :: r.1, r.2) := by
  cases cs <;> simp [readQuoted, hc]

theorem readQuoted_end {quote : Char} (hrest : Stops (· == quote) rest) :
    readQuoted quote (quote :: rest) = some ([], rest) :=
  readQuoted_append List.not_mem_nil hrest

theorem readQuoted_twice (quote : Char) (cs : List Char) :
    readQuoted quote (quote :: quote :: cs) =
      (readQuoted quote cs).map fun r => (quote :: r.1, r.2) := by
  simp [readQuoted]

/-- A quoted text reaches to its closing quote, whatever blanks it has before that. -/
theorem takes_readQuoted {quote : Char} (hquote : endsWord quote = false)
    {r : List Char × List Char} (h : readQuoted quote cs = some r) :
    Takes (fun cs r => readQuoted quote cs = some r) cs r := by
  have hsolid := isBlank_of_endsWord hquote
  have hclose : ∀ left, Stops (· == quote) left →
      Takes (fun cs r => readQuoted quote cs = some r) (quote :: left) ([], left) := by
    intro left hstops
    refine ⟨[quote], rfl, .of_any (by simp [hsolid]), fun left' hleft => ?_⟩
    exact readQuoted_end (hleft.stops (fun c hc => eq_of_beq hc ▸ hquote) hstops)
  fun_induction readQuoted quote cs generalizing r with
  | case1 => cases h
  | case2 =>
    obtain rfl := Option.some.inj h
    refine hclose [] ?_
    rintro _ ⟨⟩
  | case3 => cases h
  | case4 rest ih =>
    obtain ⟨q, hq, rfl⟩ := Option.map_eq_some_iff.1 h
    refine .after (f := (quote :: ·)) [quote, quote] (by simp [hsolid]) (ih hq) ?_
    intro cs r hr
    show readQuoted quote (quote :: quote :: cs) = _
    rw [readQuoted_twice, hr]
    rfl
  | case5 d rest hd =>
    obtain rfl := Option.some.inj h
    refine hclose (d :: rest) ?_
    rintro _ ⟨⟩
    simpa using hd
  | case6 c d rest hc ih =>
    obtain ⟨q, hq, rfl⟩ := Option.map_eq_some_iff.1 h
    obtain ⟨word, hcs, hsolid, hword⟩ := ih hq
    -- The closing quote is still to come, so the word that is taken is not empty.
    have hne : word ≠ [] := by
      rintro rfl
      have hlength := length_readQuoted hq
      rw [hcs] at hlength
      exact Nat.lt_irrefl _ hlength
    refine ⟨c :: word, congrArg (c :: ·) hcs, hsolid.cons hne c, fun left hleft => ?_⟩
    show readQuoted quote (c :: (word ++ left)) = _
    rw [readQuoted_cons hc, hword left hleft]
    rfl

/-! ## Reading a token -/

theorem readOrder_stops (strict loose : CompareOp) (h : Stops ['='].contains cs) :
    readOrder strict loose cs = (op strict, cs) := by
  unfold readOrder
  split
  · exact absurd (.head _) h.not_mem
  · rfl

/-- An order sign takes its word. -/
theorem takes_readOrder (strict loose : CompareOp) (cs : List Char) :
    Takes (fun cs r => readOrder strict loose cs = r) cs (readOrder strict loose cs) := by
  fun_cases readOrder strict loose cs with
  | case1 rest =>
    exact .fixed ['='] (by decide) fun _ => rfl
  | case2 cs hne =>
    refine .unmarked (by decide) (fun _ => readOrder_stops strict loose) ?_
    rintro c rest rfl hc
    obtain rfl := List.mem_singleton.1 hc
    exact hne rest rfl

theorem readColon_stops {afterName : Bool}
    (h : Stops (fun c => !afterName && Text.isNameStart c) cs) :
    readColon afterName cs = (colon, cs) := by
  cases cs with
  | nil => rfl
  | cons c cs => exact if_neg (Bool.eq_false_iff.1 (h c rfl))

theorem readColon_name {afterName : Bool} {c : Char}
    (hc : (!afterName && Text.isNameStart c) = true) (cs : List Char) :
    readColon afterName (c :: cs) =
      (named (String.ofList ((c :: cs).takeWhile Text.isNameChar)),
        (c :: cs).dropWhile Text.isNameChar) :=
  if_pos hc

/-- A colon takes its word, with the name after it if there is one. -/
theorem takes_readColon (afterName : Bool) (cs : List Char) :
    Takes (fun cs r => readColon afterName cs = r) cs (readColon afterName cs) := by
  by_cases hstops : Stops (fun c => !afterName && Text.isNameStart c) cs
  · rw [readColon_stops hstops]
    refine .nothing (fun c hc => ?_) (fun _ => readColon_stops) hstops
    exact endsWord_of_isNameChar (Text.isNameChar_of_isNameStart (Bool.and_eq_true_iff.1 hc).2)
  · cases cs with
    | nil => exact absurd nofun hstops
    | cons c cs =>
      have hc : (!afterName && Text.isNameStart c) = true := by
        simpa [Stops] using hstops
      have hname := Text.isNameChar_of_isNameStart (Bool.and_eq_true_iff.1 hc).2
      rw [readColon_name hc]
      refine .longest (fun _ => endsWord_of_isNameChar) fun left hleft => ?_
      have hread := readColon_name hc (cs.takeWhile Text.isNameChar ++ left)
      rwa [← List.cons_append, ← List.takeWhile_cons_of_pos hname, takeWhile_longest hleft,
        dropWhile_longest hleft] at hread

theorem next_less_stops {afterName : Bool} (h : Stops ['>', '='].contains cs) :
    next afterName '<' cs = .ok (op .lt, cs) := by
  cases cs with
  | nil => rfl
  | cons c cs =>
    have hc : c ≠ '>' ∧ c ≠ '=' := by simpa using h.not_mem
    simp [next, readOrder, hc]

/-- A token is a word of the text: its first character and what is taken after that. -/
theorem takes_next {afterName : Bool} {c : Char} {r : Token × List Char}
    (h : next afterName c rest = .ok r) :
    Takes (fun cs r => next afterName c cs = .ok r) rest r := by
  revert h
  fun_cases next afterName c rest with
  | case1 | case2 | case3 | case4 | case5 | case6 =>
    rintro ⟨⟩
    exact .fixed [] (by decide) fun _ => rfl
  | case7 | case9 =>
    rintro ⟨⟩
    exact .fixed [_] (by decide) fun _ => rfl
  | case8 | case16 | case19 => rintro ⟨⟩
  | case10 =>
    rename_i hne
    rintro ⟨⟩
    fun_cases readOrder .lt .le rest with
    | case1 rest => exact .fixed ['='] (by decide) fun _ => rfl
    | case2 rest hloose =>
      refine .unmarked (by decide) (fun _ => next_less_stops) ?_
      rintro d left rfl hd
      obtain rfl | rfl := by simpa using hd
      · exact hne left rfl
      · exact hloose left rfl
  | case11 =>
    rintro ⟨⟩
    exact (takes_readOrder .gt .ge rest).map (f := id) fun _ _ => congrArg Except.ok
  | case12 => exact takes_readIndex
  | case13 =>
    rintro ⟨⟩
    exact (takes_readColon afterName rest).map (f := id) fun _ _ => congrArg Except.ok
  | case14 =>
    intro h
    obtain ⟨q, hq, rfl⟩ := map_eq_ok h
    exact (takes_readMagnitude hq).map (f := fun ds => number (String.ofList ('-' :: ds)))
      fun _ _ => congrArg (Except.map _)
  | case15 =>
    rename_i hquote hq
    rintro ⟨⟩
    have hends : endsWord c = false := by
      obtain rfl | rfl := hquote <;> decide
    refine (takes_readQuoted hends hq).map (f := fun s => text (String.ofList s)) ?_
    intro cs r hr
    obtain rfl | rfl := hquote <;> simp [next, hr]
  | case17 =>
    -- The first digit belongs to the number, so what is taken starts with it.
    rename_i hdigit
    intro h
    obtain ⟨q, hq, rfl⟩ := map_eq_ok h
    have hless := Nat.le_of_lt_succ (length_readMagnitude hq)
    refine ((takes_readMagnitude hq).behind hless).map (f := fun ds => number (String.ofList ds)) ?_
    intro cs r hr
    rw [next_of_isDigit afterName hdigit, hr]
    rfl
  | case18 =>
    rename_i hname
    rintro ⟨⟩
    refine .longest (fun _ => endsWord_of_isNameChar) fun left hleft => ?_
    rw [next_of_isNameStart afterName hname, takeWhile_longest hleft, dropWhile_longest hleft]

/-- The word of a token does not end with a blank, and is the same token wherever it ends. -/
theorem takes_word {afterName : Bool} {c : Char} {word left : List Char} {t : Token}
    (h : next afterName c (word ++ left) = .ok (t, left)) :
    SolidEnd word ∧
      ∀ left', EndsAs left left' → next afterName c (word ++ left') = .ok (t, left') := by
  obtain ⟨word', hword, hsolid, hnext⟩ := takes_next h
  obtain rfl := List.append_cancel_right hword
  exact ⟨hsolid, hnext⟩

end Token

end Query

end ItemStore
