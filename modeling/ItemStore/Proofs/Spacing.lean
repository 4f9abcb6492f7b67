import ItemStore.Proofs.Cuts
import ItemStore.Proofs.Parsing

/-!
# Blanks between tokens

Blanks may be put in before the first token of a text, after the last and between any two
(`Spaced`). No such place is inside a word, as a word has no token after its first character and
does not end with a blank. So the words stay whole, each has a character or a blank after it that
ends it as before, and the longer text is cut into the same tokens (`Cut.spaced`). Main statement:
it says the same (`parse_of_spaced`).
-/

namespace ItemStore

namespace Query

open Text

/-! ## Places between tokens -/

/-- A byte of a text, with the characters after it, is in no token: these are blanks up to a token
or to the end. -/
def IsGap (lexemes : List Lexeme) (position : Nat) (rest : List Char) : Prop :=
  rest.all isBlank = true ∨
    ∃ l ∈ lexemes, l.position = position + byteLength (rest.takeWhile isBlank)

instance (lexemes : List Lexeme) (position : Nat) (rest : List Char) :
    Decidable (IsGap lexemes position rest) :=
  inferInstanceAs (Decidable (_ ∨ _))

/-- Characters that start at a byte, and the same with blanks put in where no token is. -/
inductive SpacedFrom (lexemes : List Lexeme) : Nat → List Char → List Char → Prop where
  | nil {position : Nat} : SpacedFrom lexemes position [] []
  | keep {position : Nat} {c : Char} {cs cs' : List Char}
    (rest : SpacedFrom lexemes (position + c.utf8Size) cs cs') :
    SpacedFrom lexemes position (c :: cs) (c :: cs')
  | put {position : Nat} {c : Char} {cs cs' : List Char} (hgap : IsGap lexemes position cs)
    (hc : isBlank c = true) (rest : SpacedFrom lexemes position cs cs') :
    SpacedFrom lexemes position cs (c :: cs')

/-- A text that can be read as tokens, and the same with blanks put in before the first token, after
the last and between any two. -/
def Spaced (text text' : String) : Prop :=
  ∃ lexemes, lex text = .ok lexemes ∧ SpacedFrom lexemes 0 text.toList text'.toList

/-! ## Words stay whole -/

variable {lexemes : List Lexeme} {position : Nat} {c : Char} {left cs cs' : List Char}

/-- A word that ends solid has blanks before its first other character at most. -/
theorem SolidEnd.exists_solid {word : List Char} (h : SolidEnd word) (hne : word ≠ []) :
    ∃ blanks d rest, word = blanks ++ d :: rest ∧ (∀ b ∈ blanks, isBlank b = true) ∧
      isBlank d = false := by
  have hword := List.takeWhile_append_dropWhile (p := isBlank) (l := word)
  cases hdrop : word.dropWhile isBlank with
  | nil =>
    have hblank := List.dropWhile_eq_nil_iff.1 hdrop _ (List.getLast_mem hne)
    rw [h _ (List.getLast?_eq_some_getLast hne)] at hblank
    cases hblank
  | cons d rest =>
    have hstops := stops_dropWhile isBlank word
    rw [hdrop] at hword hstops
    exact ⟨_, d, rest, hword.symm, fun _ => List.mem_takeWhile_imp, hstops d rfl⟩

/-- No gap is in a word: what comes after it are blanks up to another character of the word. -/
theorem not_isGap {word : List Char} (hsolid : SolidEnd word) (hne : word ≠ [])
    (hnone : ∀ l ∈ lexemes, l.position < position ∨ position + byteLength word ≤ l.position) :
    ¬IsGap lexemes position (word ++ left) := by
  obtain ⟨blanks, d, rest, rfl, hblanks, hd⟩ := hsolid.exists_solid hne
  rintro (hall | ⟨l, hl, hposition⟩)
  · rw [List.all_eq_true.1 hall d (by simp)] at hd
    cases hd
  · have hstops : Stops isBlank (d :: (rest ++ left)) := by
      rintro _ ⟨⟩
      exact hd
    rw [List.append_assoc, List.cons_append, hstops.takeWhile hblanks] at hposition
    have hl := hnone l hl
    have := d.utf8Size_pos
    rw [byteLength_append, byteLength] at hl
    omega

/-- A word in which no token starts stands in the spaced text as it is. -/
theorem SpacedFrom.word {word : List Char}
    (h : SpacedFrom lexemes position (word ++ left) cs') (hsolid : SolidEnd word)
    (hnone : ∀ l ∈ lexemes, l.position < position ∨ position + byteLength word ≤ l.position) :
    ∃ left', cs' = word ++ left' ∧
      SpacedFrom lexemes (position + byteLength word) left left' := by
  induction word generalizing position cs' with
  | nil => exact ⟨cs', rfl, h⟩
  | cons c word ih =>
    cases h with
    | keep rest =>
      rw [byteLength, ← Nat.add_assoc] at hnone
      obtain ⟨left', rfl, hleft⟩ := ih rest hsolid.tail fun l hl => (hnone l hl).imp_left (by omega)
      rw [Nat.add_assoc] at hleft
      exact ⟨left', rfl, hleft⟩
    | put hgap hc rest => exact absurd hgap (not_isGap hsolid (List.cons_ne_nil _ _) hnone)

/-- A word ends before the longer text as before the text. -/
theorem SpacedFrom.endsAs (h : SpacedFrom lexemes position cs cs') : EndsAs cs cs' := by
  cases h with
  | nil => exact nofun
  | keep rest => exact fun d hd => .inr hd
  | put hgap hc rest =>
    rintro d ⟨⟩
    exact .inl (Bool.or_eq_true_iff.2 (.inl hc))

/-- Blanks are put in before a character, and after it. -/
theorem SpacedFrom.uncons (h : SpacedFrom lexemes position (c :: cs) cs') :
    ∃ blanks rest, cs' = blanks ++ c :: rest ∧ (∀ b ∈ blanks, isBlank b = true) ∧
      SpacedFrom lexemes (position + c.utf8Size) cs rest := by
  generalize hds : c :: cs = ds at h
  induction h with
  | nil => cases hds
  | @keep position d ds rest hrest =>
    obtain ⟨rfl, rfl⟩ := List.cons.inj hds
    exact ⟨[], rest, rfl, nofun, hrest⟩
  | @put position b ds ds' hgap hb _ ih =>
    obtain ⟨blanks, rest, rfl, hblanks, hrest⟩ := ih hds
    exact ⟨b :: blanks, rest, rfl, List.forall_mem_cons.2 ⟨hb, hblanks⟩, hrest⟩

/-- Only blanks are put in at the end. -/
theorem SpacedFrom.isBlank (h : SpacedFrom lexemes position [] cs') :
    ∀ b ∈ cs', isBlank b = true := by
  generalize hds : [] = ds at h
  induction h with
  | nil => nofun
  | keep => cases hds
  | put hgap hb _ ih => exact List.forall_mem_cons.2 ⟨hb, ih hds⟩

/-! ## The same tokens -/

/-- The text with blanks put in is cut into the same tokens. Every token of the text stands before
the characters or is one of theirs, so none starts inside the first word. -/
theorem Cut.spaced {depth : Nat} {last : Option Token} {ls : List Lexeme}
    (h : Cut depth last position cs ls) (hls : ∀ l ∈ lexemes, l.position < position ∨ l ∈ ls)
    (hcs : SpacedFrom lexemes position cs cs') :
    CutsInto depth last cs' (ls.map Lexeme.token) := by
  induction h generalizing cs' with
  | nil =>
    rw [← List.append_nil cs']
    exact .blanks cs' hcs.isBlank .nil
  | @blank depth last position c cs ls hc rest ih =>
    obtain ⟨blanks, cs', rfl, hblanks, hrest⟩ := hcs.uncons
    have hls' : ∀ l ∈ lexemes, l.position < position + c.utf8Size ∨ l ∈ ls := fun l hl =>
      (hls l hl).imp_left (Nat.lt_add_right _)
    exact .blanks blanks hblanks (.blanks [c] (List.forall_mem_singleton.2 hc) (ih hls' hrest))
  | @token depth last position c word left t ls hc hnext rest ih =>
    obtain ⟨hsolid, hends⟩ := Token.takes_word hnext
    obtain ⟨blanks, cs', rfl, hblanks, hrest⟩ := hcs.uncons
    have hls' : ∀ l ∈ lexemes, l.position < position + c.utf8Size ∨ l ∈ ls := by
      intro l hl
      obtain hlt | hmem := hls l hl
      · exact .inl (Nat.lt_add_right _ hlt)
      · obtain rfl | hmem := List.mem_cons.1 hmem
        · exact .inl (Nat.lt_add_of_pos_right c.utf8Size_pos)
        · exact .inr hmem
    -- The tokens after this one stand behind its word.
    have hnone : ∀ l ∈ lexemes, l.position < position + c.utf8Size ∨
        position + c.utf8Size + byteLength word ≤ l.position := by
      intro l hl
      refine (hls' l hl).imp_right fun hmem => ?_
      have hle := (rest.startsIn l hmem).le
      rwa [byteLength, ← Nat.add_assoc] at hle
    obtain ⟨left', rfl, hleft⟩ := hrest.word hsolid hnone
    rw [Nat.add_assoc] at hleft
    have hrest := ih (fun l hl => (hls' l hl).imp_left fun h => by rw [byteLength]; omega) hleft
    exact .blanks blanks hblanks (hrest.token hc (hends left' hleft.endsAs))

/-- A text with blanks put in before its first token, after its last or between any two is read as
the same tokens, and so it says what the text says. -/
theorem parse_of_spaced {text text' : String} (h : Spaced text text') :
    (∃ lexemes lexemes', lex text = .ok lexemes ∧ lex text' = .ok lexemes' ∧
      lexemes'.map Lexeme.token = lexemes.map Lexeme.token) ∧
      ∀ p, parse text = .ok p ↔ parse text' = .ok p := by
  obtain ⟨lexemes, hlex, hspaced⟩ := h
  have hcuts := (Cut.of_lexFrom hlex).spaced (fun l hl => .inr hl) hspaced
  obtain ⟨lexemes', hlex', htokens⟩ := hcuts.lex
  refine ⟨⟨lexemes, lexemes', hlex, hlex', htokens⟩, fun p => ?_⟩
  simp [parse_eq_ok_iff, hlex, hlex', htokens]

end Query

/-! ## A map with blanks put in -/

namespace Sample

open Query

/-- A map that is written with no blanks. -/
def denseMap : String := "\x7bid:null,'a'::a\x7d"

/-- The map with blanks of some scripts around its tokens. -/
def looseMap : String := "\u3000\x7b id\t: null ,\n'a' :\u2028 :a\u00a0\x7d  "

theorem lex_denseMap : lex denseMap =
    .ok [⟨.openMap, 0⟩, ⟨.name "id", 1⟩, ⟨.colon, 3⟩, ⟨.null, 4⟩, ⟨.comma, 8⟩, ⟨.text "a", 9⟩,
      ⟨.colon, 12⟩, ⟨.named "a", 13⟩, ⟨.closeMap, 15⟩] := by
  decide +kernel

theorem spaced_looseMap : Spaced denseMap looseMap := by
  refine ⟨_, lex_denseMap, ?_⟩
  repeat first
    | exact .nil
    | refine .keep ?_
    | refine .put (by decide +kernel) (by decide +kernel) ?_

/-- A map with no blanks and the same with many. -/
theorem parse_looseMap : Spaced denseMap looseMap ∧
    parse looseMap = .ok (.and [.compare ⟨"id", .eq, .literal .null⟩,
      .compare ⟨"a", .eq, .placeholder (.named "a")⟩]) := by
  have hparse : parse denseMap = .ok (.and [.compare ⟨"id", .eq, .literal .null⟩,
      .compare ⟨"a", .eq, .placeholder (.named "a")⟩]) :=
    parse_eq_ok_iff.2 ⟨_, lex_denseMap,
      .one (.one (.map ⟨.name "id", .null⟩ [⟨.text "a", .named "a"⟩])), rfl, rfl⟩
  exact ⟨spaced_looseMap, ((parse_of_spaced spaced_looseMap).2 _).1 hparse⟩

end Sample

end ItemStore
