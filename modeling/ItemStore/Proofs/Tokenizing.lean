import ItemStore.Proofs.Lexemes
import ItemStore.Proofs.SyntaxErrors

/-!
# Nothing is lost between tokens

A text that is read as tokens is blanks, a word, blanks, a word and so on to blanks at its end, one
word for each token, which is what the word means (`Tiled`). Where the lexer fails, the text before
that place is read as the tokens that the lexer has read on its way (`Reads`). Main statement:
`lex_loses_nothing`.
-/

namespace ItemStore

namespace Query

open Text

/-! ## Words and blanks -/

/-- Characters that start at a byte are blanks and words, from blanks to blanks. There is a word for
each token, which it means, and the token stands at its first byte. -/
inductive Tiled : Nat → List Char → List Lexeme → Prop where
  | blanks {position : Nat} {bs : List Char} (hbs : ∀ b ∈ bs, isBlank b = true) :
    Tiled position bs []
  | word {position : Nat} {bs word left : List Char} {t : Token} {ls : List Lexeme}
    (hbs : ∀ b ∈ bs, isBlank b = true) (hne : word ≠ []) (means : Means word t)
    (rest : Tiled (position + byteLength bs + byteLength word) left ls) :
    Tiled position (bs ++ word ++ left) (⟨t, position + byteLength bs⟩ :: ls)

section Cut

variable {depth position : Nat} {last : Option Token} {cs : List Char} {ls : List Lexeme}

/-- A blank before a tiling belongs to it. -/
theorem Tiled.blank {c : Char} (hc : isBlank c = true) (h : Tiled (position + c.utf8Size) cs ls) :
    Tiled position (c :: cs) ls := by
  cases h with
  | blanks hbs => exact .blanks (List.forall_mem_cons.2 ⟨hc, hbs⟩)
  | @word _ bs word left t ls hbs hne means rest =>
    have hsize : position + c.utf8Size + byteLength bs = position + byteLength (c :: bs) :=
      Nat.add_assoc _ _ _
    rw [hsize] at rest ⊢
    exact .word (List.forall_mem_cons.2 ⟨hc, hbs⟩) hne means rest

/-- What is cut into tokens is tiled by them. -/
theorem Cut.tiled (h : Cut depth last position cs ls) : Tiled position cs ls := by
  induction h with
  | nil => exact .blanks nofun
  | blank hc rest ih => exact ih.blank hc
  | @token depth last position c word left t ls hc hnext rest ih =>
    obtain ⟨word', hword, hmeans⟩ := Token.means_of_next hnext
    obtain rfl : c :: word = word' := List.append_cancel_right hword
    show Tiled position ([] ++ (c :: word) ++ left) _
    exact .word nofun (List.cons_ne_nil _ _) hmeans ih

end Cut

/-! ## Texts -/

/-- Where a text is read as tokens, it is blanks and words that mean them, each token stands at the
first byte of its word, and so one after the other and at boundaries of the text. Where the lexer
fails, it does so at a boundary of the text, and the text before that is read as the tokens that it
has read on its way. -/
theorem lex_loses_nothing (text : String) :
    (∀ lexemes, lex text = .ok lexemes → Tiled 0 text.toList lexemes ∧
      (lexemes.Pairwise fun l l' => l.position < l'.position) ∧
      ∀ l ∈ lexemes, (⟨l.position⟩ : String.Pos.Raw).IsValid text) ∧
    ∀ e, lex text = .error e → (⟨e.position⟩ : String.Pos.Raw).IsValid text ∧
      ∃ (before after : String) (lexemes : List Lexeme) (s : Stand),
        text = before ++ after ∧ before.utf8ByteSize = e.position ∧
        Reads (.start text) lexemes s ∧ s.left = after.toList ∧ s.position = e.position ∧
        s.Fails e.fault ∧ lex before = .ok lexemes := by
  refine ⟨fun lexemes h => ?_, fun e h => ⟨isValid_of_startsIn (lexFrom_error h).1, ?_⟩⟩
  · have hcut := Cut.of_lexFrom h
    exact ⟨hcut.tiled, hcut.pairwise, fun l hl => isValid_of_startsIn (hcut.startsIn l hl)⟩
  · obtain ⟨ls, s, hreads, hposition, hfails⟩ := exists_reads_of_lexFrom h
    obtain ⟨before, hleft, hbefore, hcut⟩ := hreads.cut
    refine ⟨String.ofList before, String.ofList s.left, ls, s, ?_, ?_, hreads,
      String.toList_ofList.symm, hposition, hfails, ?_⟩
    · rw [← String.ofList_append, ← hleft, String.ofList_toList]
    · rw [← byteLength_toList, String.toList_ofList, ← hposition, hbefore, Nat.zero_add]
    · rw [lex, String.toList_ofList]
      exact hcut.lexFrom_eq

end Query

/-! ## Words of several forms, and one that does not end -/

namespace Sample

open Query

/-- Letters of two bytes, a doubled quote, a blank of two bytes and a number with a capital
exponent. -/
theorem lex_loses_nothing_size :
    lex "größe='it''s' OR\u00a0x>1.5E+3" = .ok [⟨.name "größe", 0⟩, ⟨.op .eq, 7⟩, ⟨.text "it's", 8⟩,
      ⟨.or, 16⟩, ⟨.name "x", 20⟩, ⟨.op .gt, 21⟩, ⟨.number "1.5e3", 22⟩] ∧
      Tiled 0 "größe='it''s' OR\u00a0x>1.5E+3".toList [⟨.name "größe", 0⟩, ⟨.op .eq, 7⟩,
        ⟨.text "it's", 8⟩, ⟨.or, 16⟩, ⟨.name "x", 20⟩, ⟨.op .gt, 21⟩, ⟨.number "1.5e3", 22⟩] ∧
      lex "größe=?07 'it" = .error ⟨12, .unterminatedText⟩ ∧
      ∃ before after lexemes, "größe=?07 'it" = before ++ after ∧ before.utf8ByteSize = 12 ∧
        lex before = .ok lexemes := by
  have hlex : lex "größe='it''s' OR\u00a0x>1.5E+3" = .ok [⟨.name "größe", 0⟩, ⟨.op .eq, 7⟩,
      ⟨.text "it's", 8⟩, ⟨.or, 16⟩, ⟨.name "x", 20⟩, ⟨.op .gt, 21⟩, ⟨.number "1.5e3", 22⟩] := by
    decide +kernel
  have herror : lex "größe=?07 'it" = .error ⟨12, .unterminatedText⟩ := by
    decide +kernel
  obtain ⟨htiled, -⟩ := (lex_loses_nothing _).1 _ hlex
  obtain ⟨-, before, after, lexemes, -, htext, hsize, -, -, -, -, hbefore⟩ :=
    (lex_loses_nothing _).2 _ herror
  exact ⟨hlex, htiled, herror, before, after, lexemes, htext, hsize, hbefore⟩

end Sample

end ItemStore
