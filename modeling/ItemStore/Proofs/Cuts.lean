import ItemStore.Proofs.TokenEnds

/-!
# Texts cut into tokens

The characters of a text are blanks and the words of its tokens, each token at the byte where its
word starts (`Cut`). Main statements: the tokens of a text are those that it is cut into
(`lexFrom_eq_ok_iff`), each of them stands at a character of the text (`Cut.startsIn`), and they
stand one after the other (`Cut.pairwise`).
-/

namespace ItemStore

namespace Text

theorem byteLength_toList (s : String) : byteLength s.toList = s.utf8ByteSize := by
  suffices h : ∀ cs, byteLength cs = (String.ofList cs).utf8ByteSize by
    rw [h, String.ofList_toList]
  intro cs
  induction cs with
  | nil => rfl
  | cons c cs ih =>
    rw [byteLength, ih, String.ofList_cons, String.utf8ByteSize_append,
      String.utf8ByteSize_singleton]

end Text

namespace Query

open Text

/-! ## Cuts -/

/-- Characters that start at a byte, with `depth` maps open and `last` before them, are blanks and
the words of tokens. -/
inductive Cut : Nat → Option Token → Nat → List Char → List Lexeme → Prop where
  | nil {depth : Nat} {last : Option Token} {position : Nat} : Cut depth last position [] []
  | blank {depth : Nat} {last : Option Token} {position : Nat} {c : Char} {cs : List Char}
    {ls : List Lexeme} (hc : isBlank c = true)
    (rest : Cut depth last (position + c.utf8Size) cs ls) : Cut depth last position (c :: cs) ls
  | token {depth : Nat} {last : Option Token} {position : Nat} {c : Char} {word left : List Char}
    {t : Token} {ls : List Lexeme} (hc : isBlank c = false)
    (next : Token.next (endsMapName depth last) c (word ++ left) = .ok (t, left))
    (rest : Cut (depthAfter depth t) (some t) (position + byteLength (c :: word)) left ls) :
    Cut depth last position (c :: (word ++ left)) (⟨t, position⟩ :: ls)

/-- What is taken off is the word. -/
theorem take_word (c : Char) (word left : List Char) :
    (c :: (word ++ left)).take ((word ++ left).length + 1 - left.length) = c :: word := by
  have hlength : (word ++ left).length + 1 - left.length = (c :: word).length := by
    simp only [List.length_append, List.length_cons]
    omega
  rw [hlength, ← List.cons_append, List.take_left]

section Cut

variable {depth : Nat} {last : Option Token} {position : Nat} {cs : List Char} {ls : List Lexeme}

/-- What the lexer reads is a cut. -/
theorem Cut.of_lexFrom (h : lexFrom depth last position cs = .ok ls) :
    Cut depth last position cs ls := by
  fun_induction lexFrom depth last position cs generalizing ls with
  | case1 =>
    obtain rfl := Except.ok.inj h
    exact .nil
  | case2 depth last position c rest hc ih => exact .blank hc (ih h)
  | case3 => cases h
  | case4 depth last position c rest hc t left hnext =>
    rename_i size ih
    obtain ⟨ls, hls, rfl⟩ := Token.map_eq_ok h
    obtain ⟨word, rfl, -⟩ := Token.takes_next hnext
    have hsize : size = byteLength (c :: word) := congrArg byteLength (take_word c word left)
    have hrest := ih hls
    rw [hsize] at hrest
    exact .token (Bool.eq_false_iff.2 hc) hnext hrest

/-- The lexer reads a cut as it is. -/
theorem Cut.lexFrom_eq (h : Cut depth last position cs ls) :
    lexFrom depth last position cs = .ok ls := by
  induction h with
  | nil => rw [lexFrom]
  | blank hc rest ih => rw [lexFrom, if_pos hc, ih]
  | @token depth last position c word left t ls hc hnext rest ih =>
    rw [lexFrom, if_neg (Bool.eq_false_iff.1 hc)]
    split
    · rename_i heq
      cases hnext.symm.trans heq
    · rename_i heq
      obtain ⟨rfl, rfl⟩ := Prod.mk.inj (Except.ok.inj (hnext.symm.trans heq))
      simp only [take_word, ih]
      rfl

theorem lexFrom_eq_ok_iff :
    lexFrom depth last position cs = .ok ls ↔ Cut depth last position cs ls :=
  ⟨.of_lexFrom, Cut.lexFrom_eq⟩

/-- Characters are cut into some tokens, wherever they start. -/
def CutsInto (depth : Nat) (last : Option Token) (cs : List Char) (ts : List Token) : Prop :=
  ∀ position, ∃ ls, Cut depth last position cs ls ∧ ls.map Lexeme.token = ts

namespace CutsInto

variable {ts : List Token}

theorem nil : CutsInto depth last [] [] := fun _ => ⟨[], .nil, rfl⟩

theorem blanks (bs : List Char) (hbs : ∀ c ∈ bs, isBlank c = true)
    (h : CutsInto depth last cs ts) : CutsInto depth last (bs ++ cs) ts := by
  induction bs with
  | nil => exact h
  | cons b bs ih =>
    intro position
    obtain ⟨ls, hcut, htokens⟩ := ih (List.forall_mem_cons.1 hbs).2 (position + b.utf8Size)
    exact ⟨ls, .blank (hbs b (.head _)) hcut, htokens⟩

/-- A token that is read, and then a cut of what it leaves. -/
theorem token {c : Char} {rest left : List Char} {t : Token} (hc : isBlank c = false)
    (hnext : Token.next (endsMapName depth last) c rest = .ok (t, left))
    (h : CutsInto (depthAfter depth t) (some t) left ts) :
    CutsInto depth last (c :: rest) (t :: ts) := by
  intro position
  obtain ⟨word, rfl, -⟩ := Token.takes_next hnext
  obtain ⟨ls, hcut, rfl⟩ := h (position + byteLength (c :: word))
  exact ⟨⟨t, position⟩ :: ls, .token hc hnext hcut, rfl⟩

/-- A text that can be cut into tokens is read as them. -/
theorem lex {text : String} (h : CutsInto 0 none text.toList ts) :
    ∃ lexemes, lex text = .ok lexemes ∧ lexemes.map Lexeme.token = ts := by
  obtain ⟨ls, hcut, htokens⟩ := h 0
  exact ⟨ls, hcut.lexFrom_eq, htokens⟩

end CutsInto

/-! ## Where tokens stand -/

/-- A byte where a character starts, among characters that start at a byte themselves. -/
def StartsIn (position : Nat) (cs : List Char) (k : Nat) : Prop :=
  ∃ before c after, cs = before ++ c :: after ∧ k = position + byteLength before

namespace StartsIn

variable {k : Nat}

theorem head (position : Nat) (c : Char) (cs : List Char) : StartsIn position (c :: cs) position :=
  ⟨[], c, cs, rfl, rfl⟩

/-- A start after a word is a start after the word and what comes before. -/
theorem append (word : List Char) (h : StartsIn (position + byteLength word) cs k) :
    StartsIn position (word ++ cs) k := by
  obtain ⟨before, c, after, rfl, rfl⟩ := h
  exact ⟨word ++ before, c, after, (List.append_assoc ..).symm, by rw [byteLength_append]; omega⟩

theorem cons (c : Char) (h : StartsIn (position + c.utf8Size) cs k) :
    StartsIn position (c :: cs) k :=
  append [c] h

theorem le (h : StartsIn position cs k) : position ≤ k := by
  obtain ⟨before, c, after, -, rfl⟩ := h
  exact Nat.le_add_right _ _

/-- A start is before the end of the text. -/
theorem lt (h : StartsIn position cs k) : k < position + byteLength cs := by
  obtain ⟨before, c, after, rfl, rfl⟩ := h
  rw [byteLength_append, byteLength]
  have := c.utf8Size_pos
  omega

end StartsIn

/-- Every token stands at a character of the text. -/
theorem Cut.startsIn (h : Cut depth last position cs ls) :
    ∀ l ∈ ls, StartsIn position cs l.position := by
  induction h with
  | nil => nofun
  | blank hc rest ih => exact fun l hl => (ih l hl).cons _
  | @token depth last position c word left t ls hc hnext rest ih =>
    refine List.forall_mem_cons.2 ⟨.head _ _ _, fun l hl => ?_⟩
    exact (ih l hl).append (c :: word)

/-- The tokens stand one after the other. -/
theorem Cut.pairwise (h : Cut depth last position cs ls) :
    ls.Pairwise fun l l' => l.position < l'.position := by
  induction h with
  | nil => exact .nil
  | blank hc rest ih => exact ih
  | @token depth last position c word left t ls hc hnext rest ih =>
    refine .cons (fun l hl => ?_) ih
    have hle := (rest.startsIn l hl).le
    have := c.utf8Size_pos
    rw [byteLength] at hle
    show position < l.position
    omega

end Cut

end Query

end ItemStore
