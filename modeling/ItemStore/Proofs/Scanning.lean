import ItemStore.Proofs.Cuts

/-!
# How far the lexer comes

The lexer goes through a text and reads tokens on its way (`Reads`). Where it fails, it has come to
the place, and the next characters are no token (`exists_reads_of_lexFrom`). What it has read does
not depend on what comes after that: the words before the place end there as well, so the characters
up to it are cut into the same tokens (`Reads.cut`).
-/

namespace ItemStore

namespace Query

open Text

/-- Where the lexer stands: the number of open maps, the last token, the byte, and the characters
that are left. -/
structure Stand where
  depth : Nat
  last : Option Token
  position : Nat
  left : List Char

/-- The lexer before a text. -/
def Stand.start (text : String) : Stand := ⟨0, none, 0, text.toList⟩

/-- The next characters are no token. -/
def Stand.Fails (s : Stand) (fault : SyntaxFault) : Prop :=
  ∃ c rest, s.left = c :: rest ∧ isBlank c = false ∧
    Token.next (endsMapName s.depth s.last) c rest = .error fault

/-- The lexer goes from one place to another and reads tokens on its way. -/
inductive Reads : Stand → List Lexeme → Stand → Prop where
  | stay (s : Stand) : Reads s [] s
  | blank {depth : Nat} {last : Option Token} {position : Nat} {c : Char} {cs : List Char}
    {ls : List Lexeme} {s : Stand} (hc : isBlank c = true)
    (rest : Reads ⟨depth, last, position + c.utf8Size, cs⟩ ls s) :
    Reads ⟨depth, last, position, c :: cs⟩ ls s
  | token {depth : Nat} {last : Option Token} {position : Nat} {c : Char} {word left : List Char}
    {t : Token} {ls : List Lexeme} {s : Stand} (hc : isBlank c = false)
    (next : Token.next (endsMapName depth last) c (word ++ left) = .ok (t, left))
    (rest : Reads ⟨depthAfter depth t, some t, position + byteLength (c :: word), left⟩ ls s) :
    Reads ⟨depth, last, position, c :: (word ++ left)⟩ (⟨t, position⟩ :: ls) s

theorem Token.map_eq_error {ε α β : Type} {f : α → β} {x : Except ε α} {e : ε}
    (h : x.map f = .error e) : x = .error e := by
  cases x with
  | error e' => exact congrArg Except.error (Except.error.inj h)
  | ok a => cases h

/-- Where the lexer fails, it has come to the place, and there is no token. -/
theorem exists_reads_of_lexFrom {depth : Nat} {last : Option Token} {position : Nat}
    {cs : List Char} {e : SyntaxError} (h : lexFrom depth last position cs = .error e) :
    ∃ ls s, Reads ⟨depth, last, position, cs⟩ ls s ∧ s.position = e.position ∧ s.Fails e.fault := by
  fun_induction lexFrom depth last position cs with
  | case1 => cases h
  | case2 depth last position c rest hc ih =>
    obtain ⟨ls, s, hreads, hfails⟩ := ih h
    exact ⟨ls, s, .blank hc hreads, hfails⟩
  | case3 depth last position c rest hc fault hnext =>
    obtain rfl := Except.error.inj h
    exact ⟨[], _, .stay _, rfl, c, rest, rfl, Bool.eq_false_iff.2 hc, hnext⟩
  | case4 depth last position c rest hc t left hnext =>
    rename_i size ih
    obtain ⟨word, rfl, -⟩ := Token.takes_next hnext
    have hsize : size = byteLength (c :: word) := congrArg byteLength (take_word c word left)
    obtain ⟨ls, s, hreads, hfails⟩ := ih (Token.map_eq_error h)
    rw [hsize] at hreads
    exact ⟨_, s, .token (Bool.eq_false_iff.2 hc) hnext hreads, hfails⟩

/-- A word that ends before some characters ends before the first few of them. -/
theorem endsAs_of_append (before left : List Char) : EndsAs (before ++ left) before := by
  have hends : EndsAs left [] := nofun
  have happend := hends.append before
  rwa [List.append_nil] at happend

/-- What has been read on the way is cut into the same tokens when nothing comes after it. -/
theorem Reads.cut {s s' : Stand} {ls : List Lexeme} (h : Reads s ls s') :
    ∃ before, s.left = before ++ s'.left ∧ s'.position = s.position + byteLength before ∧
      Cut s.depth s.last s.position before ls := by
  induction h with
  | stay s => exact ⟨[], rfl, rfl, .nil⟩
  | @blank depth last position c cs ls s hc rest ih =>
    obtain ⟨before, hleft, hposition, hcut⟩ := ih
    exact ⟨c :: before, congrArg (c :: ·) hleft, hposition.trans (Nat.add_assoc _ _ _),
      .blank hc hcut⟩
  | @token depth last position c word left t ls s hc hnext rest ih =>
    obtain ⟨before, hleft, hposition, hcut⟩ := ih
    dsimp only at hleft hposition hcut
    refine ⟨c :: (word ++ before), ?_, ?_, ?_⟩
    · rw [hleft, List.cons_append, List.append_assoc]
    · rw [hposition, Nat.add_assoc, ← byteLength_append, List.cons_append]
    · -- What is read after the word starts as all that is left does.
      have hends : EndsAs left before := hleft ▸ endsAs_of_append before s.left
      exact .token hc ((Token.takes_word hnext).2 before hends) hcut

end Query

end ItemStore
