import ItemStore.Proofs.Parsing
import ItemStore.Proofs.Scanning

/-!
# Where a syntax error is

Every state of the parser can be completed: what has to come next has an end, and parentheses close
the groups around (`ParserState.exists_completion`). So the tokens that have led to a state can go
on to a query (`Viable`), and with a token that is refused there they cannot, as no other derivation
takes the same tokens to another state. The lexer fails at a character of the text, the parser at a
token or at the end. Main statement: the position of an error is that of the first token that no
query can have there, or the end of a text that is only the start of a query
(`parse_error_position`).
-/

namespace ItemStore

namespace Query

open Grammar

/-! ## Starts of queries -/

/-- Tokens are those of a query. -/
def IsSentence (ts : List Token) : Prop := ∃ d : Disjunction, d.tokens = ts

/-- Tokens can go on to those of a query. -/
def Viable (ts : List Token) : Prop := ∃ us, IsSentence (ts ++ us)

/-- The fewest tokens that end a condition from where it stands. -/
def Pending.completion : Pending → List Token
  | .condition => [.name "a", .op .eq, .null]
  | .operator _ => [.op .eq, .null]
  | .operand _ _ => [.null]
  | .entryName _ => [.name "a", .colon, .null, .closeMap]
  | .entryColon _ _ => [.colon, .null, .closeMap]
  | .entryOperand _ _ => [.null, .closeMap]
  | .entryEnd _ => [.closeMap]
  | .connective => []

namespace ParserState

theorem run_append (s : ParserState) (ts us : List Token) :
    s.run (ts ++ us) = s.run ts >>= fun s => s.run us :=
  List.foldlM_append

/-- What is pending can be completed to a condition. -/
theorem run_completion (s : ParserState) :
    ∃ g, s.run s.pending.completion = .ok ⟨.connective, g, s.enclosing⟩ := by
  obtain ⟨pending, group, enclosing⟩ := s
  cases pending <;> exact ⟨_, rfl⟩

/-- Every group around can be closed. -/
theorem run_closeGroups (g : Group) (enclosing : List Group) :
    ∃ g', run ⟨.connective, g, enclosing⟩ (enclosing.map fun _ => .closeGroup) =
      .ok ⟨.connective, g', []⟩ := by
  induction enclosing generalizing g with
  | nil => exact ⟨g, rfl⟩
  | cons outer enclosing ih => exact ih (outer.push g.close)

/-- From every state there is a way to the end of a query. -/
theorem exists_completion (s : ParserState) :
    ∃ us s' p, s.run us = .ok s' ∧ s'.finish = .ok p := by
  obtain ⟨g, hcondition⟩ := s.run_completion
  obtain ⟨g', hgroups⟩ := run_closeGroups g s.enclosing
  refine ⟨s.pending.completion ++ s.enclosing.map fun _ => .closeGroup, ⟨.connective, g', []⟩,
    g'.close, ?_, rfl⟩
  rw [run_append, hcondition]
  exact hgroups

end ParserState

section Viable

variable {ts : List Token} {s : ParserState}

/-- What the parser has taken can go on to a query. -/
theorem viable_of_run (hrun : ParserState.run {} ts = .ok s) : Viable ts := by
  obtain ⟨us, s', p, hus, hfinish⟩ := s.exists_completion
  have hall : ParserState.run {} (ts ++ us) = .ok s' := by
    rw [ParserState.run_append, hrun]
    exact hus
  obtain ⟨d, htokens, -⟩ := run_finish_iff.1 ⟨s', hall, hfinish⟩
  exact ⟨us, d, htokens⟩

/-- A token that the parser refuses is in no query after those that it has taken. -/
theorem not_viable_of_step (hrun : ParserState.run {} ts = .ok s) {t : Token} {fault : SyntaxFault}
    (hstep : s.step t = .error fault) : ¬Viable (ts ++ [t]) := by
  rintro ⟨us, d, htokens⟩
  obtain ⟨s', hall, -⟩ := run_finish_iff.2 ⟨d, htokens, rfl⟩
  rw [List.append_assoc, ParserState.run_append, hrun] at hall
  have hfails : s.run ([t] ++ us) = .error fault := by
    rw [List.singleton_append, ParserState.run_cons, hstep]
    rfl
  cases hfails.symm.trans hall

/-- Tokens at whose end the parser waits for more are those of no query. -/
theorem not_isSentence_of_finish (hrun : ParserState.run {} ts = .ok s) {fault : SyntaxFault}
    (hfinish : s.finish = .error fault) : ¬IsSentence ts := by
  rintro ⟨d, htokens⟩
  obtain ⟨s', hall, hp⟩ := run_finish_iff.2 ⟨d, htokens, rfl⟩
  obtain rfl := Except.ok.inj (hrun.symm.trans hall)
  cases hfinish.symm.trans hp

end Viable

/-! ## Errors of the lexer -/

namespace Token

variable {part : NumberPart} {cs : List Char} {fault : SyntaxFault}

theorem readDigits_error (h : readDigits part cs = .error fault) : fault = .missingDigits part := by
  unfold readDigits at h
  split at h
  · exact (Except.error.inj h).symm
  · cases h

theorem readFraction_error (h : readFraction cs = .error fault) :
    ∃ part, fault = .missingDigits part := by
  unfold readFraction at h
  split at h
  · exact ⟨_, readDigits_error (map_eq_error h)⟩
  · cases h

theorem readExponent_error (h : readExponent cs = .error fault) :
    ∃ part, fault = .missingDigits part := by
  unfold readExponent at h
  split at h
  · split at h
    · split at h <;> exact ⟨_, readDigits_error (map_eq_error h)⟩
    · cases h
  · cases h

/-- What a number can lack are digits. -/
theorem readMagnitude_error (h : readMagnitude cs = .error fault) :
    ∃ part, fault = .missingDigits part := by
  cases hw : readDigits .whole cs with
  | error e =>
    simp only [readMagnitude, hw, bind, Except.bind] at h
    exact ⟨_, readDigits_error (hw.trans h)⟩
  | ok w =>
    cases hf : readFraction w.2 with
    | error e =>
      simp only [readMagnitude, hw, hf, bind, Except.bind] at h
      exact readFraction_error (hf.trans h)
    | ok f =>
      cases he : readExponent f.2 with
      | error e =>
        simp only [readMagnitude, hw, hf, he, bind, Except.bind] at h
        exact readExponent_error (he.trans h)
      | ok e =>
        rw [readMagnitude_of hw hf he] at h
        cases h

/-- A word that is no token does not make the query empty. -/
theorem next_error {afterName : Bool} {c : Char} (h : next afterName c cs = .error fault) :
    fault ≠ .emptyQuery := by
  revert h
  fun_cases next afterName c cs with
  | case8 | case16 | case19 => rintro ⟨⟩ ⟨⟩
  | case12 =>
    intro h
    unfold readIndex at h
    simp only at h
    split at h
    · cases h
    · cases h
      rintro ⟨⟩
  | case14 | case17 =>
    intro h
    obtain ⟨part, rfl⟩ := readMagnitude_error (map_eq_error h)
    rintro ⟨⟩
  | _ => rintro ⟨⟩

end Token

/-- The lexer fails at a character of the text. -/
theorem lexFrom_error {depth : Nat} {last : Option Token} {position : Nat} {cs : List Char}
    {e : SyntaxError} (h : lexFrom depth last position cs = .error e) :
    StartsIn position cs e.position ∧ e.fault ≠ .emptyQuery := by
  obtain ⟨ls, s, hreads, hposition, c, rest, hleft, -, hnext⟩ := exists_reads_of_lexFrom h
  obtain ⟨before, hcs, hbefore, -⟩ := hreads.cut
  rw [hleft] at hcs
  exact ⟨⟨before, c, rest, hcs, hposition.symm.trans hbefore⟩, Token.next_error hnext⟩

/-! ## Errors of the parser -/

/-- A fault that is placed keeps its cause. -/
theorem eq_error_of_faultAt {α : Type} {position : Nat} {x : Except SyntaxFault α}
    {e : SyntaxError} (h : faultAt position x = .error e) :
    x = .error e.fault ∧ e.position = position := by
  cases x with
  | error fault =>
    obtain rfl := Except.error.inj h
    exact ⟨rfl, rfl⟩
  | ok a => cases h

/-- The parser fails at a token that it refuses, or at the end. -/
theorem parseTokens_error {textEnd : Nat} {s : ParserState} {lexemes : List Lexeme}
    {e : SyntaxError} (h : parseTokens textEnd s lexemes = .error e) :
    (∃ i, ∃ hi : i < lexemes.length, ∃ s', e.position = lexemes[i].position ∧
      s.run ((lexemes.take i).map Lexeme.token) = .ok s' ∧
        s'.step lexemes[i].token = .error e.fault) ∨
      ∃ s', e.position = textEnd ∧ s.run (lexemes.map Lexeme.token) = .ok s' ∧
        s'.finish = .error e.fault := by
  induction lexemes generalizing s with
  | nil =>
    obtain ⟨hfault, hposition⟩ := eq_error_of_faultAt h
    exact .inr ⟨s, hposition, rfl, hfault⟩
  | cons l rest ih =>
    rw [parseTokens] at h
    cases hstep : s.step l.token with
    | error fault =>
      rw [hstep] at h
      obtain rfl := Except.error.inj h
      exact .inl ⟨0, Nat.zero_lt_succ _, s, rfl, rfl, hstep⟩
    | ok s₁ =>
      rw [hstep] at h
      have hrun : ∀ ts, s.run (l.token :: ts) = s₁.run ts := fun ts => by
        rw [ParserState.run_cons, hstep]
        rfl
      obtain ⟨i, hi, s', hposition, hbefore, hfault⟩ | ⟨s', hposition, hall, hfault⟩ := ih h
      · exact .inl ⟨i + 1, Nat.succ_lt_succ hi, s', hposition, (hrun _).trans hbefore, hfault⟩
      · exact .inr ⟨s', hposition, (hrun _).trans hall, hfault⟩

/-- No token makes a query empty. -/
theorem ParserState.step_error {s : ParserState} {t : Token} {fault : SyntaxFault}
    (h : s.step t = .error fault) : fault ≠ .emptyQuery := by
  revert h
  fun_cases ParserState.step s t with
  | case11 =>
    rintro ⟨⟩
    split <;> rintro ⟨⟩
  | _ => rintro ⟨⟩ <;> rintro ⟨⟩

/-- A text that ends too early is not empty. -/
theorem ParserState.finish_error {s : ParserState} {fault : SyntaxFault}
    (h : s.finish = .error fault) : fault ≠ .emptyQuery := by
  revert h
  fun_cases ParserState.finish s <;> rintro ⟨⟩ <;> rintro ⟨⟩

/-! ## Errors of a text -/

section Text

variable {text : String} {lexemes : List Lexeme} {e : SyntaxError}

/-- A text that is read as tokens is no query because it has none, for a token that the parser
refuses, or at its end. -/
theorem parse_error_cases (hlex : lex text = .ok lexemes) (h : parse text = .error e) :
    (lexemes = [] ∧ e = ⟨0, .emptyQuery⟩) ∨
      (∃ i, ∃ hi : i < lexemes.length, ∃ s, e.position = lexemes[i].position ∧
        ParserState.run {} ((lexemes.take i).map Lexeme.token) = .ok s ∧
          s.step lexemes[i].token = .error e.fault) ∨
      ∃ s, e.position = text.utf8ByteSize ∧
        ParserState.run {} (lexemes.map Lexeme.token) = .ok s ∧ s.finish = .error e.fault := by
  rw [parse, hlex] at h
  cases lexemes with
  | nil => exact .inl ⟨rfl, (Except.error.inj h).symm⟩
  | cons l rest => exact .inr (parseTokens_error h)

/-- The position of an error says at which token it is. -/
theorem position_inj (hlex : lex text = .ok lexemes) {i j : Nat} (hi : i < lexemes.length)
    (hj : j < lexemes.length) (h : lexemes[i].position = lexemes[j].position) : i = j := by
  have hpairwise := List.pairwise_iff_getElem.1 (Cut.of_lexFrom hlex).pairwise
  obtain hlt | heq | hgt := Nat.lt_trichotomy i j
  · exact absurd h (Nat.ne_of_lt (hpairwise i j hi hj hlt))
  · exact heq
  · exact absurd h (Nat.ne_of_gt (hpairwise j i hj hi hgt))

/-- Tokens stand before the end of the text. -/
theorem position_lt (hlex : lex text = .ok lexemes) {l : Lexeme} (hl : l ∈ lexemes) :
    l.position < text.utf8ByteSize := by
  have hlt := ((Cut.of_lexFrom hlex).startsIn l hl).lt
  rwa [Nat.zero_add, Text.byteLength_toList] at hlt

/-- A character of a text starts at a boundary. -/
theorem isValid_of_startsIn {k : Nat} (h : StartsIn 0 text.toList k) :
    (⟨k⟩ : String.Pos.Raw).IsValid text := by
  obtain ⟨before, c, after, htext, rfl⟩ := h
  refine String.Pos.Raw.isValid_iff_exists_append.2
    ⟨String.ofList before, String.ofList (c :: after), ?_, ?_⟩
  · rw [← String.ofList_append, ← htext, String.ofList_toList]
  · rw [Nat.zero_add, String.rawEndPos, ← Text.byteLength_toList, String.toList_ofList]

/-- An error stands at a boundary of the text. -/
theorem isValid_of_parse (h : parse text = .error e) :
    (⟨e.position⟩ : String.Pos.Raw).IsValid text := by
  cases hlex : lex text with
  | error e' =>
    rw [parse, hlex] at h
    obtain rfl := Except.error.inj h
    exact isValid_of_startsIn (lexFrom_error hlex).1
  | ok lexemes =>
    obtain ⟨-, rfl⟩ | ⟨i, hi, -, hposition, -⟩ | ⟨-, hposition, -⟩ := parse_error_cases hlex h
    · exact String.Pos.Raw.isValid_iff_exists_append.2 ⟨"", text, String.empty_append.symm, rfl⟩
    · rw [hposition]
      exact isValid_of_startsIn ((Cut.of_lexFrom hlex).startsIn _ (List.getElem_mem hi))
    · rw [hposition]
      exact String.Pos.Raw.isValid_rawEndPos

/-- A query is empty only if it has no tokens. -/
theorem parse_emptyQuery_iff {position : Nat} :
    parse text = .error ⟨position, .emptyQuery⟩ ↔ position = 0 ∧ lex text = .ok [] := by
  constructor
  · intro h
    cases hlex : lex text with
    | error e' =>
      rw [parse, hlex] at h
      obtain rfl := Except.error.inj h
      exact absurd rfl (lexFrom_error hlex).2
    | ok lexemes =>
      obtain ⟨rfl, he⟩ | ⟨i, hi, s, -, -, hstep⟩ | ⟨s, -, -, hfinish⟩ := parse_error_cases hlex h
      · exact ⟨congrArg SyntaxError.position he, rfl⟩
      · exact absurd rfl (ParserState.step_error hstep)
      · exact absurd rfl (ParserState.finish_error hfinish)
  · rintro ⟨rfl, hlex⟩
    rw [parse, hlex]
    rfl

/-- An error at a token: the tokens before it can go on to a query, with it they cannot. -/
theorem viable_before_error (hlex : lex text = .ok lexemes) (h : parse text = .error e) {i : Nat}
    (hi : i < lexemes.length) (he : e.position = lexemes[i].position) :
    Viable ((lexemes.take i).map Lexeme.token) ∧
      ¬Viable ((lexemes.take (i + 1)).map Lexeme.token) := by
  obtain ⟨rfl, -⟩ | ⟨j, hj, s, hposition, hrun, hstep⟩ | ⟨s, hposition, -, -⟩ :=
    parse_error_cases hlex h
  · exact absurd hi (Nat.not_lt_zero i)
  · obtain rfl := position_inj hlex hi hj (he.symm.trans hposition)
    rw [← List.take_append_getElem hi, List.map_append]
    exact ⟨viable_of_run hrun, not_viable_of_step hrun hstep⟩
  · have hlt := position_lt hlex (List.getElem_mem hi)
    rw [← he, hposition] at hlt
    exact absurd hlt (Nat.lt_irrefl _)

/-- An error at the end: the tokens can go on to a query, but are none. -/
theorem viable_at_end (hlex : lex text = .ok lexemes) (h : parse text = .error e)
    (he : e.position = text.utf8ByteSize) :
    Viable (lexemes.map Lexeme.token) ∧ ¬IsSentence (lexemes.map Lexeme.token) := by
  obtain ⟨rfl, -⟩ | ⟨i, hi, s, hposition, -, -⟩ | ⟨s, -, hrun, hfinish⟩ :=
    parse_error_cases hlex h
  · exact ⟨viable_of_run (s := {}) rfl, fun ⟨d, htokens⟩ => d.tokens_ne_nil htokens⟩
  · have hlt := position_lt hlex (List.getElem_mem hi)
    rw [← hposition, he] at hlt
    exact absurd hlt (Nat.lt_irrefl _)
  · exact ⟨viable_of_run hrun, not_isSentence_of_finish hrun hfinish⟩

end Text

/-- Where a text is read as tokens and is no query, the error stands at one of them, at the end of
the text, or at its start if there are none. At a token: those before it can go on to a query, with
it they cannot. At the end: the tokens can go on to a query, and are none. A query is empty if and
only if there are no tokens. Every error, of the lexer too, stands at a boundary of the text. -/
theorem parse_error_position (text : String) :
    (∀ lexemes e, lex text = .ok lexemes → parse text = .error e →
      ((∃ l ∈ lexemes, e.position = l.position) ∨ e.position = text.utf8ByteSize ∨
        lexemes = [] ∧ e.position = 0) ∧
      (∀ i (hi : i < lexemes.length), e.position = lexemes[i].position →
        Viable ((lexemes.take i).map Lexeme.token) ∧
          ¬Viable ((lexemes.take (i + 1)).map Lexeme.token)) ∧
      (e.position = text.utf8ByteSize →
        Viable (lexemes.map Lexeme.token) ∧ ¬IsSentence (lexemes.map Lexeme.token))) ∧
    (∀ position,
      parse text = .error ⟨position, .emptyQuery⟩ ↔ position = 0 ∧ lex text = .ok []) ∧
    ∀ e, parse text = .error e →
      (⟨e.position⟩ : String.Pos.Raw).IsValid text ∧ e.position ≤ text.utf8ByteSize := by
  refine ⟨fun lexemes e hlex h => ⟨?_, ?_, ?_⟩, fun position => parse_emptyQuery_iff,
    fun e h => ⟨isValid_of_parse h, (isValid_of_parse h).le_rawEndPos⟩⟩
  · obtain ⟨rfl, rfl⟩ | ⟨i, hi, -, hposition, -⟩ | ⟨-, hposition, -⟩ := parse_error_cases hlex h
    · exact .inr (.inr ⟨rfl, rfl⟩)
    · exact .inl ⟨_, List.getElem_mem hi, hposition⟩
    · exact .inr (.inl hposition)
  · exact fun i hi he => viable_before_error hlex h hi he
  · exact viable_at_end hlex h

end Query

/-! ## A query that goes wrong, and one that ends too early -/

namespace Sample

open Query

/-- A parenthesis that closes nothing, and a text that ends in a name. -/
theorem parse_error_position_closed :
    parse "größe = 1 AND ) OR" = .error ⟨16, .expected .fieldName (some .closeGroup)⟩ ∧
      Viable [.name "größe", .op .eq, .number "1", .and] ∧
      ¬Viable [.name "größe", .op .eq, .number "1", .and, .closeGroup] ∧
      parse "(größe" = .error ⟨8, .expected .operator none⟩ ∧
      Viable [.openGroup, .name "größe"] ∧ ¬IsSentence [.openGroup, .name "größe"] := by
  have hlex : lex "größe = 1 AND ) OR" = .ok [⟨.name "größe", 0⟩, ⟨.op .eq, 8⟩, ⟨.number "1", 10⟩,
      ⟨.and, 12⟩, ⟨.closeGroup, 16⟩, ⟨.or, 18⟩] := by
    decide +kernel
  have hlex' : lex "(größe" = .ok [⟨.openGroup, 0⟩, ⟨.name "größe", 1⟩] := by
    decide +kernel
  have herror : parse "größe = 1 AND ) OR" =
      .error ⟨16, .expected .fieldName (some .closeGroup)⟩ := by
    rw [parse, hlex]
    rfl
  have herror' : parse "(größe" = .error ⟨8, .expected .operator none⟩ := by
    rw [parse, hlex']
    rfl
  obtain ⟨hbefore, hwith⟩ :=
    ((parse_error_position _).1 _ _ hlex herror).2.1 4 (by decide) rfl
  obtain ⟨hstart, hnone⟩ := ((parse_error_position _).1 _ _ hlex' herror').2.2 (by decide +kernel)
  exact ⟨herror, hbefore, hwith, herror', hstart, hnone⟩

end Sample

end ItemStore
