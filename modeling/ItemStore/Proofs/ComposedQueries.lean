import ItemStore.Proofs.BoundQueries
import ItemStore.Proofs.PrintedQueries
import ItemStore.Proofs.Shorthand

/-!
# Queries that are put together

The tokens of a query close every map that they open (`Disjunction.balanced_tokens`), so a query is
read inside another text as it is read alone, as long as its last word ends where it ends
(`spells_of_parse`). Then it can stand in parentheses, with AND or OR between two of them. Main
statement: such a text says what its parts say, joined (`parse_composed`).
-/

namespace ItemStore

namespace Query

open Grammar

/-! ## Maps are closed -/

/-- The same maps are open after some tokens as before them. -/
def Balanced (ts : List Token) : Prop := ∀ depth, ts.foldl depthAfter depth = depth

namespace Balanced

variable {ts us : List Token}

theorem nil : Balanced [] := fun _ => rfl

theorem cons {t : Token} (ht : ∀ depth, depthAfter depth t = depth) (h : Balanced ts) :
    Balanced (t :: ts) := by
  intro depth
  rw [List.foldl_cons, ht, h]

theorem append (h : Balanced ts) (h' : Balanced us) : Balanced (ts ++ us) := by
  intro depth
  rw [List.foldl_append, h, h']

/-- A map is balanced, if what it holds is. -/
theorem braces (h : Balanced ts) : Balanced (.openMap :: (ts ++ [.closeMap])) := by
  intro depth
  rw [List.foldl_cons, List.foldl_append, h]
  rfl

end Balanced

namespace Grammar

theorem Word.depthAfter_token (w : Word) (depth : Nat) : depthAfter depth w.token = depth := by
  cases w <;> rfl

/-- The entry of a map opens and closes nothing. -/
theorem Entry.balanced_tokens (e : Entry) : Balanced e.tokens := by
  have hname : ∀ depth, depthAfter depth e.name.token = depth := by
    cases e.name <;> exact fun _ => rfl
  exact .cons hname (.cons (fun _ => rfl) (.cons e.operand.depthAfter_token .nil))

theorem balanced_moreTokens : ∀ es : List Entry, Balanced (moreTokens es)
  | [] => .nil
  | e :: es => (Balanced.cons (fun _ => rfl) e.balanced_tokens).append (balanced_moreTokens es)

mutual

theorem Disjunction.balanced_tokens : ∀ d : Disjunction, Balanced d.tokens
  | .one c => c.balanced_tokens
  | .or c rest => c.balanced_tokens.append (.cons (fun _ => rfl) rest.balanced_tokens)

theorem Conjunction.balanced_tokens : ∀ c : Conjunction, Balanced c.tokens
  | .one p => p.balanced_tokens
  | .and p rest => p.balanced_tokens.append (.cons (fun _ => rfl) rest.balanced_tokens)

theorem Primary.balanced_tokens : ∀ p : Primary, Balanced p.tokens
  | .group d => .cons (fun _ => rfl) (d.balanced_tokens.append (.cons (fun _ => rfl) .nil))
  | .map first rest => (first.balanced_tokens.append (balanced_moreTokens rest)).braces
  | .compare _ _ operand =>
    .cons (fun _ => rfl) (.cons (fun _ => rfl) (.cons operand.depthAfter_token .nil))

end

end Grammar

/-! ## A text inside another -/

/-- Characters are read as tokens after any token if they are cut into them after any. -/
theorem lexes_iff {cs : List Char} {ts : List Token} :
    Lexes cs ts ↔ ∀ last, CutsInto 0 last cs ts := by
  simp only [Lexes, CutsInto, lexFrom_eq_ok_iff]

/-- A text that has to end there lets what comes before it end as it does. -/
theorem Ends.endsAs {rest : List Char} (h : Ends rest) (left : List Char) :
    EndsAs left (left ++ rest) := by
  have hends : EndsAs [] rest := by
    intro c hc
    obtain rfl | rfl := h c hc <;> exact .inl (by decide)
  have happend := hends.append left
  rwa [List.append_nil] at happend

/-- Characters are cut into the same tokens with others after them, before which the last word ends.
The token before them matters only if the first character is read otherwise after it. -/
theorem Cut.append {depth position : Nat} {last last' : Option Token} {cs rest : List Char}
    {ls : List Lexeme} {us : List Token} (h : Cut depth last position cs ls)
    (hlast : endsMapName depth last' = endsMapName depth last) (hends : Ends rest)
    (hrest : ∀ last, CutsInto ((ls.map Lexeme.token).foldl depthAfter depth) last rest us) :
    CutsInto depth last' (cs ++ rest) (ls.map Lexeme.token ++ us) := by
  induction h generalizing last' with
  | nil => exact hrest last'
  | blank hc _ ih => exact .blanks [_] (List.forall_mem_singleton.2 hc) (ih hlast hrest)
  | @token depth last position c word left t ls hc hnext _ ih =>
    have hword := (Token.takes_word hnext).2 (left ++ rest) (hends.endsAs left)
    rw [← hlast, ← List.append_assoc] at hword
    exact .token hc hword (ih rfl hrest)

/-- A query is read as its tokens wherever it stands. -/
theorem spells_of_parse {text : String} {p : Predicate} (h : parse text = .ok p) :
    ∃ d : Disjunction, d.predicate = p ∧ Spells text d.tokens := by
  obtain ⟨lexemes, hlex, d, htokens, hpredicate⟩ := parse_eq_ok_iff.1 h
  refine ⟨d, hpredicate, fun rest us hends hrest => lexes_iff.2 fun last => ?_⟩
  rw [htokens]
  refine (Cut.of_lexFrom hlex).append rfl hends fun last => ?_
  rw [← htokens, d.balanced_tokens]
  exact lexes_iff.1 hrest last

/-! ## Parentheses and connectives -/

variable {text text' : String} {p p' : Predicate}

/-- Parentheses around a query say nothing. -/
theorem parse_parentheses (h : parse text = .ok p) : parse ("(" ++ text ++ ")") = .ok p := by
  obtain ⟨d, rfl, hspells⟩ := spells_of_parse h
  have hgroup : Spells ("(" ++ text ++ ")") (Disjunction.one (.one (.group d))).tokens :=
    hspells.group
  rw [hgroup.parse_eq, Disjunction.predicate_one, Conjunction.parts, conjoin_primary]
  rfl

/-- A word between two queries in parentheses. -/
theorem spells_between {d d' : Disjunction} {word : String} {t : Token}
    (h : Spells text d.tokens) (hword : Spells word [t]) (h' : Spells text' d'.tokens) :
    Spells ("(" ++ text ++ ") " ++ word ++ " (" ++ text' ++ ")")
      ((Primary.group d).tokens ++ t :: (Primary.group d').tokens) := by
  have hspells := (h.group.space hword).space h'.group
  have htext : "(" ++ text ++ ")" ++ " " ++ word ++ " " ++ ("(" ++ text' ++ ")") =
      "(" ++ text ++ ") " ++ word ++ " (" ++ text' ++ ")" := by
    have hclose : ") " = ")" ++ " " := rfl
    have hopen : " (" = " " ++ "(" := rfl
    rw [hclose, hopen]
    simp only [String.append_assoc]
  rwa [htext, List.append_assoc] at hspells

/-- Two queries in parentheses, with AND between them. -/
theorem parse_and (h : parse text = .ok p) (h' : parse text' = .ok p') :
    parse ("(" ++ text ++ ") AND (" ++ text' ++ ")") = .ok (.conjoin [p, p']) := by
  obtain ⟨d, rfl, hspells⟩ := spells_of_parse h
  obtain ⟨d', rfl, hspells'⟩ := spells_of_parse h'
  have hand : Spells _ (Disjunction.one (.and (.group d) (.one (.group d')))).tokens :=
    spells_between hspells .and hspells'
  have htext : "(" ++ text ++ ") " ++ "AND" ++ " (" ++ text' ++ ")" =
      "(" ++ text ++ ") AND (" ++ text' ++ ")" := by
    have hword : ") AND (" = ") " ++ "AND" ++ " (" := rfl
    rw [hword]
    simp only [String.append_assoc]
  rw [← htext, hand.parse_eq, Disjunction.predicate_one]
  rfl

/-- Two queries in parentheses, with OR between them. -/
theorem parse_or (h : parse text = .ok p) (h' : parse text' = .ok p') :
    parse ("(" ++ text ++ ") OR (" ++ text' ++ ")") = .ok (.disjoin [p, p']) := by
  obtain ⟨d, rfl, hspells⟩ := spells_of_parse h
  obtain ⟨d', rfl, hspells'⟩ := spells_of_parse h'
  have hor : Spells _ (Disjunction.or (.one (.group d)) (.one (.one (.group d')))).tokens :=
    spells_between hspells .or hspells'
  have htext : "(" ++ text ++ ") " ++ "OR" ++ " (" ++ text' ++ ")" =
      "(" ++ text ++ ") OR (" ++ text' ++ ")" := by
    have hword : ") OR (" = ") " ++ "OR" ++ " (" := rfl
    rw [hword]
    simp only [String.append_assoc]
  rw [← htext, hor.parse_eq, Disjunction.predicate, Disjunction.parts, Disjunction.parts,
    Conjunction.parts, Conjunction.parts, conjoin_primary, conjoin_primary]
  rfl

/-! ## What joined queries hold of -/

theorem substituteAll_eq_map (values : Placeholder → Option Value) (ps : List Predicate) :
    Predicate.substituteAll values ps = ps.map (Predicate.substitute values) := by
  induction ps with
  | nil => rfl
  | cons p ps ih => rw [Predicate.substituteAll, ih, List.map_cons]

/-- A filled conjunction holds if all of its parts do. -/
theorem holds_substitute_conjoin (values : Placeholder → Option Value) (item : Item)
    (ps : List Predicate) : ((Predicate.conjoin ps).substitute values).holds item =
      ps.all fun p => (p.substitute values).holds item := by
  refine Predicate.all_conjoin (f := fun p => (p.substitute values).holds item) (fun ps => ?_) ps
  rw [Predicate.substitute, Predicate.holds_and, substituteAll_eq_map, List.all_map]
  rfl

/-- A filled disjunction holds if one of its parts does. -/
theorem holds_substitute_disjoin (values : Placeholder → Option Value) (item : Item)
    (ps : List Predicate) : ((Predicate.disjoin ps).substitute values).holds item =
      ps.any fun p => (p.substitute values).holds item := by
  refine Predicate.any_disjoin (f := fun p => (p.substitute values).holds item) (fun ps => ?_) ps
  rw [Predicate.substitute, Predicate.holds_or, substituteAll_eq_map, List.any_map]
  rfl

namespace Condition

variable {s : Schema} {b : Bindings}

/-- What is read as a query is no shorthand. -/
theorem ofQuery_of_parse (h : parse text = .ok p) :
    ofQuery s text b = (b.bind p).mapError .binding >>= ofPredicate s := by
  have hquery : isShorthand text 1 = false := by
    refine Bool.eq_false_iff.2 fun hshorthand => ?_
    obtain ⟨e, he⟩ := parse_of_isShorthand hshorthand
    cases h.symm.trans he
  have htext : ofText s text b = (b.bind p).mapError .binding >>= ofPredicate s := by
    rw [ofText, h]
    rfl
  rw [← htext]
  unfold ofQuery
  split
  · exact if_neg (Bool.eq_false_iff.1 hquery)
  · rfl

/-- A query has a condition if its parameters are just those that have values and its fields are
declared. -/
theorem exists_ofQuery_of_parse (h : parse text = .ok p) :
    (∃ c, ofQuery s text b = .ok c) ↔ b.Fits p ∧ p.Declared s := by
  rw [ofQuery_of_parse h]
  obtain ⟨fault, hloose, hbind⟩ | ⟨hfits, hbind⟩ := b.bind_cases p
  · rw [hbind]
    exact ⟨nofun, fun hboth => absurd hboth.1 hloose.not_fits⟩
  · rw [hbind]
    show (∃ c, ofPredicate s (p.substitute b.get?) = .ok c) ↔ _
    rw [exists_ofPredicate_iff, Predicate.comparisons_substitute, List.forall_mem_map,
      and_iff_right hfits]
    exact forall₂_congr fun d hd => and_iff_left (hfits.isSome_literal? d hd)

/-- The condition of a query selects and passes what the query holds of with its values put in. -/
theorem selects_and_passes_of_parse {c : Condition} (h : parse text = .ok p)
    (hc : ofQuery s text b = .ok c) (item : Item) :
    (c.selects s item && c.passes item) = (p.substitute b.get?).holds item := by
  rw [ofQuery_of_parse h] at hc
  obtain ⟨fault, -, hbind⟩ | ⟨-, hbind⟩ := b.bind_cases p
  · rw [hbind] at hc
    cases hc
  · rw [hbind] at hc
    exact selects_and_passes_of_ofPredicate hc item

end Condition

open Condition

/-- A text asks for two queries joined. -/
structure Joined (join : Bool → Bool → Bool) (p₁ p₂ : Predicate) (text : String) : Prop where
  /-- There is a condition if the values are those of the parameters of both, and their fields are
  declared. -/
  accepted : ∀ s b, (∃ c, ofQuery s text b = .ok c) ↔
    (∀ q, q ∈ p₁.placeholders ∨ q ∈ p₂.placeholders ↔ b.Supplies q) ∧ p₁.Declared s ∧ p₂.Declared s
  meaning : ∀ s b c, ofQuery s text b = .ok c → ∀ item, (c.selects s item && c.passes item) =
    join ((p₁.substitute b.get?).holds item) ((p₂.substitute b.get?).holds item)

/-- A text that parses to a joined predicate is joined in its comparisons and in what it means. -/
theorem joined_of_parse {join : Bool → Bool → Bool} {p₁ p₂ : Predicate} (h : parse text = .ok p)
    (hcomparisons : p.comparisons = p₁.comparisons ++ p₂.comparisons)
    (hholds : ∀ values item, (p.substitute values).holds item =
      join ((p₁.substitute values).holds item) ((p₂.substitute values).holds item)) :
    Joined join p₁ p₂ text where
  accepted s b := by
    have hplaceholders : ∀ q, q ∈ p.placeholders ↔ q ∈ p₁.placeholders ∨ q ∈ p₂.placeholders := by
      intro q
      simp only [Predicate.mem_placeholders, hcomparisons, List.mem_append, or_and_right,
        exists_or]
    rw [exists_ofQuery_of_parse h, Bindings.Fits, Predicate.Declared, hcomparisons,
      List.forall_mem_append]
    simp only [hplaceholders]
    rfl
  meaning s b c hc item := by
    rw [selects_and_passes_of_parse h hc, hholds]

/-- Query texts compose. In parentheses a query says the same, and asks for the same whatever values
come with it. Two queries in parentheses with AND between them are their conjunction, and with OR
between them their disjunction: the condition of such a text selects and passes the items that both
queries hold of, or one of them. -/
theorem parse_composed {t t₁ t₂ : String} {p p₁ p₂ : Predicate} (h : parse t = .ok p)
    (h₁ : parse t₁ = .ok p₁) (h₂ : parse t₂ = .ok p₂) :
    (parse ("(" ++ t ++ ")") = .ok p ∧
        ∀ s b, ofQuery s ("(" ++ t ++ ")") b = ofQuery s t b) ∧
      (parse ("(" ++ t₁ ++ ") AND (" ++ t₂ ++ ")") = .ok (.conjoin [p₁, p₂]) ∧
        Joined (· && ·) p₁ p₂ ("(" ++ t₁ ++ ") AND (" ++ t₂ ++ ")")) ∧
      parse ("(" ++ t₁ ++ ") OR (" ++ t₂ ++ ")") = .ok (.disjoin [p₁, p₂]) ∧
        Joined (· || ·) p₁ p₂ ("(" ++ t₁ ++ ") OR (" ++ t₂ ++ ")") := by
  have hgroup := parse_parentheses h
  have hand := parse_and h₁ h₂
  have hor := parse_or h₁ h₂
  have hcomparisons :
      [p₁, p₂].flatMap Predicate.comparisons = p₁.comparisons ++ p₂.comparisons := by
    simp
  refine ⟨⟨hgroup, fun s b => ?_⟩, ⟨hand, ?_⟩, hor, ?_⟩
  · rw [ofQuery_of_parse hgroup, ofQuery_of_parse h]
  · refine joined_of_parse hand ((Predicate.Joint.comparisons_join .and _).trans hcomparisons) ?_
    intro values item
    rw [holds_substitute_conjoin]
    simp
  · refine joined_of_parse hor ((Predicate.Joint.comparisons_join .or _).trans hcomparisons) ?_
    intro values item
    rw [holds_substitute_disjoin]
    simp

end Query

/-! ## A text with a parenthesis in quotes -/

namespace Sample

open Query

/-- A quoted parenthesis does not close a group. -/
theorem parse_composed_quoted :
    parse "sensor = 'a)'" = .ok (.compare ⟨"sensor", .eq, .literal (.text "a)")⟩) ∧
      parse "value < 0 OR {ts: :from}" =
        .ok (.or [.compare ⟨"value", .lt, .literal (.number "0")⟩,
          .compare ⟨"ts", .eq, .placeholder (.named "from")⟩]) ∧
      parse "((sensor = 'a)')) AND (value < 0 OR {ts: :from})" =
        .ok (.and [.compare ⟨"sensor", .eq, .literal (.text "a)")⟩,
          .or [.compare ⟨"value", .lt, .literal (.number "0")⟩,
            .compare ⟨"ts", .eq, .placeholder (.named "from")⟩]]) := by
  have hsensor : parse "sensor = 'a)'" =
      .ok (.compare ⟨"sensor", .eq, .literal (.text "a)")⟩) := by
    have hlex : lex "sensor = 'a)'" =
        .ok [⟨.name "sensor", 0⟩, ⟨.op .eq, 7⟩, ⟨.text "a)", 9⟩] := by
      decide +kernel
    exact parse_eq_ok_iff.2 ⟨_, hlex, .one (.one (.compare "sensor" .eq (.text "a)"))), rfl, rfl⟩
  have hvalue : parse "value < 0 OR {ts: :from}" =
      .ok (.or [.compare ⟨"value", .lt, .literal (.number "0")⟩,
        .compare ⟨"ts", .eq, .placeholder (.named "from")⟩]) := by
    have hlex : lex "value < 0 OR {ts: :from}" =
        .ok [⟨.name "value", 0⟩, ⟨.op .lt, 6⟩, ⟨.number "0", 8⟩, ⟨.or, 10⟩, ⟨.openMap, 13⟩,
          ⟨.name "ts", 14⟩, ⟨.colon, 16⟩, ⟨.named "from", 18⟩, ⟨.closeMap, 23⟩] := by
      decide +kernel
    exact parse_eq_ok_iff.2 ⟨_, hlex, .or (.one (.compare "value" .lt (.number "0")))
      (.one (.one (.map ⟨.name "ts", .named "from"⟩ []))), rfl, rfl⟩
  obtain ⟨⟨hgroup, -⟩, -⟩ := parse_composed hsensor hsensor hvalue
  obtain ⟨-, ⟨hand, -⟩, -⟩ := parse_composed hsensor hgroup hvalue
  exact ⟨hsensor, hvalue, hand⟩

end Sample

end ItemStore
