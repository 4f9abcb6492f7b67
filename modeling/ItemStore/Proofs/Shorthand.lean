import ItemStore.Proofs.Cuts
import ItemStore.Proofs.Lookups

/-!
# Lookups by a shorthand

A text that says nothing about its one value looks it up as the partition key, and is not read as a
query at all. No query is lost by that, as every query has an operator or a map, and both are
written with characters that such a text is without (`parse_of_isShorthand`). Main statement: the
lookup is that of the queries that spell it out (`Condition.shorthand_spelled_out`).
-/

namespace ItemStore

namespace Query

open Grammar

/-! ## Every query has a mark -/

/-- A token that a query cannot do without: an operator, or the start of a map. -/
def Token.isMark : Token → Bool
  | op _ | openMap => true
  | _ => false

namespace Grammar

mutual

theorem Disjunction.exists_mark : ∀ d : Disjunction, ∃ t ∈ d.tokens, t.isMark = true
  | .one c => c.exists_mark
  | .or c _ => c.exists_mark.imp fun _ h => ⟨List.mem_append_left _ h.1, h.2⟩

theorem Conjunction.exists_mark : ∀ c : Conjunction, ∃ t ∈ c.tokens, t.isMark = true
  | .one p => p.exists_mark
  | .and p _ => p.exists_mark.imp fun _ h => ⟨List.mem_append_left _ h.1, h.2⟩

theorem Primary.exists_mark : ∀ p : Primary, ∃ t ∈ p.tokens, t.isMark = true
  | .group d => d.exists_mark.imp fun _ h => ⟨.tail _ (List.mem_append_left _ h.1), h.2⟩
  | .map _ _ => ⟨.openMap, .head _, rfl⟩
  | .compare _ op _ => ⟨.op op, .tail _ (.head _), rfl⟩

end

end Grammar

namespace Token

theorem isMark_ofWord (word : List Char) : (ofWord word).isMark = false := by
  unfold ofWord
  split <;> rfl

/-- A mark is written with a character that a shorthand is without. -/
theorem next_of_isMark {afterName : Bool} {c : Char} {cs : List Char} {r : Token × List Char}
    (h : next afterName c cs = .ok r) (hmark : r.1.isMark = true) :
    ['?', ':', '=', '<', '>', '!', '\x7b'].contains c = true := by
  revert h
  fun_cases next afterName c cs with
  | case3 | case6 | case7 | case9 | case10 | case11 | case12 | case13 => exact fun _ => by decide
  | case1 | case2 | case4 | case5 | case15 =>
    rintro ⟨⟩
    cases hmark
  | case8 | case16 | case19 => rintro ⟨⟩
  | case14 | case17 =>
    intro h
    obtain ⟨q, -, rfl⟩ := map_eq_ok h
    cases hmark
  | case18 =>
    rintro ⟨⟩
    rw [isMark_ofWord] at hmark
    cases hmark

end Token

/-- A mark among the tokens stands as one of its characters in the text. -/
theorem Cut.exists_mark {depth position : Nat} {last : Option Token} {cs : List Char}
    {ls : List Lexeme} (h : Cut depth last position cs ls) {l : Lexeme} (hl : l ∈ ls)
    (hmark : l.token.isMark = true) :
    ∃ c ∈ cs, ['?', ':', '=', '<', '>', '!', '\x7b'].contains c = true := by
  induction h with
  | nil => cases hl
  | blank _ _ ih => exact (ih hl).imp fun _ h => ⟨.tail _ h.1, h.2⟩
  | token _ hnext _ ih =>
    obtain rfl | hl := List.mem_cons.1 hl
    · exact ⟨_, .head _, Token.next_of_isMark hnext hmark⟩
    · exact (ih hl).imp fun _ h => ⟨.tail _ (List.mem_append_right _ h.1), h.2⟩

/-- A shorthand is no query, so no query is taken for one: its tokens have no mark. -/
theorem parse_of_isShorthand {text : String} (h : Condition.isShorthand text 1 = true) :
    ∃ e, parse text = .error e := by
  cases hparse : parse text with
  | error e => exact ⟨e, rfl⟩
  | ok p =>
    obtain ⟨lexemes, hlex, d, htokens, -⟩ := parse_eq_ok_iff.1 hparse
    obtain ⟨t, ht, hmark⟩ := d.exists_mark
    rw [htokens] at ht
    obtain ⟨l, hl, rfl⟩ := List.mem_map.1 ht
    have hchar := (Cut.of_lexFrom hlex).exists_mark hl hmark
    rw [Condition.isShorthand, List.any_eq_true.2 hchar] at h
    cases h

/-! ## Quoted names -/

/-- Characters with every quote among them written twice. -/
def doubleQuotes : List Char → List Char
  | [] => []
  | c :: cs => if c = '\'' then c :: c :: doubleQuotes cs else c :: doubleQuotes cs

namespace Token

/-- A text with its quotes doubled is read back. -/
theorem readQuoted_doubleQuotes (cs : List Char) {rest : List Char}
    (hrest : Stops (· == '\'') rest) :
    readQuoted '\'' (doubleQuotes cs ++ '\'' :: rest) = some (cs, rest) := by
  induction cs with
  | nil => exact readQuoted_end hrest
  | cons c cs ih =>
    rw [doubleQuotes]
    split
    · rename_i hc
      rw [hc, List.cons_append, List.cons_append, readQuoted_twice, ih]
      rfl
    · rename_i hc
      rw [List.cons_append, readQuoted_cons hc, ih]
      rfl

/-- Every text can be written between quotes. -/
theorem next_doubleQuotes (afterName : Bool) (s : String) {rest : List Char}
    (hrest : Stops (· == '\'') rest) :
    next afterName '\'' (doubleQuotes s.toList ++ '\'' :: rest) = .ok (text s, rest) := by
  simp [next, readQuoted_doubleQuotes s.toList hrest]

end Token

/-- The map that asks for a value of a field, with the name of the field in quotes. -/
def mapText (name : String) : String :=
  "\x7b'" ++ String.ofList (doubleQuotes name.toList) ++ "': ?1\x7d"

/-- The map of a name asks for the field of that name. -/
theorem parse_mapText (name : String) :
    parse (mapText name) = .ok (.compare (equality name 1)) := by
  have hchars : (mapText name).toList =
      '\x7b' :: '\'' :: (doubleQuotes name.toList ++ '\'' :: ": ?1\x7d".toList) := by
    simp [mapText]
  have hstops : Stops (· == '\'') ": ?1\x7d".toList := by
    rintro _ ⟨⟩
    decide
  have hcuts : CutsInto 0 none (mapText name).toList
      [.openMap, .text name, .colon, .positional 1, .closeMap] := by
    rw [hchars]
    refine .token (by decide) rfl ?_
    refine .token (by decide) (Token.next_doubleQuotes _ name hstops) ?_
    refine .token (by decide) rfl (.blanks [' '] (List.forall_mem_singleton.2 (by decide)) ?_)
    exact .token (by decide) rfl (.token (by decide) rfl .nil)
  obtain ⟨lexemes, hlex, htokens⟩ := hcuts.lex
  exact parse_eq_ok_iff.2 ⟨lexemes, hlex,
    .one (.one (.map ⟨.text name, .positional 1⟩ [])), htokens.symm, rfl⟩

example : mapText "maker's mark" = "\x7b'maker''s mark': ?1\x7d" := by
  decide

/-! ## The spelled-out forms -/

/-- The query for a named value. -/
theorem parse_named {name n : String} (hname : IsFieldName name) (hn : IsName n) :
    parse (name ++ " = :" ++ n) = .ok (.compare ⟨name, .eq, .placeholder (.named n)⟩) := by
  have hwritable : Comparison.Writable ⟨name, .eq, .placeholder (.named n)⟩ :=
    ⟨hname.isName, hname.not_isKeyword, .named hn⟩
  have htext : (Predicate.compare ⟨name, .eq, .placeholder (.named n)⟩).display =
      name ++ " = :" ++ n := by
    simp only [Predicate.display, Comparison.display, Operand.display, Placeholder.display,
      String.append_assoc]
    rfl
  rw [← htext]
  exact parse_of_printed
    ((Predicate.Flat.compare _).printed (List.forall_mem_singleton.2 hwritable))

/-- The one value of a call takes the place of the one parameter. -/
theorem Bindings.bind_compare {b : Bindings} {q : Placeholder} {v : Value} (field : String)
    (op : CompareOp) (hvalue : b.get? q = some v) (hall : b.placeholders = [q]) :
    b.bind (.compare ⟨field, op, .placeholder q⟩) = .ok (.compare ⟨field, op, .literal v⟩) := by
  have hused : (Predicate.compare ⟨field, op, .placeholder q⟩).placeholders = [q] := rfl
  have hkind : (q.isPositional && !q.isPositional) = false := Bool.and_not_self _
  simp [Bindings.bind, hused, hkind, hvalue, hall, Predicate.substitute, Comparison.substitute,
    Operand.substitute]

namespace Condition

variable {s : Schema} {text : String}

/-- A lone equality of the partition key with the one parameter is a lookup of its value. -/
theorem ofText_of_equality {b : Bindings} {q : Placeholder} {v : Value}
    (hparse : parse text = .ok (.compare ⟨s.partitionKey.name, .eq, .placeholder q⟩))
    (hvalue : b.get? q = some v) (hall : b.placeholders = [q]) :
    ofText s text b = .ok (.keyEquals v) := by
  rw [ofText_eq, bindText, hparse]
  show (b.bind _).mapError .binding >>= ofPredicate s = _
  rw [Bindings.bind_compare _ _ hvalue hall]
  exact ofPredicate_partition s v

/-- A shorthand is no query, so none is taken for one; and whatever its text, it is the lookup that
these queries spell out: a map from the name of the partition key in quotes, whatever characters
that has, and, if the name can stand in a query as it is, an equality with a parameter by place
or under any name. -/
theorem shorthand_spelled_out (v : Value) (htext : isShorthand text 1 = true) :
    (∃ e, parse text = .error e) ∧ ofQuery s text (.positional [v]) = .ok (.keyEquals v) ∧
      ofQuery s (mapText s.partitionKey.name) (.positional [v]) = .ok (.keyEquals v) ∧
      (IsFieldName s.partitionKey.name →
        ofQuery s (s.partitionKey.name ++ " = ?1") (.positional [v]) = .ok (.keyEquals v) ∧
          ∀ n, IsName n →
            ofQuery s (s.partitionKey.name ++ " = :" ++ n) (.named (({} : Dict Value).insert n v)) =
              .ok (.keyEquals v)) := by
  refine ⟨parse_of_isShorthand htext, if_pos htext, ?_, fun hname => ⟨?_, fun n hn => ?_⟩⟩
  · rw [ofQuery]
    split
    · rfl
    · exact ofText_of_equality (parse_mapText _) rfl rfl
  · exact ofQuery_of_keyQuery (.partition v hname)
  · have hvalue := Dict.get?_insert ({} : Dict Value) n n v
    rw [if_pos rfl] at hvalue
    exact ofText_of_equality (parse_named hname hn) hvalue rfl

end Condition

end Query

/-! ## The readings of a sensor -/

namespace Sample

open Query Query.Condition

/-- A text that says nothing about its value, and two that say it. -/
theorem shorthand_sensor : isShorthand "the sensor" 1 = true ∧
    ofQuery readings "the sensor" (.positional [.text "s1"]) = .ok (.keyEquals (.text "s1")) ∧
      ofQuery readings "\x7b'sensor': ?1\x7d" (.positional [.text "s1"]) =
        .ok (.keyEquals (.text "s1")) ∧
      ofQuery readings "sensor = :null" (.named (({} : Dict Value).insert "null" (.text "s1"))) =
        .ok (.keyEquals (.text "s1")) := by
  have htext : isShorthand "the sensor" 1 = true := by decide
  have hsensor : IsFieldName "sensor" := ⟨.of_toList rfl (by decide) (by decide), by decide⟩
  have hnull : IsName "null" := .of_toList rfl (by decide) (by decide)
  have hmap : mapText "sensor" = "\x7b'sensor': ?1\x7d" := by decide
  have hnamed : "sensor" ++ " = :" ++ "null" = "sensor = :null" := by decide
  obtain ⟨-, hlookup, hspelled, hnames⟩ :=
    shorthand_spelled_out (s := readings) (.text "s1") htext
  rw [← hmap, ← hnamed]
  exact ⟨htext, hlookup, hspelled, (hnames hsensor).2 _ hnull⟩

end Sample

end ItemStore
