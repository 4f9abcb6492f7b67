import Mathlib.Data.List.Nodup
import ItemStore.Proofs.Numbering
import ItemStore.Proofs.ParameterValues
import ItemStore.Proofs.RenderedConditions
import ItemStore.Proofs.RenderedUpdates

/-!
# Texts refer to what the tables define

A remote store refuses an expression whose texts have an alias or a placeholder that its tables do
not define, or whose tables define one that its texts do not have. The words of a rendered text are
followed by the numbers that they refer to (`Refers`), part by part; these are the numbers that were
given (`Aliases.Numbers`), so the tables define exactly what is referred to (`Defines`). What an
update changes is read off its text and its tables (`Changes`). Main statement: `render_defines`,
for conditions without unbound parameters and for updates.
-/

namespace ItemStore

namespace Remote

open Query

/-! ## What words refer to -/

namespace Word

/-- The alias of a field that a word is. -/
def name? : Word → Option String
  | name label => some label
  | _ => none

/-- The placeholder of a value that a word is. -/
def value? : Word → Option String
  | value placeholder => some placeholder
  | _ => none

/-- Whether the language of expressions has a word. -/
def isKnown : Word → Bool
  | other _ => false
  | _ => true

end Word

/-- Words refer to the fields and values that have these numbers, in this order. -/
structure Refers (ws : List Word) (fs vs : List Nat) : Prop where
  names : ws.filterMap Word.name? = fs.map Aliases.fieldAlias
  values : ws.filterMap Word.value? = vs.map Aliases.valueAlias
  known : ∀ w ∈ ws, w.isKnown = true

/-- The tables of an expression define what its words refer to, and nothing else. -/
structure Defines (ws : List Word) (names : Dict String) (values : Dict Value) : Prop where
  name : ∀ label, .name label ∈ ws ↔ names.contains label = true
  /-- No field has two aliases. -/
  apart : ∀ label label' field, names.get? label = some field → names.get? label' = some field →
    label = label'
  /-- A placeholder is used once if it is defined, and else not at all. -/
  value : ∀ placeholder,
    ws.count (.value placeholder) = if values.contains placeholder then 1 else 0
  known : ∀ w ∈ ws, w.isKnown = true

section Refers

variable {ws v w : List Word} {fs fs' vs vs' : List Nat} {us : List Value} {a : Aliases}

theorem refers_nil : Refers [] [] [] :=
  ⟨rfl, rfl, nofun⟩

/-- Words one after the other refer to what both refer to. -/
theorem Refers.append (hv : Refers v fs vs) (hw : Refers w fs' vs') :
    Refers (v ++ w) (fs ++ fs') (vs ++ vs') where
  names := by rw [List.filterMap_append, List.map_append, hv.names, hw.names]
  values := by rw [List.filterMap_append, List.map_append, hv.values, hw.values]
  known := List.forall_mem_append.2 ⟨hv.known, hw.known⟩

/-- The names among the words are the aliases of the fields. -/
theorem Refers.mem_name (h : Refers ws fs vs) {label : String} :
    .name label ∈ ws ↔ ∃ i ∈ fs, Aliases.fieldAlias i = label := by
  rw [← List.mem_map, ← h.names, List.mem_filterMap]
  constructor
  · exact fun hmem => ⟨_, hmem, rfl⟩
  · rintro ⟨word, hmem, hlabel⟩
    cases word <;> cases hlabel
    exact hmem

/-- As often as a placeholder is among the words, the number of its value is among the numbers. -/
theorem Refers.count_value (h : Refers ws fs vs) (placeholder : String) :
    ws.count (.value placeholder) = (vs.map Aliases.valueAlias).count placeholder := by
  rw [← h.values, List.count_filterMap]
  refine List.countP_congr fun word _ => ?_
  cases word <;> simp [Word.value?]

/-- Numbers that are given one after the other are those that the tables define. -/
theorem Refers.defines (h : Refers ws fs vs) (ha : Aliases.Numbers {} a fs vs us) :
    Defines ws a.names a.valueTable where
  name label := by
    rw [h.mem_name, Dict.contains_eq_isSome, Option.isSome_iff_exists]
    simp only [Aliases.get?_names_eq_some]
    constructor
    · rintro ⟨i, hi, rfl⟩
      have hlt : i < a.fields.length := (ha.fields i).2 (.inr hi)
      exact ⟨_, i, rfl, List.getElem?_eq_getElem hlt⟩
    · rintro ⟨field, i, rfl, hfield⟩
      have hlt := (List.getElem?_eq_some_iff.1 hfield).1
      exact ⟨i, ((ha.fields i).1 hlt).resolve_left (by simp), rfl⟩
  apart label label' field hlabel hlabel' := by
    obtain ⟨i, rfl, hi⟩ := Aliases.get?_names_eq_some.1 hlabel
    obtain ⟨j, rfl, hj⟩ := Aliases.get?_names_eq_some.1 hlabel'
    have hlt := (List.getElem?_eq_some_iff.1 hi).1
    rw [(List.getElem?_inj hlt (ha.nodup .nil)).1 (hi.trans hj.symm)]
  value placeholder := by
    -- Every value got a number of its own, so none is counted twice.
    have hdistinct : (vs.map Aliases.valueAlias).Nodup := by
      rw [ha.order]
      exact List.Nodup.map (fun i j => Aliases.valueAlias_inj.1) List.nodup_range'
    have hmem : placeholder ∈ vs.map Aliases.valueAlias ↔
        a.valueTable.contains placeholder = true := by
      rw [Dict.contains_eq_isSome, Option.isSome_iff_exists, List.mem_map, ha.order]
      simp only [Aliases.get?_valueTable_eq_some, ha.values, List.nil_append, List.mem_range'_1]
      constructor
      · rintro ⟨i, hi, rfl⟩
        have hlt : i < us.length := by simpa using hi
        exact ⟨_, i, rfl, List.getElem?_eq_getElem hlt⟩
      · rintro ⟨value, i, rfl, hvalue⟩
        have hlt := (List.getElem?_eq_some_iff.1 hvalue).1
        exact ⟨i, by simpa using hlt, rfl⟩
    rw [h.count_value, hdistinct.count, if_congr hmem rfl rfl]
  known := h.known

end Refers

/-! ## What texts refer to -/

/-- A text refers to fields and values, and there is no blank at its ends. -/
def Mentions (text : String) (fs vs : List Nat) : Prop :=
  ∃ ws, Written text ws ∧ Refers ws fs vs

/-- Texts refer to fields and values one after the other. -/
inductive MentionAll : List String → List Nat → List Nat → Prop where
  | nil : MentionAll [] [] []
  | cons {text : String} {texts : List String} {fs fs' vs vs' : List Nat}
    (h : Mentions text fs vs) (hrest : MentionAll texts fs' vs') :
    MentionAll (text :: texts) (fs ++ fs') (vs ++ vs')

/-- What stands between two texts refers to nothing and keeps their words apart. -/
def Separates (between : String) : Prop :=
  ∀ {text text' : String} {fs fs' vs vs' : List Nat}, Mentions text fs vs →
    Mentions text' fs' vs' → Mentions (text ++ between ++ text') (fs ++ fs') (vs ++ vs')

section Mentions

variable {text between : String} {texts : List String} {fs vs : List Nat}

theorem Mentions.refers (h : Mentions text fs vs) : Refers (words text) fs vs := by
  obtain ⟨ws, hwritten, hrefers⟩ := h
  exact hwritten.words ▸ hrefers

/-- A word of the language mentions nothing. -/
theorem mentions_keyword {word : Word} (h : (text, word) ∈ vocabulary) : Mentions text [] [] := by
  have hall : ∀ e ∈ vocabulary, e.2.name? = none ∧ e.2.value? = none ∧ e.2.isKnown = true := by
    decide
  obtain ⟨hname, hvalue, hknown⟩ := hall _ h
  refine ⟨[word], .of_vocabulary h, ?_, ?_, ?_⟩
  · rw [List.filterMap_cons_none hname]
    rfl
  · rw [List.filterMap_cons_none hvalue]
    rfl
  · exact List.forall_mem_singleton.2 hknown

theorem mentions_fieldAlias (i : Nat) : Mentions (Aliases.fieldAlias i) [i] [] :=
  ⟨_, .fieldAlias i, rfl, rfl, List.forall_mem_singleton.2 rfl⟩

theorem mentions_valueAlias (i : Nat) : Mentions (Aliases.valueAlias i) [] [i] :=
  ⟨_, .valueAlias i, rfl, rfl, List.forall_mem_singleton.2 rfl⟩

theorem mentions_symbol (op : CompareOp) : Mentions op.symbol [] [] :=
  ⟨_, .symbol op, rfl, rfl, List.forall_mem_singleton.2 rfl⟩

theorem separates_blank : Separates " " := by
  rintro _ _ _ _ _ _ ⟨_, hwritten, hrefers⟩ ⟨_, hwritten', hrefers'⟩
  exact ⟨_, hwritten.space hwritten', hrefers.append hrefers'⟩

theorem separates_comma : Separates ", " := by
  rintro _ _ _ _ _ _ ⟨_, hwritten, hrefers⟩ ⟨_, hwritten', hrefers'⟩
  have hcomma : Refers [.comma] [] [] := ⟨rfl, rfl, by decide⟩
  exact ⟨_, hwritten.comma hwritten', hrefers.append (hcomma.append hrefers')⟩

/-- A word of the language separates if it stands between blanks. -/
theorem separates_keyword (sep : String) (word : Word) (hsep : (sep, word) ∈ vocabulary)
    (hbetween : between = " " ++ sep ++ " ") : Separates between := by
  intro text text' _ _ _ _ h h'
  have htext : text ++ between ++ text' = text ++ " " ++ (sep ++ " " ++ text') := by
    rw [hbetween]
    simp only [String.append_assoc]
  rw [htext]
  exact separates_blank h (separates_blank (mentions_keyword hsep) h')

/-- Texts with a separator mention what they mention without it. -/
theorem MentionAll.intercalate (hbetween : Separates between) (h : MentionAll texts fs vs)
    (hne : texts ≠ []) : Mentions (between.intercalate texts) fs vs := by
  induction h with
  | nil => exact absurd rfl hne
  | @cons text texts _ _ _ _ h hrest ih =>
    cases texts with
    | nil =>
      cases hrest
      rw [List.append_nil, List.append_nil, String.intercalate_singleton]
      exact h
    | cons next texts =>
      rw [String.intercalate_cons_cons]
      exact hbetween h (ih (List.cons_ne_nil _ _))

/-- A list without texts has no words. -/
theorem MentionAll.refers (hbetween : Separates between) (h : MentionAll texts fs vs) :
    Refers (words (between.intercalate texts)) fs vs := by
  cases h with
  | nil => exact refers_nil
  | cons h hrest => exact ((MentionAll.cons h hrest).intercalate hbetween (by simp)).refers

/-- Parentheses mention nothing more. -/
theorem Refers.parentheses (h : Refers (words text) fs vs) :
    Mentions ("(" ++ text ++ ")") fs vs := by
  have hopen : Refers [.openGroup] [] [] := ⟨rfl, rfl, by decide⟩
  have hclose : Refers [.closeGroup] [] [] := ⟨rfl, rfl, by decide⟩
  have hgroup := (hopen.append h).append hclose
  rw [List.append_nil, List.append_nil] at hgroup
  exact ⟨_, .parentheses text, hgroup⟩

end Mentions

/-! ## Conditions -/

/-- A rendered comparison mentions its field and its value. -/
theorem mentions_compareText (field : Nat) (op : CompareOp) (i : Nat) :
    Mentions (Clause.compareText field op (.value i)) [field] [i] :=
  separates_blank (separates_blank (mentions_fieldAlias field) (mentions_symbol op))
    (mentions_valueAlias i)

theorem separates_and : Separates " AND " :=
  separates_keyword "AND" .and (by decide) (by decide)

theorem separates_or : Separates " OR " :=
  separates_keyword "OR" .or (by decide) (by decide)

section Clauses

open Clause (fieldNumbers valueNumbers)

variable {a : Aliases}

/-- The clause refers to its numbers, whether it stands alone or as a part of a group. -/
def ClauseRefers (c : Clause) : Prop :=
  Refers (words c.text) (fieldNumbers c.comparisons) (valueNumbers c.comparisons) ∧
    Mentions (partText c) (fieldNumbers c.comparisons) (valueNumbers c.comparisons)

mutual

theorem clauseRefers_of_known : ∀ c : Clause, Clause.Known a c → ClauseRefers c
  | .compare field op _, .compare _ _ _ =>
    have h := mentions_compareText field op _
    ⟨h.refers, h⟩
  | .and cs, .and h =>
    have hall := (mentionAll_of_known cs h).refers separates_and
    ⟨hall, hall.parentheses⟩
  | .or cs, .or h =>
    have hall := (mentionAll_of_known cs h).refers separates_or
    ⟨hall, hall.parentheses⟩

/-- The parts of a known group mention their fields and values from left to right. -/
theorem mentionAll_of_known : ∀ cs : List Clause, (∀ c ∈ cs, Clause.Known a c) →
    MentionAll (Clause.parts cs) (fieldNumbers (Clause.comparisonsOf cs))
      (valueNumbers (Clause.comparisonsOf cs))
  | [], _ => by
    rw [Clause.parts, Clause.comparisonsOf]
    exact .nil
  | c :: cs, h => by
    obtain ⟨hc, hcs⟩ := List.forall_mem_cons.1 h
    rw [parts_cons, Clause.comparisonsOf, fieldNumbers, valueNumbers, List.map_append,
      List.filterMap_append]
    exact .cons (clauseRefers_of_known c hc).2 (mentionAll_of_known cs hcs)

end

/-- The words of a text, if there is one. -/
def wordsIn (text : Option String) : List Word := text.elim [] words

/-- The words of a rendered clause refer to its numbers. -/
theorem refers_wordsIn {c : Option Clause} (h : ∀ clause ∈ c, Clause.Known a clause) :
    Refers (wordsIn (c.map Clause.text)) (fieldNumbers (c.elim [] Clause.comparisons))
      (valueNumbers (c.elim [] Clause.comparisons)) := by
  cases c with
  | none => exact refers_nil
  | some clause => exact (clauseRefers_of_known clause (h clause rfl)).1

end Clauses

/-- The tables of a condition without parameters define what its texts refer to. -/
theorem defines_render (s : Schema) (c : Condition)
    (h : ∀ p ∈ c.residual?, ∀ d ∈ p.comparisons, d.operand.literal?.isSome = true) :
    Defines (wordsIn (c.render s).keyCondition ++ wordsIn (c.render s).filter) (c.render s).names
      (c.render s).values := by
  have hknown := Condition.clauses_known (s := s) h
  have hkey := refers_wordsIn fun clause hclause => hknown clause (.inl hclause)
  have hfilter := refers_wordsIn fun clause hclause => hknown clause (.inr hclause)
  have hnumbered := Condition.numbered_clauses s c
  rw [Clause.Numbered, Condition.numberedComparisons, Clause.fieldNumbers, Clause.valueNumbers,
    List.map_append, List.filterMap_append] at hnumbered
  exact (hkey.append hfilter).defines hnumbered

/-! ## Updates -/

theorem mentions_assignText (p : Nat × Nat) : Mentions (assignText p) [p.1] [p.2] := by
  have hequals : Separates " = " := separates_keyword "=" (.op .eq) (by decide) (by decide)
  exact hequals (mentions_fieldAlias p.1) (mentions_valueAlias p.2)

theorem mentionAll_assignments :
    ∀ ps : List (Nat × Nat), MentionAll (ps.map assignText) (ps.map Prod.fst) (ps.map Prod.snd)
  | [] => .nil
  | p :: ps => .cons (mentions_assignText p) (mentionAll_assignments ps)

theorem mentionAll_removals :
    ∀ fields : List Nat, MentionAll (fields.map Aliases.fieldAlias) fields []
  | [] => .nil
  | field :: fields => .cons (mentions_fieldAlias field) (mentionAll_removals fields)

section UpdateClauses

variable {texts texts' : List String} {fs fs' vs vs' : List Nat}

theorem MentionAll.append (h : MentionAll texts fs vs) (h' : MentionAll texts' fs' vs') :
    MentionAll (texts ++ texts') (fs ++ fs') (vs ++ vs') := by
  induction h with
  | nil => exact h'
  | cons hfirst _ ih =>
    rw [List.append_assoc, List.append_assoc]
    exact .cons hfirst ih

/-- A keyword before texts mentions nothing more. -/
theorem MentionAll.updateClause {keyword : String} (word : Word)
    (hkeyword : (keyword, word) ∈ vocabulary) (h : MentionAll texts fs vs) :
    MentionAll (updateClause keyword texts) fs vs := by
  cases h with
  | nil => exact .nil
  | cons hfirst hrest =>
    have hlist := (MentionAll.cons hfirst hrest).intercalate separates_comma (by simp)
    have hclause := MentionAll.cons (separates_blank (mentions_keyword hkeyword) hlist) .nil
    rwa [List.append_nil, List.append_nil] at hclause

theorem MentionAll.refers_wordsIn (h : MentionAll texts fs vs) :
    Refers (wordsIn (if texts.isEmpty then none else some (" ".intercalate texts))) fs vs := by
  cases h with
  | nil => exact refers_nil
  | cons hfirst hrest => exact (MentionAll.cons hfirst hrest).refers separates_blank

end UpdateClauses

/-- The tables of an update define what its text refers to. -/
theorem defines_renderUpdate (s : Schema) (item : Item) :
    Defines (wordsIn (renderUpdate s item).text) (renderUpdate s item).names
      (renderUpdate s item).values := by
  let sets := numberAssignments {} (assigned s item)
  have hsets : MentionAll (updateClause "SET" (sets.1.map assignText)) _ _ :=
    (mentionAll_assignments sets.1).updateClause .set (by decide)
  have hremoves : MentionAll (updateClause "REMOVE"
      ((numberFields sets.2 (removed s item)).1.map Aliases.fieldAlias)) _ _ :=
    (mentionAll_removals _).updateClause .remove (by decide)
  have hnumbers := (numbers_assignments (assigned s item) {}).trans
    (numbers_fields (removed s item) sets.2)
  exact (hsets.append hremoves).refers_wordsIn.defines hnumbers

/-- An update says these changes, and they make a row say what the item says. -/
structure Changes (s : Schema) (item : Item) (u : UpdateExpression) (cs : List Change) : Prop where
  /-- What the text says, by the tables. -/
  read : ∃ acts, u.text.elim (some []) readUpdate = some acts ∧
    acts.mapM (fun a => a.change? u.names u.values) = some cs
  noKey : ∀ label field, u.names.get? label = some field → s.isKeyField field = false
  /-- No field is changed twice. -/
  nodup : (cs.map Prod.fst).Nodup
  set : ∀ field v, (field, some v) ∈ cs ↔ item.get? field = some v ∧ s.isKeyField field = false
  remove : ∀ field, (field, none) ∈ cs ↔ s.hasField field = true ∧ s.isKeyField field = false ∧
    item.contains field = false

theorem mem_assigned {s : Schema} {item : Item} {field : String} {v : Value} :
    (field, v) ∈ assigned s item ↔ item.get? field = some v ∧ s.isKeyField field = false := by
  rw [assigned, List.mem_filter, Dict.get?_eq_some_iff, Bool.not_eq_true']

/-- Removed are the declared fields that an item lacks and that are no key. -/
theorem mem_removed {s : Schema} {item : Item} {field : String} :
    field ∈ removed s item ↔ s.hasField field = true ∧ s.isKeyField field = false ∧
      item.contains field = false := by
  rw [removed, List.mem_filter, ← Schema.hasField_iff, Bool.and_eq_true, Bool.not_eq_true',
    Bool.not_eq_true']

/-- An update names no field but those that it changes. -/
theorem names_renderUpdate {s : Schema} {item : Item} {label field : String}
    (h : (renderUpdate s item).names.get? label = some field) :
    field ∈ (changes s item).map Prod.fst := by
  obtain ⟨i, -, hi⟩ := Aliases.get?_names_eq_some.1 h
  have hmem := (mem_fields_numberFields field _ _).1 (List.mem_of_getElem? hi)
  rw [mem_fields_numberAssignments] at hmem
  rw [map_fst_changes, List.mem_append]
  exact hmem.imp_left fun h => h.resolve_left List.not_mem_nil

/-- A rendered update changes the fields that it should. -/
theorem changes_renderUpdate (s : Schema) (item : Item) :
    Changes s item (renderUpdate s item) (changes s item) where
  read := by
    rcases read_renderUpdate s item with ⟨htext, hnone⟩ | ⟨text, acts, htext, hread, hchanges⟩
    · exact ⟨[], by rw [htext]; rfl, by rw [hnone]; rfl⟩
    · exact ⟨acts, by rw [htext]; exact hread, hchanges⟩
  noKey label field h := by
    have hall := List.all_eq_true.1 (changes_admitted s item).2 field (names_renderUpdate h)
    simpa using hall
  nodup := (changes_admitted s item).1
  set field v := by
    rw [← mem_assigned, changes]
    simp
  remove field := by
    rw [← mem_removed, changes]
    simp

/-- Expressions define exactly what they use: the words of a condition without unbound parameters,
and those of every update, are aliases and placeholders that the tables define, all of them, and
words of the language. An update sets what the item has outside the key, and removes the declared
fields that it lacks. -/
theorem render_defines (s : Schema) :
    (∀ c : Condition,
      (∀ p ∈ c.residual?, ∀ d ∈ p.comparisons, d.operand.literal?.isSome = true) →
        Defines (wordsIn (c.render s).keyCondition ++ wordsIn (c.render s).filter)
          (c.render s).names (c.render s).values) ∧
    ∀ item : Item, ∃ cs, Changes s item (renderUpdate s item) cs ∧
      Defines (wordsIn (renderUpdate s item).text) (renderUpdate s item).names
        (renderUpdate s item).values :=
  ⟨defines_render s, fun item => ⟨_, changes_renderUpdate s item, defines_renderUpdate s item⟩⟩

end Remote

/-! ## The texts of a condition and of a correction -/

namespace Sample

open Query Remote

/-- The key condition and the filter share their tables. -/
theorem render_defines_late :
    let e := late.render readings
    (∀ p ∈ late.residual?, ∀ d ∈ p.comparisons, d.operand.literal?.isSome = true) ∧
      e.names = .ofList [("#f0", "sensor"), ("#f1", "ts"), ("#f2", "value"), ("#f3", "unit")] ∧
      e.values.keys = [":v0", ":v1", ":v2", ":v3", ":v4"] ∧
      Defines (wordsIn e.keyCondition ++ wordsIn e.filter) e.names e.values := by
  have hbound : ∀ p ∈ late.residual?, ∀ d ∈ p.comparisons, d.operand.literal?.isSome = true := by
    decide
  refine ⟨hbound, ?_, ?_, (render_defines readings).1 late hbound⟩ <;> decide +kernel

end Sample

end ItemStore
