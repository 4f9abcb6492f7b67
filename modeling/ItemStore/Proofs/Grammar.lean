import ItemStore.Proofs.Joining
import ItemStore.Query.Token

/-!
# The grammar of queries

    or      := and (OR and)*
    and     := primary (AND primary)*
    primary := '(' or ')' | map | name op operand
    map     := '{' entry (',' entry)* '}'
    entry   := (text | name) ':' operand
    operand := ?N | :name | text | number | null | true | false

A derivation from `or` is a `Disjunction`, and so on down to the words of an operand. It has the
tokens that it derives, the predicate that these say, and the comparisons that they make in the
order of the text. Main statements: no two derivations have the same tokens
(`Disjunction.tokens_inj`), and the predicate of a derivation is flat and makes the comparisons of
the derivation (`Disjunction.flat_predicate`, `Disjunction.comparisons_predicate`).
-/

namespace ItemStore.Query.Grammar

/-! ## Derivations -/

/-- An operand: `?N | :name | text | number | null | true | false`. -/
inductive Word where
  | positional (index : Nat)
  | named (name : String)
  | text (s : String)
  | number (digits : String)
  | null
  | bool (b : Bool)

/-- What an entry starts with: `text | name`. -/
inductive EntryName where
  | text (s : String)
  | name (s : String)

/-- An entry of a map: `(text | name) ':' operand`. -/
structure Entry where
  name : EntryName
  operand : Word

mutual

/-- A query, or what stands between parentheses: `and (OR and)*`. -/
inductive Disjunction where
  | one (c : Conjunction)
  | or (c : Conjunction) (rest : Disjunction)

/-- What OR joins: `primary (AND primary)*`. -/
inductive Conjunction where
  | one (p : Primary)
  | and (p : Primary) (rest : Conjunction)

/-- What AND joins: `'(' or ')' | '{' entry (',' entry)* '}' | name op operand`. -/
inductive Primary where
  | group (d : Disjunction)
  | map (first : Entry) (rest : List Entry)
  | compare (field : String) (op : CompareOp) (operand : Word)

end

/-! ## What is derived -/

/-- The token of a word. -/
def Word.token : Word → Token
  | positional index => .positional index
  | named name => .named name
  | text s => .text s
  | number digits => .number digits
  | null => .null
  | bool b => .bool b

/-- What a word stands for in a comparison. -/
def Word.operand : Word → Operand
  | positional index => .placeholder (.positional index)
  | named name => .placeholder (.named name)
  | text s => .literal (.text s)
  | number digits => .literal (.number digits)
  | null => .literal .null
  | bool b => .literal (.bool b)

/-- The token of a name. -/
def EntryName.token : EntryName → Token
  | text s => .text s
  | name s => .name s

/-- The field that a name says, quoted or not. -/
def EntryName.field : EntryName → String
  | text s => s
  | name s => s

namespace Entry

/-- The tokens of an entry. -/
def tokens (e : Entry) : List Token := [e.name.token, .colon, e.operand.token]

/-- An entry says that its field has its value. -/
def comparison (e : Entry) : Comparison := ⟨e.name.field, .eq, e.operand.operand⟩

/-- An entry says that its field has its value. -/
def predicate (e : Entry) : Predicate := .compare e.comparison

end Entry

/-- The tokens of further entries. -/
def moreTokens (es : List Entry) : List Token := es.flatMap fun e => .comma :: e.tokens

mutual

/-- The tokens of a derivation, from left to right. -/
def Disjunction.tokens : Disjunction → List Token
  | .one c => c.tokens
  | .or c rest => c.tokens ++ .or :: rest.tokens

/-- The tokens of what OR joins. -/
def Conjunction.tokens : Conjunction → List Token
  | .one p => p.tokens
  | .and p rest => p.tokens ++ .and :: rest.tokens

/-- The tokens of what AND joins. -/
def Primary.tokens : Primary → List Token
  | .group d => .openGroup :: (d.tokens ++ [.closeGroup])
  | .map first rest => .openMap :: (first.tokens ++ moreTokens rest ++ [.closeMap])
  | .compare field op operand => [.name field, .op op, operand.token]

end

mutual

/-- The predicates that a disjunction joins. -/
def Disjunction.parts : Disjunction → List Predicate
  | .one c => [Predicate.conjoin c.parts]
  | .or c rest => Predicate.conjoin c.parts :: rest.parts

/-- The predicates that a conjunction joins. -/
def Conjunction.parts : Conjunction → List Predicate
  | .one p => [p.predicate]
  | .and p rest => p.predicate :: rest.parts

/-- What a condition between connectives says. A map is the conjunction of its entries. -/
def Primary.predicate : Primary → Predicate
  | .group d => Predicate.disjoin d.parts
  | .map first rest => Predicate.conjoin (first.predicate :: rest.map Entry.predicate)
  | .compare field op operand => .compare ⟨field, op, operand.operand⟩

end

/-- What a query says. -/
def Disjunction.predicate (d : Disjunction) : Predicate := Predicate.disjoin d.parts

mutual

/-- The comparisons from left to right. -/
def Disjunction.comparisons : Disjunction → List Comparison
  | .one c => c.comparisons
  | .or c rest => c.comparisons ++ rest.comparisons

/-- The comparisons of what OR joins. -/
def Conjunction.comparisons : Conjunction → List Comparison
  | .one p => p.comparisons
  | .and p rest => p.comparisons ++ rest.comparisons

/-- The comparisons of what AND joins; a map compares once for each entry. -/
def Primary.comparisons : Primary → List Comparison
  | .group d => d.comparisons
  | .map first rest => first.comparison :: rest.map Entry.comparison
  | .compare field op operand => [⟨field, op, operand.operand⟩]

end

/-! ## The predicate of a derivation -/

open Predicate

theorem Disjunction.parts_ne_nil (d : Disjunction) : d.parts ≠ [] := by
  cases d <;> exact List.cons_ne_nil _ _

theorem Conjunction.parts_ne_nil (c : Conjunction) : c.parts ≠ [] := by
  cases c <;> exact List.cons_ne_nil _ _

mutual

/-- The parts of a derivation are flat. -/
theorem Disjunction.flat_parts : ∀ d : Disjunction, ∀ p ∈ d.parts, p.Flat
  | .one c => List.forall_mem_singleton.2 (Joint.flat_join .and c.parts_ne_nil c.flat_parts)
  | .or c rest =>
    List.forall_mem_cons.2 ⟨Joint.flat_join .and c.parts_ne_nil c.flat_parts, rest.flat_parts⟩

theorem Conjunction.flat_parts : ∀ c : Conjunction, ∀ p ∈ c.parts, p.Flat
  | .one p => List.forall_mem_singleton.2 p.flat_predicate
  | .and p rest => List.forall_mem_cons.2 ⟨p.flat_predicate, rest.flat_parts⟩

/-- What AND joins is flat. -/
theorem Primary.flat_predicate : ∀ p : Primary, p.predicate.Flat
  | .group d => Joint.flat_join .or d.parts_ne_nil d.flat_parts
  | .map first rest => by
    refine Joint.flat_join .and (List.cons_ne_nil _ _) fun p hp => ?_
    rw [← List.map_cons (f := Entry.predicate)] at hp
    obtain ⟨e, -, rfl⟩ := List.mem_map.1 hp
    exact .compare e.comparison
  | .compare field op operand => .compare _

end

theorem Disjunction.flat_predicate (d : Disjunction) : d.predicate.Flat :=
  Joint.flat_join .or d.parts_ne_nil d.flat_parts

theorem Disjunction.predicate_one (c : Conjunction) :
    (Disjunction.one c).predicate = Predicate.conjoin c.parts :=
  Joint.join_singleton .or (Joint.flat_join .and c.parts_ne_nil c.flat_parts)

theorem conjoin_primary (p : Primary) : Predicate.conjoin [p.predicate] = p.predicate :=
  Joint.join_singleton .and p.flat_predicate

theorem comparisons_entries (es : List Entry) :
    (es.map Entry.predicate).flatMap Predicate.comparisons = es.map Entry.comparison := by
  induction es with
  | nil => rfl
  | cons e es ih => rw [List.map_cons, List.flatMap_cons, ih]; rfl

mutual

/-- The parts have the comparisons of the derivation, in order. -/
theorem Disjunction.comparisons_parts :
    ∀ d : Disjunction, d.parts.flatMap Predicate.comparisons = d.comparisons
  | .one c => by
    have hjoin := Joint.comparisons_join .and c.parts
    rw [Disjunction.comparisons, ← c.comparisons_parts, ← hjoin]
    exact List.flatMap_singleton _ _
  | .or c rest => by
    have hjoin := Joint.comparisons_join .and c.parts
    rw [Disjunction.comparisons, ← c.comparisons_parts, ← hjoin, ← rest.comparisons_parts]
    exact List.flatMap_cons

theorem Conjunction.comparisons_parts :
    ∀ c : Conjunction, c.parts.flatMap Predicate.comparisons = c.comparisons
  | .one p => by
    rw [Conjunction.parts, List.flatMap_singleton, Conjunction.comparisons,
      p.comparisons_predicate]
  | .and p rest => by
    rw [Conjunction.parts, List.flatMap_cons, Conjunction.comparisons, p.comparisons_predicate,
      rest.comparisons_parts]

theorem Primary.comparisons_predicate : ∀ p : Primary, p.predicate.comparisons = p.comparisons
  | .group d => by
    rw [Primary.comparisons, ← d.comparisons_parts]
    exact Joint.comparisons_join .or d.parts
  | .map first rest => by
    have hjoin := Joint.comparisons_join .and ((first :: rest).map Entry.predicate)
    rw [comparisons_entries] at hjoin
    exact hjoin
  | .compare field op operand => rfl

end

/-- The predicate of a query makes its comparisons in the order of the text. -/
theorem Disjunction.comparisons_predicate (d : Disjunction) :
    d.predicate.comparisons = d.comparisons := by
  rw [← d.comparisons_parts]
  exact Joint.comparisons_join .or d.parts

/-! ## One derivation for the same tokens -/

theorem Word.token_inj {w w' : Word} (h : w.token = w'.token) : w = w' := by
  cases w <;> cases w' <;> simp_all [Word.token]

theorem EntryName.token_inj {n n' : EntryName} (h : n.token = n'.token) : n = n' := by
  cases n <;> cases n' <;> simp_all [EntryName.token]

/-- An entry is told by the tokens that it starts with. -/
theorem Entry.tokens_inj {e e' : Entry} {us us' : List Token}
    (h : e.tokens ++ us = e'.tokens ++ us') : e = e' ∧ us = us' := by
  obtain ⟨n, w⟩ := e
  obtain ⟨n', w'⟩ := e'
  simp only [Entry.tokens, List.cons_append, List.nil_append, List.cons.injEq, true_and] at h
  rw [EntryName.token_inj h.1, Word.token_inj h.2.1]
  exact ⟨rfl, h.2.2⟩

/-- Further entries end where a map is closed. -/
theorem moreTokens_inj {es es' : List Entry} {us us' : List Token}
    (h : moreTokens es ++ .closeMap :: us = moreTokens es' ++ .closeMap :: us') :
    es = es' ∧ us = us' := by
  induction es generalizing es' with
  | nil =>
    cases es' with
    | nil => exact ⟨rfl, (List.cons.inj h).2⟩
    | cons e' es' => exact nomatch (List.cons.inj h).1
  | cons e es ih =>
    cases es' with
    | nil => exact nomatch (List.cons.inj h).1
    | cons e' es' =>
      simp only [moreTokens, List.flatMap_cons, List.cons_append, List.append_assoc] at h
      obtain ⟨rfl, hrest⟩ := Entry.tokens_inj (List.cons.inj h).2
      obtain ⟨rfl, rfl⟩ := ih hrest
      exact ⟨rfl, rfl⟩

mutual

/-- A disjunction ends where no connective follows. -/
theorem Disjunction.tokens_append_inj : ∀ {d d' : Disjunction} {us us' : List Token},
    us.head? ≠ some .and ∧ us.head? ≠ some .or → us'.head? ≠ some .and ∧ us'.head? ≠ some .or →
      d.tokens ++ us = d'.tokens ++ us' → d = d' ∧ us = us'
  | .one c, .one c', us, us', hus, hus', h => by
    obtain ⟨rfl, rfl⟩ := c.tokens_append_inj hus.1 hus'.1 h
    exact ⟨rfl, rfl⟩
  | .one c, .or c' rest', us, us', hus, _, h => by
    rw [Disjunction.tokens, Disjunction.tokens, List.append_assoc] at h
    obtain ⟨-, rfl⟩ := c.tokens_append_inj hus.1 (by simp) h
    exact absurd rfl hus.2
  | .or c rest, .one c', us, us', _, hus', h => by
    rw [Disjunction.tokens, Disjunction.tokens, List.append_assoc] at h
    obtain ⟨-, rfl⟩ := c.tokens_append_inj (by simp) hus'.1 h
    exact absurd rfl hus'.2
  | .or c rest, .or c' rest', us, us', hus, hus', h => by
    rw [Disjunction.tokens, Disjunction.tokens, List.append_assoc, List.append_assoc] at h
    obtain ⟨rfl, hrest⟩ := c.tokens_append_inj (by simp) (by simp) h
    obtain ⟨rfl, rfl⟩ := rest.tokens_append_inj hus hus' (List.cons.inj hrest).2
    exact ⟨rfl, rfl⟩

/-- A conjunction ends where no AND follows. -/
theorem Conjunction.tokens_append_inj : ∀ {c c' : Conjunction} {us us' : List Token},
    us.head? ≠ some .and → us'.head? ≠ some .and →
      c.tokens ++ us = c'.tokens ++ us' → c = c' ∧ us = us'
  | .one p, .one p', us, us', _, _, h => by
    obtain ⟨rfl, rfl⟩ := p.tokens_append_inj h
    exact ⟨rfl, rfl⟩
  | .one p, .and p' rest', us, us', hus, _, h => by
    rw [Conjunction.tokens, Conjunction.tokens, List.append_assoc] at h
    obtain ⟨-, rfl⟩ := p.tokens_append_inj h
    exact absurd rfl hus
  | .and p rest, .one p', us, us', _, hus', h => by
    rw [Conjunction.tokens, Conjunction.tokens, List.append_assoc] at h
    obtain ⟨-, rfl⟩ := p.tokens_append_inj h
    exact absurd rfl hus'
  | .and p rest, .and p' rest', us, us', hus, hus', h => by
    rw [Conjunction.tokens, Conjunction.tokens, List.append_assoc, List.append_assoc] at h
    obtain ⟨rfl, hrest⟩ := p.tokens_append_inj h
    obtain ⟨rfl, rfl⟩ := rest.tokens_append_inj hus hus' (List.cons.inj hrest).2
    exact ⟨rfl, rfl⟩

/-- A condition between connectives ends by itself. -/
theorem Primary.tokens_append_inj : ∀ {p p' : Primary} {us us' : List Token},
    p.tokens ++ us = p'.tokens ++ us' → p = p' ∧ us = us'
  | .group d, .group d', us, us', h => by
    simp only [Primary.tokens, List.cons_append, List.append_assoc, List.nil_append] at h
    obtain ⟨rfl, hrest⟩ := d.tokens_append_inj (by simp) (by simp) (List.cons.inj h).2
    exact ⟨rfl, (List.cons.inj hrest).2⟩
  | .map first rest, .map first' rest', us, us', h => by
    simp only [Primary.tokens, List.cons_append, List.append_assoc, List.nil_append] at h
    obtain ⟨rfl, hrest⟩ := Entry.tokens_inj (List.cons.inj h).2
    obtain ⟨rfl, rfl⟩ := moreTokens_inj hrest
    exact ⟨rfl, rfl⟩
  | .compare field op w, .compare field' op' w', us, us', h => by
    simp only [Primary.tokens, List.cons_append, List.nil_append, List.cons.injEq, Token.name.injEq,
      Token.op.injEq] at h
    obtain ⟨rfl, rfl, hw, rfl⟩ := h
    rw [Word.token_inj hw]
    exact ⟨rfl, rfl⟩
  | .group _, .map _ _, _, _, h => nomatch (List.cons.inj h).1
  | .group _, .compare _ _ _, _, _, h => nomatch (List.cons.inj h).1
  | .map _ _, .group _, _, _, h => nomatch (List.cons.inj h).1
  | .map _ _, .compare _ _ _, _, _, h => nomatch (List.cons.inj h).1
  | .compare _ _ _, .group _, _, _, h => nomatch (List.cons.inj h).1
  | .compare _ _ _, .map _ _, _, _, h => nomatch (List.cons.inj h).1

end

/-- Tokens have one derivation at most. -/
theorem Disjunction.tokens_inj {d d' : Disjunction} (h : d.tokens = d'.tokens) : d = d' := by
  have happend : d.tokens ++ [] = d'.tokens ++ [] := by
    rw [h]
  exact (tokens_append_inj (by simp) (by simp) happend).1

end ItemStore.Query.Grammar
