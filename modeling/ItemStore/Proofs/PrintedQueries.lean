import ItemStore.Proofs.Lexing
import ItemStore.Proofs.Parsing

/-!
# Printed predicates are read back

A flat predicate is written with the parentheses that the grammar needs, and no others: a group
inside a group stands in parentheses, and nothing else does. So there is a derivation that says what
the predicate says and whose tokens its text spells (`Predicate.Printed`), by induction on the
groups. Main statement: a text that is written from a predicate is read as that predicate, if every
word in it is one that the lexer reads back (`parse_display`).
-/

namespace ItemStore

open Query Query.Grammar

/-! ## Comparisons -/

/-- The operands that the lexer reads back. -/
inductive Operand.Writable : Operand → Prop where
  | positional {i : Nat} (h : 1 ≤ i ∧ i < 1 <<< 64) : Writable (.placeholder (.positional i))
  | named {name : String} (h : IsName name) : Writable (.placeholder (.named name))
  | null : Writable (.literal .null)
  | bool (b : Bool) : Writable (.literal (.bool b))
  | text {s : String} (h : '\'' ∉ s.toList) : Writable (.literal (.text s))
  | number {s : String} (h : IsNumber s.toList) : Writable (.literal (.number s))

/-- The comparisons that the lexer reads back. -/
structure Comparison.Writable (c : Comparison) : Prop where
  name : IsName c.field
  not_keyword : ¬IsKeyword c.field
  operand : c.operand.Writable

/-- What a writable operand displays is a word. -/
theorem Operand.Writable.spells {operand : Operand} (h : operand.Writable) :
    ∃ w : Word, w.operand = operand ∧ Spells operand.display [w.token] := by
  cases h with
  | positional h => exact ⟨.positional _, rfl, .positional h⟩
  | named h => exact ⟨.named _, rfl, .named h⟩
  | null => exact ⟨.null, rfl, .keyword (.of_toList rfl (by decide) (by decide)) rfl⟩
  | bool b =>
    refine ⟨.bool b, rfl, ?_⟩
    cases b with
    | false => exact .keyword (.of_toList rfl (by decide) (by decide)) rfl
    | true => exact .keyword (.of_toList rfl (by decide) (by decide)) rfl
  | text h => exact ⟨.text _, rfl, .quoted h⟩
  | number h => exact ⟨.number _, rfl, .number h⟩

/-- What a writable comparison displays is its tokens. -/
theorem Comparison.Writable.spells {c : Comparison} (h : c.Writable) :
    ∃ q : Primary, q.predicate = .compare c ∧ Spells c.display q.tokens := by
  obtain ⟨w, hoperand, hspells⟩ := h.operand.spells
  have hname : Spells c.field [.name c.field] := .name h.name h.not_keyword
  refine ⟨.compare c.field c.op w, ?_, (hname.space (.symbol c.op)).space hspells⟩
  rw [Primary.predicate, hoperand]

namespace Predicate

/-! ## Groups -/

/-- A predicate as a part of a group. -/
def partText : Predicate → String
  | compare c => c.display
  | p => "(" ++ p.display ++ ")"

theorem displayParts_eq (ps : List Predicate) : displayParts ps = ps.map partText := by
  induction ps with
  | nil => rw [displayParts, List.map_nil]
  | cons p ps ih => cases p <;> simp [displayParts, partText, display, ih]

/-- The text of a predicate spells a query that says the predicate. -/
def Printed (p : Predicate) : Prop :=
  ∃ d : Disjunction, d.predicate = p ∧ Spells p.display d.tokens

/-- As a part of a group, the text of a predicate spells a condition that says the predicate. -/
def PrintedPart (p : Predicate) : Prop :=
  ∃ q : Primary, q.predicate = p ∧ Spells p.partText q.tokens

/-- Parentheses make a part of a group. -/
theorem Printed.part {j : Joint} {ps : List Predicate} (h : (j.group ps).Printed) :
    (j.group ps).PrintedPart := by
  obtain ⟨d, hpredicate, hspells⟩ := h
  refine ⟨.group d, hpredicate, ?_⟩
  cases j <;> exact hspells.group

/-- Parts with AND between them spell a conjunction. -/
theorem exists_conjunction {ps : List Predicate} (hne : ps ≠ []) (h : ∀ p ∈ ps, PrintedPart p) :
    ∃ c : Conjunction, c.parts = ps ∧ Spells (" AND ".intercalate (ps.map partText)) c.tokens := by
  induction ps with
  | nil => exact absurd rfl hne
  | cons p ps ih =>
    obtain ⟨⟨q, hq, hspells⟩, hps⟩ := List.forall_mem_cons.1 h
    cases ps with
    | nil =>
      refine ⟨.one q, congrArg (fun p => [p]) hq, ?_⟩
      rwa [List.map_singleton, String.intercalate_singleton]
    | cons p' ps =>
      obtain ⟨c, hparts, hrest⟩ := ih (List.cons_ne_nil _ _) hps
      refine ⟨.and q c, by rw [Conjunction.parts, hq, hparts], ?_⟩
      exact hspells.intercalate rfl .and hrest

/-- Parts with OR between them spell a disjunction. -/
theorem exists_disjunction {ps : List Predicate} (hne : ps ≠ []) (h : ∀ p ∈ ps, PrintedPart p) :
    ∃ d : Disjunction, d.parts = ps ∧ Spells (" OR ".intercalate (ps.map partText)) d.tokens := by
  induction ps with
  | nil => exact absurd rfl hne
  | cons p ps ih =>
    obtain ⟨⟨q, rfl, hspells⟩, hps⟩ := List.forall_mem_cons.1 h
    cases ps with
    | nil =>
      refine ⟨.one (.one q), congrArg (fun p => [p]) (conjoin_primary q), ?_⟩
      rwa [List.map_singleton, String.intercalate_singleton]
    | cons p' ps =>
      obtain ⟨d, hparts, hrest⟩ := ih (List.cons_ne_nil _ _) hps
      refine ⟨.or (.one q) d, ?_, hspells.intercalate rfl .or hrest⟩
      rw [Disjunction.parts, Conjunction.parts, conjoin_primary, hparts]

/-- A group is written as a query that says it if its parts are written as conditions. -/
theorem printed_group {j : Joint} {ps : List Predicate} (many : 2 ≤ ps.length)
    (others : ∀ p ∈ ps, p.joint? ≠ some j) (h : ∀ p ∈ ps, PrintedPart p) :
    (j.group ps).Printed := by
  have hne : ps ≠ [] := by
    rintro rfl
    exact nomatch many
  have hjoin := Joint.join_of_others many others
  cases j with
  | and =>
    obtain ⟨c, hparts, hspells⟩ := exists_conjunction hne h
    refine ⟨.one c, ?_, ?_⟩
    · rw [Disjunction.predicate_one, hparts]
      exact hjoin
    · show Spells (Predicate.and ps).display c.tokens
      rwa [display, displayParts_eq]
  | or =>
    obtain ⟨d, hparts, hspells⟩ := exists_disjunction hne h
    refine ⟨d, ?_, ?_⟩
    · rw [Disjunction.predicate, hparts]
      exact hjoin
    · show Spells (Predicate.or ps).display d.tokens
      rwa [display, displayParts_eq]

/-- A flat predicate is written as a query that says it. -/
theorem Flat.printed {p : Predicate} (h : p.Flat) (hwritable : ∀ c ∈ p.comparisons, c.Writable) :
    p.Printed := by
  induction h with
  | compare c =>
    obtain ⟨q, hq, hspells⟩ := (hwritable c (.head _)).spells
    refine ⟨.one (.one q), ?_, hspells⟩
    rw [Disjunction.predicate_one, Conjunction.parts, conjoin_primary, hq]
  | @group j ps many others flat ih =>
    refine printed_group many others fun p hp => ?_
    have hcomparisons : ∀ c ∈ p.comparisons, c.Writable := by
      intro c hc
      refine hwritable c ?_
      rw [Joint.comparisons_group]
      exact List.mem_flatMap.2 ⟨p, hp, hc⟩
    have hprinted := ih p hp hcomparisons
    cases flat p hp with
    | compare c => exact (hcomparisons c (.head _)).spells
    | group i => exact hprinted.part

end Predicate

/-! ## Round trips -/

namespace Query

/-- A text that spells a derivation says what that says. -/
theorem Spells.parse_eq {text : String} {d : Disjunction} (h : Spells text d.tokens) :
    parse text = .ok d.predicate := by
  obtain ⟨lexemes, hlexemes, htokens⟩ := h.lex
  exact parse_eq_ok_iff.2 ⟨lexemes, hlexemes, d, htokens.symm, rfl⟩

theorem parse_of_printed {p : Predicate} (h : p.Printed) : parse p.display = .ok p := by
  obtain ⟨d, rfl, hspells⟩ := h
  exact hspells.parse_eq

/-- Printing a flat predicate and reading the text gives the predicate back, if the lexer reads
back the words of its comparisons. So no two of these predicates are printed as the same text, and
what any query text of such words says is printed as a text that says the same. -/
theorem parse_display :
    (∀ p : Predicate, p.Flat → (∀ c ∈ p.comparisons, c.Writable) → parse p.display = .ok p) ∧
      (∀ p q : Predicate, p.Flat → (∀ c ∈ p.comparisons, c.Writable) → q.Flat →
        (∀ c ∈ q.comparisons, c.Writable) → p.display = q.display → p = q) ∧
      ∀ text p, parse text = .ok p → (∀ c ∈ p.comparisons, c.Writable) →
        parse p.display = parse text := by
  have hback : ∀ p : Predicate, p.Flat → (∀ c ∈ p.comparisons, c.Writable) →
      parse p.display = .ok p := fun p hflat hwritable => parse_of_printed (hflat.printed hwritable)
  refine ⟨hback, fun p q hp hwp hq hwq heq => ?_, fun text p hparse hwritable => ?_⟩
  · have hparsed := hback p hp hwp
    rw [heq, hback q hq hwq] at hparsed
    exact (Except.ok.inj hparsed).symm
  · obtain ⟨-, -, d, -, rfl⟩ := parse_eq_ok_iff.1 hparse
    rw [hparse]
    exact hback _ d.flat_predicate hwritable

end Query

/-! ## A query on readings -/

namespace Sample

open Predicate

/-- Readings of a sensor that are far from zero, in a group that needs parentheses. -/
def extreme : Predicate :=
  .and [.compare ⟨"sensor", .eq, .placeholder (.positional 1)⟩,
    .or [.compare ⟨"value", .ge, .literal (.number "1.5e3")⟩,
      .compare ⟨"value", .lt, .literal (.number "-40")⟩]]

theorem extreme_flat : extreme.Flat := by
  have hinner : (Joint.or.group [.compare ⟨"value", .ge, .literal (.number "1.5e3")⟩,
      .compare ⟨"value", .lt, .literal (.number "-40")⟩]).Flat :=
    .group .or (by decide) (by simp [joint?]) (by simpa using ⟨.compare _, .compare _⟩)
  exact .group .and (by decide) (by simp [joint?]) (by simpa using ⟨.compare _, hinner⟩)

theorem extreme_writable : ∀ c ∈ extreme.comparisons, c.Writable := by
  have hsensor : IsName "sensor" := .of_toList rfl (by decide) (by decide)
  have hvalue : IsName "value" := .of_toList rfl (by decide) (by decide)
  have hlarge : IsNumber "1.5e3".toList :=
    .positive (@IsMagnitude.intro ['1'] ['.', '5'] ['e', '3'] (by decide) (.point (by decide))
      (.positive (by decide)))
  have hlow : IsNumber "-40".toList :=
    .negative (@IsMagnitude.intro ['4', '0'] [] [] (by decide) .none .none)
  intro c hc
  have hcases : c = ⟨"sensor", .eq, .placeholder (.positional 1)⟩ ∨
      c = ⟨"value", .ge, .literal (.number "1.5e3")⟩ ∨
      c = ⟨"value", .lt, .literal (.number "-40")⟩ := by
    simpa [extreme, comparisons, comparisonsOf] using hc
  obtain rfl | rfl | rfl := hcases
  · exact ⟨hsensor, by decide, .positional (by decide)⟩
  · exact ⟨hvalue, by decide, .number hlarge⟩
  · exact ⟨hvalue, by decide, .number hlow⟩

/-- A number with an exponent and a negative one in a group. -/
theorem parse_display_extreme :
    parse "sensor = ?1 AND (value >= 1.5e3 OR value < -40)" = .ok extreme := by
  have htext : extreme.display = "sensor = ?1 AND (value >= 1.5e3 OR value < -40)" := by
    rw [extreme, display]
    simp only [displayParts]
    rfl
  rw [← htext]
  exact parse_display.1 extreme extreme_flat extreme_writable

end Sample

end ItemStore
