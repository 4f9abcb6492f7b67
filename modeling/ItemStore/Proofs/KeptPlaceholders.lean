import ItemStore.Proofs.Numbering
import ItemStore.Proofs.RenderedConditions

/-!
# Parameters that are kept in a text

A condition that is given as such may have unbound parameters. Its filter keeps them under their own
names, next to the placeholders `:v0`, `:v1`, … of the values. Nothing sets the two apart: a
parameter that is named like the placeholder of a value stands for that value. Main statement:
which parameters the table of values defines, and as what (`Condition.captured_exactly`).
-/

namespace ItemStore

namespace Query

/-! ## Parts of a text -/

/-- A text has a part. -/
def HasPart (text part : String) : Prop := ∃ before after, text = before ++ part ++ after

namespace HasPart

variable {text part inner : String} {texts : List String}

theorem refl (text : String) : HasPart text text :=
  ⟨"", "", by simp⟩

/-- A part of a part is a part. -/
theorem trans (h : HasPart text part) (hinner : HasPart part inner) : HasPart text inner := by
  obtain ⟨before, after, rfl⟩ := h
  obtain ⟨before', after', rfl⟩ := hinner
  exact ⟨before ++ before', after' ++ after, by simp only [String.append_assoc]⟩

theorem group (text : String) : HasPart ("(" ++ text ++ ")") text :=
  ⟨"(", ")", rfl⟩

/-- Each of the texts is a part of what they are put together to. -/
theorem intercalate (sep : String) (h : part ∈ texts) : HasPart (sep.intercalate texts) part := by
  induction texts with
  | nil => cases h
  | cons first texts ih =>
    cases texts with
    | nil =>
      obtain rfl := List.mem_singleton.1 h
      rw [String.intercalate_singleton]
      exact refl part
    | cons next texts =>
      rw [String.intercalate_cons_cons]
      rcases List.mem_cons.1 h with rfl | h
      · exact ⟨"", sep ++ sep.intercalate (next :: texts), by simp [String.append_assoc]⟩
      · obtain ⟨before, after, heq⟩ := ih h
        exact ⟨first ++ sep ++ before, after, by rw [heq]; simp only [String.append_assoc]⟩

end HasPart

/-! ## Comparisons in the text of a clause -/

namespace NumberedComparison

/-- A comparison as it is written. -/
def text (n : NumberedComparison) : String := Clause.compareText n.field n.op n.operand

end NumberedComparison

namespace Clause

open Remote (partText parts_cons)

/-- The text of a clause stands in what it is as a part. -/
theorem hasPart_partText (c : Clause) : HasPart (partText c) c.text := by
  cases c with
  | compare field op operand =>
    rw [text]
    exact .refl _
  | and cs => exact .group _
  | or cs => exact .group _

mutual

/-- Every comparison stands in the text. -/
theorem hasPart_text : ∀ (c : Clause), ∀ n ∈ c.comparisons, HasPart c.text n.text
  | .compare field op operand, n, h => by
    obtain rfl := List.mem_singleton.1 h
    rw [text]
    exact .refl _
  | .and cs, n, h => by
    obtain ⟨part, hpart, hn⟩ := hasPart_parts cs n h
    rw [text]
    exact (HasPart.intercalate " AND " hpart).trans hn
  | .or cs, n, h => by
    obtain ⟨part, hpart, hn⟩ := hasPart_parts cs n h
    rw [text]
    exact (HasPart.intercalate " OR " hpart).trans hn

/-- Every comparison of a group stands in one of its parts. -/
theorem hasPart_parts : ∀ (cs : List Clause), ∀ n ∈ comparisonsOf cs,
    ∃ part ∈ parts cs, HasPart part n.text
  | c :: cs, n, h => by
    rw [parts_cons]
    rcases List.mem_append.1 h with h | h
    · exact ⟨_, List.mem_cons_self, (hasPart_partText c).trans (hasPart_text c n h)⟩
    · obtain ⟨part, hpart, hn⟩ := hasPart_parts cs n h
      exact ⟨part, List.mem_cons_of_mem _ hpart, hn⟩

end

/-! ## Parameters are not numbered -/

variable {d : Comparison} {q : Placeholder}

mutual

/-- A comparison with a parameter has the number of its field, whatever is numbered after it, and
the parameter as it is. -/
theorem mem_comparisons_ofPredicate (hq : d.operand = .placeholder q) :
    ∀ (p : Predicate) (a b : Aliases), (ofPredicate a p).2.Extends b → d ∈ p.comparisons →
      ∃ i, b.fields[i]? = some d.field ∧
        ⟨i, d.op, .placeholder q⟩ ∈ (ofPredicate a p).1.comparisons
  | .compare ⟨field, op, .literal v⟩, a, b, _, hd => by
    obtain rfl := List.mem_singleton.1 hd
    cases hq
  | .compare ⟨field, op, .placeholder r⟩, a, b, hb, hd => by
    obtain rfl := List.mem_singleton.1 hd
    cases hq
    exact ⟨_, hb.field (a.field_spec field).2, List.mem_singleton_self _⟩
  | .and ps, a, b, hb, hd => mem_comparisons_ofPredicates hq ps a b hb hd
  | .or ps, a, b, hb, hd => mem_comparisons_ofPredicates hq ps a b hb hd

/-- A comparison with an open parameter keeps it, under the number of its field. -/
theorem mem_comparisons_ofPredicates (hq : d.operand = .placeholder q) :
    ∀ (ps : List Predicate) (a b : Aliases), (ofPredicates a ps).2.Extends b →
      d ∈ Predicate.comparisonsOf ps → ∃ i, b.fields[i]? = some d.field ∧
        ⟨i, d.op, .placeholder q⟩ ∈ comparisonsOf (ofPredicates a ps).1
  | p :: ps, a, b, hb, hd => by
    have hgrows := (numbered_ofPredicates ps (ofPredicate a p).2).grows
    rcases List.mem_append.1 hd with hd | hd
    · obtain ⟨i, hi, hmem⟩ := mem_comparisons_ofPredicate hq p a b (hgrows.trans hb) hd
      exact ⟨i, hi, List.mem_append_left _ hmem⟩
    · obtain ⟨i, hi, hmem⟩ := mem_comparisons_ofPredicates hq ps (ofPredicate a p).2 b hb hd
      exact ⟨i, hi, List.mem_append_right _ hmem⟩

end

end Clause

/-! ## Which parameters stand for a value -/

/-- A comparison with a parameter stands in the filter, with an alias of its field and the parameter
under its own name. -/
def Expression.Keeps (e : Expression) (d : Comparison) (q : Placeholder) : Prop :=
  ∃ text ∈ e.filter, ∃ label, e.names.get? label = some d.field ∧
    HasPart text (label ++ " " ++ d.op.symbol ++ " " ++ q.display)

namespace Condition

variable {s : Schema} {c : Condition} {p : Predicate} {d : Comparison} {q : Placeholder}

/-- The clauses of a condition are numbered one after the other, the key first. -/
theorem clauses_filter (s : Schema) (key : Option KeyCondition) (p : Predicate) :
    (filter key (some p)).clauses s =
      ((numberOption (Clause.ofKey s) {} key).1,
        some (Clause.ofPredicate (numberOption (Clause.ofKey s) {} key).2 p).1,
        (Clause.ofPredicate (numberOption (Clause.ofKey s) {} key).2 p).2) :=
  rfl

/-- A filter keeps its parameters. -/
theorem render_keeps (hp : p ∈ c.residual?) (hd : d ∈ p.comparisons)
    (hq : d.operand = .placeholder q) : (c.render s).Keeps d q := by
  rcases c with _ | v | ⟨key, predicate⟩
  · cases hp
  · cases hp
  · obtain rfl : predicate = some p := hp
    obtain ⟨i, hi, hmem⟩ := Clause.mem_comparisons_ofPredicate hq p
      (numberOption (Clause.ofKey s) {} key).2 _ (.refl _) hd
    have hpart := Clause.hasPart_text _ _ hmem
    rw [render, clauses_filter]
    exact ⟨_, rfl, Aliases.fieldAlias i, (Aliases.get?_names _ i).trans hi, hpart⟩

/-- The values of an expression are those of the condition, numbered from left to right. -/
theorem get?_values_render (s : Schema) (c : Condition) (label : String) (v : Value) :
    (c.render s).values.get? label = some v ↔
      ∃ i, label = Aliases.valueAlias i ∧ (c.values s)[i]? = some v := by
  have hvalues : (c.clauses s).2.2.values = c.values s := by
    simpa using (numbered_clauses s c).values
  rw [← hvalues]
  exact Aliases.get?_valueTable_eq_some

/-- A parameter looks like the placeholder of a value just when it is named like one. -/
theorem display_eq_valueAlias {i : Nat} :
    q.display = Aliases.valueAlias i ↔ q = .named ("v" ++ toString i) := by
  have halias : Aliases.valueAlias i = ":" ++ ("v" ++ toString i) := by
    rw [Aliases.valueAlias, ← String.append_assoc]
    rfl
  rw [halias]
  cases q with
  | positional n =>
    refine iff_of_false (fun h => ?_) (by simp)
    have hfirst := congrArg (fun text => text.toList.head?) h
    simp [Placeholder.display] at hfirst
  | named name => rw [Placeholder.display, String.append_right_inj, Placeholder.named.injEq]

/-- A parameter that is kept in the filter stands for a value if and only if it has the name of that
value's placeholder, which is `v` and a number below that of the values. It then stands for the
value with this number, and otherwise for none. -/
theorem captured_exactly (hp : p ∈ c.residual?) (hd : d ∈ p.comparisons)
    (hq : d.operand = .placeholder q) :
    (c.render s).Keeps d q ∧ ∀ v, (c.render s).values.get? q.display = some v ↔
      ∃ i : Nat, q = .named ("v" ++ toString i) ∧ (c.values s)[i]? = some v := by
  refine ⟨render_keeps hp hd hq, fun v => ?_⟩
  rw [get?_values_render]
  simp only [display_eq_valueAlias]

end Condition

end Query

/-! ## A time that is captured -/

namespace Sample

open Query Remote

/-- High readings at a time that is yet to be said. -/
def highAt (time : String) : Condition :=
  .filter none (some (.and [.compare ⟨"ts", .eq, .placeholder (.named time)⟩,
    .compare ⟨"value", .gt, .literal (.number "3")⟩]))

/-- There is one value, and the parameter `:v1` is not its placeholder. -/
theorem captured_exactly_free :
    let e := (highAt "v1").render readings
    e.Keeps ⟨"ts", .eq, .placeholder (.named "v1")⟩ (.named "v1") ∧
      ∀ v, e.values.get? (Placeholder.named "v1").display ≠ some v := by
  obtain ⟨hkeeps, hcaptured⟩ := Condition.captured_exactly (s := readings) (c := highAt "v1")
    (d := ⟨"ts", .eq, .placeholder (.named "v1")⟩) rfl List.mem_cons_self rfl
  refine ⟨hkeeps, fun v hv => ?_⟩
  obtain ⟨i, hname, hvalue⟩ := (hcaptured v).1 hv
  have hvalues : (highAt "v1").values readings = [.number "3"] := rfl
  rw [hvalues, List.getElem?_singleton] at hvalue
  split at hvalue
  · next h =>
    subst h
    exact absurd hname (by decide)
  · cases hvalue

/-- The parameter `:v0` gets the value that the next field is compared with. So a remote store
selects a reading that does not pass. -/
theorem time_is_captured :
    let e := (highAt "v0").render readings
    let item : Item := .ofList [("sensor", .text "s1"), ("ts", .number "3"), ("value", .number "4")]
    e.filter = some "#f0 = :v0 AND #f1 > :v0" ∧
      e.Keeps ⟨"ts", .eq, .placeholder (.named "v0")⟩ (.named "v0") ∧
      e.values.get? (Placeholder.named "v0").display = some (.number "3") ∧
      (readCondition "#f0 = :v0 AND #f1 > :v0").bind (Formula.holds? e.names e.values item) =
        some true ∧
      (highAt "v0").passes item = false := by
  refine ⟨?_, ?_, ?_, ?_, ?_⟩
  · simp [highAt, Condition.render, Condition.clauses, numberOption, Clause.ofComparison,
      Aliases.field, Aliases.value, Expression.ofClauses, Clause.ofPredicate, Clause.ofPredicates,
      Clause.text, Clause.parts, Clause.compareText]
    decide
  · exact Condition.render_keeps (c := highAt "v0") rfl List.mem_cons_self rfl
  · decide +kernel
  · decide +kernel
  · decide +kernel

end Sample

end ItemStore
