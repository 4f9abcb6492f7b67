import ItemStore.Proofs.Aliases
import ItemStore.Store.Selection

/-!
# What is numbered

Numbering goes from left to right. A field gets the next number unless it has one, and a value gets
the next number in any case. So no field has two numbers, every number is used, and the values stand
in the order in which they were met (`Aliases.Numbers`). This holds of one field and of one value,
and goes on from what is numbered first to what is numbered after it. Main statements: it holds of
the clauses of a condition (`Condition.numbered_clauses`) and of the assignments and removals of an
update (`numbers_assignments`, `numbers_fields`).
-/

namespace ItemStore.Query

/-! ## Numbers that are given one after the other -/

namespace Aliases

/-- From `a` to `b`, fields are given the numbers `fs` and the values `us` are given the numbers
`vs`. -/
structure Numbers (a b : Aliases) (fs vs : List Nat) (us : List Value) : Prop where
  grows : a.Extends b
  /-- No field has two numbers. -/
  nodup : a.fields.Nodup → b.fields.Nodup
  /-- The numbers of fields are those of before and those that are given. -/
  fields : ∀ i, i < b.fields.length ↔ i < a.fields.length ∨ i ∈ fs
  values : b.values = a.values ++ us
  /-- Every value is given the next number. -/
  order : vs = List.range' a.values.length us.length

variable {a b c : Aliases} {fs fs' vs vs' : List Nat} {us us' : List Value}

theorem Numbers.refl (a : Aliases) : a.Numbers a [] [] [] :=
  ⟨.refl a, id, by simp, by simp, rfl⟩

/-- Numbering some fields and values and then more is numbering all of them. -/
theorem Numbers.trans (hab : a.Numbers b fs vs us) (hbc : b.Numbers c fs' vs' us') :
    a.Numbers c (fs ++ fs') (vs ++ vs') (us ++ us') where
  grows := hab.grows.trans hbc.grows
  nodup h := hbc.nodup (hab.nodup h)
  fields i := by
    rw [hbc.fields, hab.fields, List.mem_append, or_assoc]
  values := by
    rw [hbc.values, hab.values, List.append_assoc]
  order := by
    have hlength : b.values.length = a.values.length + us.length := by
      rw [hab.values, List.length_append]
    rw [hab.order, hbc.order, hlength, List.length_append]
    exact List.range'_append_1

/-- A field gets a number that is new, or that it has. -/
theorem numbers_field (a : Aliases) (name : String) :
    a.Numbers (a.field name).2 [(a.field name).1] [] [] := by
  cases h : a.fields.idxOf? name with
  | some i =>
    have hfield : a.field name = (i, a) := by
      rw [field, h]
    obtain ⟨hi, -, -⟩ := List.idxOf?_eq_some_iff.1 h
    rw [hfield]
    refine ⟨.refl a, id, fun j => ?_, by simp, rfl⟩
    simp only [List.mem_singleton]
    omega
  | none =>
    have hfield : a.field name = (a.fields.length, { a with fields := a.fields ++ [name] }) := by
      rw [field, h]
    have hnew : name ∉ a.fields := List.idxOf?_eq_none_iff.1 h
    have hgrows := (a.field_spec name).1
    rw [hfield] at hgrows ⊢
    refine ⟨hgrows, fun hnodup => ?_, fun j => ?_, by simp, rfl⟩
    · refine List.nodup_append.2 ⟨hnodup, List.pairwise_singleton _ name, ?_⟩
      rintro x hx y hy rfl
      exact hnew (List.mem_singleton.1 hy ▸ hx)
    · rw [List.length_append, List.length_singleton, List.mem_singleton]
      omega

/-- After a field was numbered the table has it besides those before. -/
theorem mem_fields_field (a : Aliases) (name field : String) :
    field ∈ (a.field name).2.fields ↔ field ∈ a.fields ∨ field = name := by
  unfold Aliases.field
  cases h : a.fields.idxOf? name with
  | some i =>
    obtain ⟨hi, heq, -⟩ := List.idxOf?_eq_some_iff.1 h
    have hmem : name ∈ a.fields := heq ▸ List.getElem_mem hi
    exact ⟨.inl, fun h => h.elim id fun heq => heq ▸ hmem⟩
  | none => simp

theorem numbers_value (a : Aliases) (v : Value) :
    a.Numbers (a.value v).2 [] [(a.value v).1] [v] :=
  ⟨(a.value_spec v).1, id, by simp [value], rfl, rfl⟩

end Aliases

/-! ## The numbers in clauses -/

/-- A comparison of a numbered field. -/
structure NumberedComparison where
  field : Nat
  op : CompareOp
  operand : ClauseOperand

/-- The number of a value. -/
def ClauseOperand.number? : ClauseOperand → Option Nat
  | value i => some i
  | placeholder _ => none

namespace Clause

mutual

/-- The comparisons from left to right. -/
def comparisons : Clause → List NumberedComparison
  | compare field op operand => [⟨field, op, operand⟩]
  | and children => comparisonsOf children
  | or children => comparisonsOf children

/-- The comparisons of the parts of a group. -/
def comparisonsOf : List Clause → List NumberedComparison
  | [] => []
  | c :: rest => comparisons c ++ comparisonsOf rest

end

/-- The numbers of the fields that are compared. -/
def fieldNumbers (ns : List NumberedComparison) : List Nat := ns.map NumberedComparison.field

/-- The numbers of the values that fields are compared with. -/
def valueNumbers (ns : List NumberedComparison) : List Nat :=
  ns.filterMap fun n => n.operand.number?

/-- From `a` to `b`, comparisons are numbered that have the values `us`. -/
abbrev Numbered (a b : Aliases) (ns : List NumberedComparison) (us : List Value) : Prop :=
  a.Numbers b (fieldNumbers ns) (valueNumbers ns) us

end Clause

/-- The values that fields are compared with, from left to right. -/
def literals (cs : List Comparison) : List Value := cs.filterMap fun c => c.operand.literal?

namespace Clause

variable {a b c : Aliases} {ns ns' : List NumberedComparison} {us us' : List Value}

/-- Comparisons that are numbered one after the other. -/
theorem Numbered.append (hab : Numbered a b ns us) (hbc : Numbered b c ns' us') :
    Numbered a c (ns ++ ns') (us ++ us') := by
  rw [Numbered, fieldNumbers, valueNumbers, List.map_append, List.filterMap_append]
  exact hab.trans hbc

theorem numbered_ofComparison (field : String) (op : CompareOp) (v : Value) (a : Aliases) :
    Numbered a (ofComparison field op v a).2 (ofComparison field op v a).1.comparisons [v] :=
  (a.numbers_field field).trans ((a.field field).2.numbers_value v)

mutual

/-- The clause of a predicate has the predicate's values, numbered from left to right. -/
theorem numbered_ofPredicate : ∀ (p : Predicate) (a : Aliases),
    Numbered a (ofPredicate a p).2 (ofPredicate a p).1.comparisons (literals p.comparisons)
  | .compare ⟨field, op, .literal v⟩, a => numbered_ofComparison field op v a
  | .compare ⟨field, _, .placeholder _⟩, a => a.numbers_field field
  | .and ps, a => numbered_ofPredicates ps a
  | .or ps, a => numbered_ofPredicates ps a

/-- The parts of a group are numbered from left to right. -/
theorem numbered_ofPredicates : ∀ (ps : List Predicate) (a : Aliases),
    Numbered a (ofPredicates a ps).2 (comparisonsOf (ofPredicates a ps).1)
      (literals (Predicate.comparisonsOf ps))
  | [], a => .refl a
  | p :: ps, a => by
    rw [Predicate.comparisonsOf, literals, List.filterMap_append]
    exact (numbered_ofPredicate p a).append (numbered_ofPredicates ps (ofPredicate a p).2)

end

end Clause

/-! ## Conditions -/

/-- The values of a key: the partition, and what sort keys are compared with if there are any. -/
def KeyCondition.values (s : Schema) (k : KeyCondition) : List Value :=
  match k.sort, s.sortKey with
  | some c, some _ => [k.partition, c.value]
  | _, _ => [k.partition]

/-- A key condition numbers the partition and then what it says of the sort key. -/
theorem Clause.numbered_ofKey (s : Schema) (k : KeyCondition) (a : Aliases) :
    Numbered a (ofKey s k a).2 (ofKey s k a).1.comparisons (k.values s) := by
  obtain ⟨partition, sort⟩ := k
  have hpartition := numbered_ofComparison s.partitionKey.name .eq partition a
  unfold ofKey KeyCondition.values
  cases sort with
  | none => exact hpartition
  | some c =>
    cases s.sortKey with
    | none => exact hpartition
    | some f =>
      exact hpartition.append (numbered_ofComparison f.name c.op c.value
        (ofComparison s.partitionKey.name .eq partition a).2)

/-- What is there is numbered, and nothing else is. -/
theorem Clause.numbered_numberOption {α : Type} {f : α → Aliases → Clause × Aliases}
    {us : α → List Value} (hf : ∀ x a, Numbered a (f x a).2 (f x a).1.comparisons (us x))
    (a : Aliases) (x : Option α) :
    Numbered a (numberOption f a x).2 ((numberOption f a x).1.elim [] comparisons)
      (x.elim [] us) := by
  cases x with
  | none => exact .refl a
  | some x => exact hf x a

namespace Condition

/-- The values that a condition compares fields with, those of the key first. -/
def values (s : Schema) (c : Condition) : List Value :=
  c.key?.elim [] (KeyCondition.values s) ++ c.residual?.elim [] fun p => literals p.comparisons

/-- The comparisons of the two clauses of a condition. -/
def numberedComparisons (s : Schema) (c : Condition) : List NumberedComparison :=
  (c.clauses s).1.elim [] Clause.comparisons ++ (c.clauses s).2.1.elim [] Clause.comparisons

/-- The clauses of a condition have its values, numbered from left to right. -/
theorem numbered_clauses (s : Schema) (c : Condition) :
    Clause.Numbered {} (c.clauses s).2.2 (c.numberedComparisons s) (c.values s) := by
  cases c with
  | everything => exact .refl {}
  | keyEquals v =>
    have hkey := Clause.numbered_ofComparison s.partitionKey.name .eq v {}
    exact hkey.append (.refl _)
  | filter key predicate =>
    have hkey := Clause.numbered_numberOption (Clause.numbered_ofKey s) {} key
    have hrest := Clause.numbered_numberOption (fun p a => Clause.numbered_ofPredicate p a)
      (numberOption (Clause.ofKey s) {} key).2 predicate
    exact hkey.append hrest

end Condition

/-! ## Updates -/

/-- Assignments number the fields and the values that they set. -/
theorem numbers_assignments : ∀ (entries : List (String × Value)) (a : Aliases),
    a.Numbers (numberAssignments a entries).2 ((numberAssignments a entries).1.map Prod.fst)
      ((numberAssignments a entries).1.map Prod.snd) (entries.map Prod.snd)
  | [], a => .refl a
  | (name, v) :: entries, a =>
    ((a.numbers_field name).trans ((a.field name).2.numbers_value v)).trans
      (numbers_assignments entries ((a.field name).2.value v).2)

/-- The fields that are removed are numbered without values. -/
theorem numbers_fields : ∀ (names : List String) (a : Aliases),
    a.Numbers (numberFields a names).2 (numberFields a names).1 [] []
  | [], a => .refl a
  | name :: names, a => (a.numbers_field name).trans (numbers_fields names (a.field name).2)

theorem mem_fields_numberAssignments (field : String) :
    ∀ (entries : List (String × Value)) (a : Aliases),
      field ∈ (numberAssignments a entries).2.fields ↔
        field ∈ a.fields ∨ field ∈ entries.map Prod.fst
  | [], a => by simp [numberAssignments]
  | (name, v) :: entries, a => by
    have hvalue : ((a.field name).2.value v).2.fields = (a.field name).2.fields := rfl
    rw [List.map_cons, List.mem_cons, ← or_assoc, ← a.mem_fields_field, ← hvalue]
    exact mem_fields_numberAssignments field entries ((a.field name).2.value v).2

theorem mem_fields_numberFields (field : String) :
    ∀ (names : List String) (a : Aliases),
      field ∈ (numberFields a names).2.fields ↔ field ∈ a.fields ∨ field ∈ names
  | [], a => by simp [numberFields]
  | name :: names, a => by
    rw [List.mem_cons, ← or_assoc, ← a.mem_fields_field]
    exact mem_fields_numberFields field names (a.field name).2

end ItemStore.Query
