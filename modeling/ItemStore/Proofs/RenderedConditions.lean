import ItemStore.Proofs.Aliases
import ItemStore.Proofs.ReadingConditions
import ItemStore.Proofs.Steps
import ItemStore.Proofs.Translation
import ItemStore.Remote.Table

/-!
# Rendered conditions are read as what they select

Rendering numbers the fields and values of a condition and writes its clauses as text. Every clause
is read as a formula that says what the clause was made of, whatever is numbered after it (`Tells`);
a predicate is followed by cases, one for each kind of group. Main statement: the texts of a
rendered condition are read, the key condition holds where the store in memory selects and the
filter holds where an item passes there, and a partition is never read without a key condition
(`render_matches`).
-/

namespace ItemStore

/-! ## Conditions without gaps -/

mutual

/-- Whether every operand is a value and no group is empty. -/
def Predicate.isComplete : Predicate → Bool
  | .compare c => c.operand.literal?.isSome
  | .and children => !children.isEmpty && Predicate.areComplete children
  | .or children => !children.isEmpty && Predicate.areComplete children

/-- Whether all parts of a group are complete. -/
def Predicate.areComplete : List Predicate → Bool
  | [] => true
  | p :: rest => Predicate.isComplete p && Predicate.areComplete rest

end

namespace Remote

open Query

/-! ## What a formula says -/

/-- Under some aliases the formula holds of just those items that pass a test. -/
def Formula.Says (a : Aliases) (f : Formula) (test : Item → Bool) : Prop :=
  ∀ item, f.holds? a.names a.valueTable item = some (test item)

namespace Formula.Says

variable {a : Aliases} {f g : Formula} {fs : List Formula} {p q : Item → Bool}
  {tests : List (Item → Bool)}

/-- A comparison says that the field of its alias holds with the value of its placeholder. -/
theorem compare {i j : Nat} {name : String} {v : Value} (op : CompareOp)
    (hfield : a.fields[i]? = some name) (hvalue : a.values[j]? = some v) :
    Says a (.compare (Aliases.fieldAlias i) op (Aliases.valueAlias j)) fun item =>
      op.holds (item.get? name) v := by
  intro item
  rw [holds?, a.get?_names, a.get?_valueTable, hfield, hvalue]
  rfl

/-- A conjunction says what both say. -/
theorem and (hf : f.Says a p) (hg : g.Says a q) :
    (f.and g).Says a fun item => p item && q item := by
  intro item
  rw [holds?, hf item, hg item]
  rfl

/-- A disjunction says what one of both says. -/
theorem or (hf : f.Says a p) (hg : g.Says a q) :
    (f.or g).Says a fun item => p item || q item := by
  intro item
  rw [holds?, hf item, hg item]
  rfl

/-- A conjunction of many says what all of them say. -/
theorem foldl_and (h : List.Forall₂ (Says a) fs tests) (hf : f.Says a p) :
    (fs.foldl .and f).Says a fun item => p item && tests.all fun test => test item := by
  induction h generalizing f p with
  | nil => simpa using hf
  | cons hg _ ih => simpa [Bool.and_assoc] using ih (hf.and hg)

/-- A disjunction of many says what one of them says. -/
theorem foldl_or (h : List.Forall₂ (Says a) fs tests) (hf : f.Says a p) :
    (fs.foldl .or f).Says a fun item => p item || tests.any fun test => test item := by
  induction h generalizing f p with
  | nil => simpa using hf
  | cons hg _ ih => simpa [Bool.or_assoc] using ih (hf.or hg)

end Formula.Says

/-! ## Clauses are read as what they were made of -/

/-- A clause as a part of a group. -/
def partText : Clause → String
  | .compare field op operand => Clause.compareText field op operand
  | c => "(" ++ c.text ++ ")"

theorem parts_cons (c : Clause) (rest : List Clause) :
    Clause.parts (c :: rest) = partText c :: Clause.parts rest := by
  cases c <;> simp [Clause.parts, partText, Clause.text]

/-- The text of a clause, alone or as a part, is read as a formula that says what a test says. -/
def Tells (a : Aliases) (c : Clause) (test : Item → Bool) : Prop :=
  ∀ b, a.Extends b → ∃ f : Formula, f.Says b test ∧ ReadsAlone c.text f ∧ ReadsAs (partText c) f

/-- The parts of a group are read as formulas that say what tests say. -/
def TellAll (a : Aliases) (cs : List Clause) (tests : List (Item → Bool)) : Prop :=
  ∀ b, a.Extends b → ∃ fs : List Formula, List.Forall₂ (Formula.Says b) fs tests ∧
    List.Forall₂ ReadsAs (Clause.parts cs) fs

variable {a : Aliases} {c : Clause} {cs : List Clause} {test : Item → Bool}
  {tests : List (Item → Bool)}

theorem tellAll_nil (a : Aliases) : TellAll a [] [] :=
  fun b _ => ⟨[], .nil, by rw [Clause.parts]; exact .nil⟩

/-- One clause more is one test more. -/
theorem TellAll.cons {a' : Aliases} (hextends : a.Extends a') (hc : Tells a c test)
    (hcs : TellAll a' cs tests) : TellAll a' (c :: cs) (test :: tests) := by
  intro b hb
  obtain ⟨f, hsays, -, hreads⟩ := hc b (hextends.trans hb)
  obtain ⟨fs, hall, hparts⟩ := hcs b hb
  refine ⟨f :: fs, .cons hsays hall, ?_⟩
  rw [parts_cons]
  exact .cons hreads hparts

/-- A group that is not empty has a first part. -/
theorem TellAll.uncons (h : TellAll a cs (test :: tests)) {b : Aliases} (hb : a.Extends b) :
    ∃ first texts f fs, Clause.parts cs = first :: texts ∧ Formula.Says b f test ∧
      ReadsAs first f ∧ List.Forall₂ (Formula.Says b) fs tests ∧ List.Forall₂ ReadsAs texts fs := by
  obtain ⟨fs, hall, hparts⟩ := h b hb
  obtain ⟨f, fs, hsays, hsaysRest, rfl⟩ := List.forall₂_cons_right_iff.1 hall
  obtain ⟨first, texts, hreads, hreadsRest, heq⟩ := List.forall₂_cons_right_iff.1 hparts
  exact ⟨first, texts, f, fs, heq, hsays, hreads, hsaysRest, hreadsRest⟩

/-- A group that has to hold all together tells the conjunction of its tests. -/
theorem TellAll.and (h : TellAll a cs (test :: tests)) :
    Tells a (.and cs) fun item => test item && tests.all fun test => test item := by
  intro b hb
  obtain ⟨first, texts, f, fs, heq, hsays, hreads, hall, hparts⟩ := h.uncons hb
  have halone : ReadsAlone (Clause.and cs).text (fs.foldl .and f) := by
    rw [Clause.text, heq]
    exact readsAlone_and hparts hreads
  exact ⟨_, hsays.foldl_and hall, halone, halone.group⟩

/-- A group of which one has to hold tells the disjunction of its tests. -/
theorem TellAll.or (h : TellAll a cs (test :: tests)) :
    Tells a (.or cs) fun item => test item || tests.any fun test => test item := by
  intro b hb
  obtain ⟨first, texts, f, fs, heq, hsays, hreads, hall, hparts⟩ := h.uncons hb
  have halone : ReadsAlone (Clause.or cs).text (fs.foldl .or f) := by
    rw [Clause.text, heq]
    exact readsAlone_or hparts hreads
  exact ⟨_, hsays.foldl_or hall, halone, halone.group⟩

/-- A numbered comparison tells what the comparison does. -/
theorem tells_ofComparison (field : String) (op : CompareOp) (v : Value) (a : Aliases) :
    a.Extends (Clause.ofComparison field op v a).2 ∧
      Tells (Clause.ofComparison field op v a).2 (Clause.ofComparison field op v a).1
        fun item => op.holds (item.get? field) v := by
  obtain ⟨hfirst, hfield⟩ := a.field_spec field
  obtain ⟨hsecond, hvalue⟩ := (a.field field).2.value_spec v
  refine ⟨hfirst.trans hsecond, fun b hb => ?_⟩
  have hreads := readsAs_compare (a.field field).1 op ((a.field field).2.value v).1
  refine ⟨_, .compare op ((hsecond.trans hb).field hfield) (hb.value hvalue), ?_, hreads⟩
  rw [Clause.ofComparison, Clause.text]
  exact hreads.alone

mutual

/-- A numbered predicate tells what the predicate does. -/
theorem tells_ofPredicate : ∀ (p : Predicate) (a : Aliases), p.isComplete = true →
    a.Extends (Clause.ofPredicate a p).2 ∧
      Tells (Clause.ofPredicate a p).2 (Clause.ofPredicate a p).1 fun item => p.holds item
  | .compare ⟨field, op, .literal v⟩, a, _ => by
    simpa [Clause.ofPredicate, Comparison.holds] using tells_ofComparison field op v a
  | .compare ⟨_, _, .placeholder _⟩, _, h => nomatch h
  | .and [], _, h => nomatch h
  | .and (p :: ps), a, h => by
    rw [Predicate.isComplete, Bool.and_eq_true] at h
    obtain ⟨hextends, hall⟩ := tellAll_ofPredicates (p :: ps) a h.2
    refine ⟨hextends, ?_⟩
    have htells := hall.and
    simpa [Clause.ofPredicate, List.all_map, Function.comp_def] using htells
  | .or [], _, h => nomatch h
  | .or (p :: ps), a, h => by
    rw [Predicate.isComplete, Bool.and_eq_true] at h
    obtain ⟨hextends, hall⟩ := tellAll_ofPredicates (p :: ps) a h.2
    refine ⟨hextends, ?_⟩
    have htells := hall.or
    simpa [Clause.ofPredicate, List.any_map, Function.comp_def] using htells

theorem tellAll_ofPredicates : ∀ (ps : List Predicate) (a : Aliases),
    Predicate.areComplete ps = true → a.Extends (Clause.ofPredicates a ps).2 ∧
      TellAll (Clause.ofPredicates a ps).2 (Clause.ofPredicates a ps).1
        (ps.map fun p item => p.holds item)
  | [], a, _ => by
    rw [Clause.ofPredicates]
    exact ⟨.refl a, tellAll_nil a⟩
  | p :: ps, a, h => by
    rw [Predicate.areComplete, Bool.and_eq_true] at h
    obtain ⟨hfirst, htells⟩ := tells_ofPredicate p a h.1
    -- The rest is numbered after the first part, whose numbers stay as they are.
    obtain ⟨hrest, hall⟩ := tellAll_ofPredicates ps (Clause.ofPredicate a p).2 h.2
    rw [Clause.ofPredicates]
    exact ⟨hfirst.trans hrest, .cons hrest htells hall⟩

end

/-! ## Conditions are read as what they select -/

/-- More aliases change nothing of what a clause tells. -/
theorem Tells.mono {b : Aliases} (h : Tells a c test) (hab : a.Extends b) : Tells b c test :=
  fun d hd => h d (hab.trans hd)

theorem Tells.congr {test' : Item → Bool} (h : Tells a c test)
    (heq : ∀ item, test item = test' item) : Tells a c test' :=
  funext heq ▸ h

/-- What a clause tells is read from its text and tables. -/
theorem Tells.read (h : Tells a c test) : ∃ f, readCondition c.text = some f ∧
    ∀ item, f.holds? a.names a.valueTable item = some (test item) := by
  obtain ⟨f, hsays, halone, -⟩ := h a (.refl a)
  exact ⟨f, halone.read, hsays⟩

/-- The clause of a key says what the key selects. -/
theorem tells_ofKey (s : Schema) (k : KeyCondition) :
    Tells (Clause.ofKey s k {}).2 (Clause.ofKey s k {}).1 (k.selects s) := by
  obtain ⟨partition, sort⟩ := k
  obtain ⟨-, hpartition⟩ := tells_ofComparison s.partitionKey.name .eq partition {}
  unfold Clause.ofKey
  cases sort with
  | none => exact hpartition.congr fun item => by simp [KeyCondition.selects_eq]
  | some range =>
    cases hfield : s.sortKey with
    | none => exact hpartition.congr fun item => by simp [KeyCondition.selects_eq, hfield]
    | some f =>
      obtain ⟨hextends, hrange⟩ := tells_ofComparison f.name range.op range.value
        (Clause.ofComparison s.partitionKey.name .eq partition {}).2
      have hboth := ((tellAll_nil _).cons (.refl _) hrange).cons hextends hpartition
      exact hboth.and.congr fun item => by simp [KeyCondition.selects_eq, hfield]

/-- The clauses of a condition say what it selects and what passes. -/
theorem clauses_tell (s : Schema) (c : Condition) (hc : ∀ p ∈ c.residual?, p.isComplete = true) :
    (∀ key ∈ (c.clauses s).1, Tells (c.clauses s).2.2 key (c.selects s)) ∧
      ∀ rest ∈ (c.clauses s).2.1, Tells (c.clauses s).2.2 rest c.passes := by
  rcases c with _ | v | ⟨key, predicate⟩
  · exact ⟨nofun, nofun⟩
  · refine ⟨?_, nofun⟩
    rintro key hkey
    obtain rfl := Option.some.inj hkey
    exact tells_ofKey s ⟨v, none⟩
  · cases predicate with
    | none =>
      refine ⟨?_, nofun⟩
      cases key with
      | none => exact nofun
      | some k =>
        rintro key hkey
        obtain rfl := Option.some.inj hkey
        exact tells_ofKey s k
    | some p =>
      obtain ⟨hextends, htells⟩ := tells_ofPredicate p (numberOption (Clause.ofKey s) {} key).2
        (hc p rfl)
      refine ⟨?_, ?_⟩
      · cases key with
        | none => exact nofun
        | some k =>
          rintro key hkey
          obtain rfl := Option.some.inj hkey
          exact (tells_ofKey s k).mono hextends
      · rintro rest hrest
        obtain rfl := Option.some.inj hrest
        exact htells

/-- There is a key clause and a filter clause just when the condition has the parts for them. -/
theorem clauses_isSome (s : Schema) (c : Condition) :
    (c.clauses s).1.isSome = c.key?.isSome ∧ (c.clauses s).2.1.isSome = c.residual?.isSome := by
  rcases c with _ | v | ⟨_ | key, _ | predicate⟩ <;> exact ⟨rfl, rfl⟩

theorem operation_eq_query_iff (c : Condition) : c.operation = .query ↔ c.key?.isSome = true := by
  rcases c with _ | v | ⟨_ | key, predicate⟩ <;> simp [Condition.operation, Condition.key?]

/-- The texts of an expression, read by its tables, hold of the items that the condition selects and
lets pass. Without a text every item does. -/
structure Matches (e : Expression) (s : Schema) (c : Condition) : Prop where
  key : ∀ text ∈ e.keyCondition, ∃ f, readCondition text = some f ∧
    ∀ item, f.holds? e.names e.values item = some (c.selects s item)
  filter : ∀ text ∈ e.filter, ∃ f, readCondition text = some f ∧
    ∀ item, f.holds? e.names e.values item = some (c.passes item)
  noKey : e.keyCondition = none → ∀ item, c.selects s item = true
  noFilter : e.filter = none → ∀ item, c.passes item = true
  /-- A partition is read if there is a key condition, which there is if the condition has a key. -/
  operation : e.operation = .query ↔ e.keyCondition.isSome = true
  plan : e.keyCondition.isSome = c.key?.isSome

/-- A condition that reads by key has a key condition. -/
theorem isSome_keyCondition (s : Schema) (c : Condition) :
    (c.render s).keyCondition.isSome = c.key?.isSome := by
  rw [← (clauses_isSome s c).1]
  exact Option.isSome_map

/-- A condition that filters has a filter. -/
theorem isSome_filter (s : Schema) (c : Condition) :
    (c.render s).filter.isSome = c.residual?.isSome := by
  rw [← (clauses_isSome s c).2]
  exact Option.isSome_map

/-- A rendered condition reads and filters what the condition does. -/
theorem matches_render (s : Schema) (c : Condition)
    (hc : ∀ p ∈ c.residual?, p.isComplete = true) : Matches (c.render s) s c := by
  obtain ⟨hkey, hrest⟩ := clauses_tell s c hc
  have hplan := isSome_keyCondition s c
  have hresidual := isSome_filter s c
  refine ⟨?_, ?_, ?_, ?_, ?_, hplan⟩
  · intro text htext
    obtain ⟨clause, hclause, rfl⟩ := Option.map_eq_some_iff.1 htext
    exact (hkey clause hclause).read
  · intro text htext
    obtain ⟨clause, hclause, rfl⟩ := Option.map_eq_some_iff.1 htext
    exact (hrest clause hclause).read
  · intro hnone item
    have hno : c.key? = none := by simpa [hnone] using hplan
    rw [Condition.selects, hno, Option.all_none]
  · intro hnone item
    have hno : c.residual? = none := by simpa [hnone] using hresidual
    rw [Condition.passes, hno, Option.all_none]
  · rw [hplan]
    exact operation_eq_query_iff c

/-! ## A partition is never read without a key condition -/

open Store Step

variable {α β : Type} {e : Error}

/-- A step never fails with an error. -/
def Never (e : Error) (step : Step Transport α) : Prop :=
  ∀ t, (outcome step t).1 ≠ .error e

/-- A step after a step never fails so if both never do. -/
theorem Never.bind {step : Step Transport α} {g : α → Step Transport β}
    (hstep : Never e step) (hg : ∀ x, Never e (g x)) : Never e (step >>= g) := by
  intro t
  rw [outcome_bind]
  have h := hstep t
  rcases hstep : outcome step t with ⟨e' | x, t'⟩
  · rw [hstep] at h
    exact fun heq => h (congrArg Except.error (Except.error.inj heq))
  · exact hg x t'

theorem never_pure (x : α) : Never e (pure x) := by
  intro t
  simp

theorem never_throw {e' : Error} (h : e' ≠ e) : Never e (throw e' : Step Transport α) :=
  fun _ heq => h (Except.error.inj heq)

theorem never_send (r : Request) : Never e (Transport.send r) := by
  intro t
  rcases t with ⟨_ | ⟨response, rest⟩, sent⟩ <;> exact nofun

theorem never_converted (access : Access) (fault : StoreFault) (r : Except DataFault α) :
    Never (.store access fault) (converted r) := by
  intro t
  rw [converted, outcome_ofExcept]
  cases r <;> simp

/-- A request meets other faults. -/
theorem fault_ne_noKeyCondition (r : Request) (name : String) : r.fault name ≠ .noKeyCondition := by
  unfold Request.fault Request.namedFault Request.unhandled
  repeat' split
  all_goals exact nofun

/-- A request is never refused for a missing key condition. -/
theorem never_call (r : Request) (read? : Json → Option α) :
    Never (.store .read .noKeyCondition) (call r read?) := by
  refine (never_send r).bind fun response => ?_
  cases response with
  | fault name =>
    refine never_throw fun heq => ?_
    exact fault_ne_noKeyCondition r name (Error.store.inj heq).2
  | body j =>
    dsimp only
    split
    · exact never_pure _
    · exact never_throw fun heq => nomatch (Error.store.inj heq).2

/-- A read of a partition has a key condition to send. -/
theorem query_has_keyCondition (s : Schema) (c : Condition) :
    ((c.render s).operation == .query && (c.render s).keyCondition.isNone) = false := by
  have hquery : (c.render s).operation = .query ↔ c.key?.isSome = true :=
    operation_eq_query_iff c
  rw [← isSome_keyCondition s c] at hquery
  cases hkey : (c.render s).keyCondition with
  | none =>
    rw [hkey] at hquery
    have hscan : (c.render s).operation ≠ .query := fun h => nomatch hquery.1 h
    simp [hscan]
  | some text => simp

/-- A fetch is never refused for a missing key condition. -/
theorem never_noKeyCondition (name : String) (s : Schema) (c : Condition) (start : Option Item) :
    Never (.store .read .noKeyCondition) (fetchPage name s c start) := by
  unfold fetchPage
  simp only [query_has_keyCondition]
  refine (never_call _ _).bind fun answer => (never_converted _ _ _).bind fun items => ?_
  obtain ⟨_, _ | ⟨_ | ⟨e, rest⟩⟩⟩ := answer
  · exact never_pure _
  · exact never_pure _
  · exact (never_converted _ _ _).bind fun start => never_pure _

/-- Both stores read a condition alike: the rendered texts hold where the store in memory selects
rows and lets them pass, and a partition is read just if there is a key condition to send. -/
theorem render_matches (s : Schema) (c : Condition)
    (hc : ∀ p ∈ c.residual?, p.isComplete = true) :
    Matches (c.render s) s c ∧
      ∀ name start, Never (.store .read .noKeyCondition) (fetchPage name s c start) :=
  ⟨matches_render s c hc, fun name start => never_noKeyCondition name s c start⟩

end Remote

/-! ## A condition on readings -/

namespace Sample

open Query Remote

/-- Late readings of one sensor, of some value with a unit or of a low one. -/
def late : Condition :=
  .filter (some ⟨.text "s1", some ⟨.ge, .number "10"⟩⟩)
    (some (.or [.and [.compare ⟨"value", .ne, .literal (.number "0")⟩,
        .compare ⟨"unit", .eq, .literal (.text "C")⟩],
      .compare ⟨"value", .lt, .literal (.number "-5")⟩]))

/-- A condition with key and filter. -/
theorem render_matches_late :
    (∀ p ∈ late.residual?, p.isComplete = true) ∧
      Matches (late.render readings) readings late := by
  have hcomplete : ∀ p ∈ late.residual?, p.isComplete = true := by
    decide
  exact ⟨hcomplete, (render_matches readings late hcomplete).1⟩

example : (late.render readings).filter = some "(#f2 <> :v2 AND #f3 = :v3) OR #f2 < :v4" := by
  simp [late, readings, Condition.render, Condition.clauses, numberOption, Clause.ofKey,
    Clause.ofComparison, Aliases.field, Aliases.value, Expression.ofClauses, Clause.ofPredicate,
    Clause.ofPredicates, Clause.text, Clause.parts, Clause.compareText]
  decide

end Sample

end ItemStore
