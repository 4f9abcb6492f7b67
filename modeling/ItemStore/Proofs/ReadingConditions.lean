import ItemStore.Proofs.Words
import ItemStore.Store.Selection

/-!
# Reading conditions

How a remote store reads the text of a condition: a comparison is an alias, an operator and a
placeholder, AND binds tighter than OR, and parentheses group (`readCondition`). The reader takes
one word at a time and keeps the level of parentheses that it is in, and those around. A text that
is read as a condition in any place (`ReadsAs`) is read as itself alone (`ReadsAlone`), and texts of
this sort can be joined by AND or by OR and put into parentheses.
-/

namespace ItemStore

namespace Remote

open Query

/-! ## The language of conditions -/

/-- A condition as it is read. -/
inductive Formula where
  | compare (name : String) (op : CompareOp) (placeholder : String)
  | and (left right : Formula)
  | or (left right : Formula)

/-- Whether a formula holds of an item, if the tables have all its aliases and placeholders. -/
def Formula.holds? (names : Dict String) (values : Dict Value) (item : Item) :
    Formula → Option Bool
  | compare name op placeholder => do
    let field ← names.get? name
    let expected ← values.get? placeholder
    return op.holds (item.get? field) expected
  | and left right => do
    return (← left.holds? names values item) && (← right.holds? names values item)
  | or left right => do
    return (← left.holds? names values item) || (← right.holds? names values item)

/-- What is read between two parentheses, or at the top: the disjuncts that are finished, and the
conjuncts of the one that is being read, each as one formula. -/
structure Level where
  disjuncts : Option Formula := none
  conjuncts : Option Formula := none

/-- Adds a formula to those before it. -/
def joined (join : Formula → Formula → Formula) (before : Option Formula) (f : Formula) : Formula :=
  before.elim f fun g => join g f

namespace Level

/-- Reads one more conjunct. -/
def push (l : Level) (f : Formula) : Level :=
  { l with conjuncts := some (joined .and l.conjuncts f) }

/-- Ends a disjunct. -/
def endDisjunct (l : Level) : Level := ⟨l.conjuncts.map (joined .or l.disjuncts), none⟩

/-- The formula of the whole level. -/
def close? (l : Level) : Option Formula := l.endDisjunct.disjuncts

end Level

/-- What has to come next. -/
inductive Awaited where
  | condition
  | operator (name : String)
  | operand (name : String) (op : CompareOp)
  /-- AND, OR, or the end of the level. -/
  | connective

/-- How far the words of a condition were read. -/
structure Reader where
  awaited : Awaited := .condition
  level : Level := {}
  /-- The levels around, from the innermost. -/
  enclosing : List Level := []

namespace Reader

/-- Reads one word. -/
def step (r : Reader) (w : Word) : Option Reader :=
  match r.awaited, w with
  | .condition, .name n => some { r with awaited := .operator n }
  | .condition, .openGroup => some ⟨.condition, {}, r.level :: r.enclosing⟩
  | .operator n, .op o => some { r with awaited := .operand n o }
  | .operand n o, .value v => some { r with
      awaited := .connective
      level := r.level.push (.compare n o v) }
  | .connective, .and => some { r with awaited := .condition }
  | .connective, .or => some { r with awaited := .condition, level := r.level.endDisjunct }
  | .connective, .closeGroup =>
    match r.enclosing, r.level.close? with
    | outer :: rest, some f => some ⟨.connective, outer.push f, rest⟩
    | _, _ => none
  | _, _ => none

/-- Reads words one after the other. -/
def run (r : Reader) (ws : List Word) : Option Reader := ws.foldlM step r

/-- The formula that was read, if it is complete. -/
def result? (r : Reader) : Option Formula :=
  match r.awaited, r.enclosing with
  | .connective, [] => r.level.close?
  | _, _ => none

end Reader

/-- The formula that a text says. -/
def readCondition (text : String) : Option Formula :=
  (Reader.run {} (words text)).bind Reader.result?

/-! ## Reading what is put together -/

theorem Reader.run_append (r : Reader) (v w : List Word) :
    r.run (v ++ w) = (r.run v).bind fun r => r.run w := by
  rw [run, List.foldlM_append]
  rfl

/-- A text is read as one more conjunct, wherever a condition may stand. -/
def ReadsAs (text : String) (f : Formula) : Prop :=
  ∃ ws, Written text ws ∧ ∀ level enclosing, Reader.run ⟨.condition, level, enclosing⟩ ws =
    some ⟨.connective, level.push f, enclosing⟩

/-- A text is read as a whole level. -/
def ReadsAlone (text : String) (f : Formula) : Prop :=
  ∃ ws, Written text ws ∧ ∀ enclosing, ∃ level, level.close? = some f ∧
    Reader.run ⟨.condition, {}, enclosing⟩ ws = some ⟨.connective, level, enclosing⟩

variable {text : String} {texts : List String} {f : Formula} {fs : List Formula}

theorem ReadsAs.alone (h : ReadsAs text f) : ReadsAlone text f := by
  obtain ⟨ws, hwritten, hrun⟩ := h
  exact ⟨ws, hwritten, fun enclosing => ⟨_, rfl, hrun {} enclosing⟩⟩

/-- A text that is read alone is a condition. -/
theorem ReadsAlone.read (h : ReadsAlone text f) : readCondition text = some f := by
  obtain ⟨ws, hwritten, hrun⟩ := h
  obtain ⟨level, hclose, hrun⟩ := hrun []
  rw [readCondition, hwritten.words, hrun]
  exact hclose

/-- In parentheses a level is one condition. -/
theorem ReadsAlone.group (h : ReadsAlone text f) : ReadsAs ("(" ++ text ++ ")") f := by
  obtain ⟨ws, hwritten, hrun⟩ := h
  refine ⟨_, hwritten.group, fun level enclosing => ?_⟩
  obtain ⟨inner, hclose, hrun⟩ := hrun (level :: enclosing)
  have hopen : Reader.run ⟨.condition, level, enclosing⟩ (.openGroup :: ws) =
      Reader.run ⟨.condition, {}, level :: enclosing⟩ ws := rfl
  rw [Reader.run_append, hopen, hrun]
  show Reader.step ⟨.connective, inner, level :: enclosing⟩ .closeGroup >>= _ = _
  simp [Reader.step, hclose]

/-- A rendered comparison is read as one of its alias and its placeholder. -/
theorem readsAs_compare (field : Nat) (op : CompareOp) (value : Nat) :
    ReadsAs (Clause.compareText field op (.value value))
      (.compare (Aliases.fieldAlias field) op (Aliases.valueAlias value)) := by
  refine ⟨_, ((Written.fieldAlias field).space (.symbol op)).space (.valueAlias value), ?_⟩
  intro level enclosing
  rfl

theorem foldl_push (d : Option Formula) (f : Formula) (fs : List Formula) :
    fs.foldl Level.push ⟨d, some f⟩ = ⟨d, some (fs.foldl .and f)⟩ := by
  induction fs generalizing f with
  | nil => rfl
  | cons g fs ih => exact ih (.and f g)

/-- Conjuncts are read one after the other. -/
theorem run_and (h : List.Forall₂ ReadsAs texts fs) {first : String} (hfirst : ReadsAs first f) :
    ∃ ws, Written (" AND ".intercalate (first :: texts)) ws ∧
      ∀ level enclosing, Reader.run ⟨.condition, level, enclosing⟩ ws =
        some ⟨.connective, fs.foldl Level.push (level.push f), enclosing⟩ := by
  induction h generalizing first f with
  | nil => exact hfirst
  | @cons second g texts fs hsecond hrest ih =>
    obtain ⟨v, hv, hrunv⟩ := hfirst
    obtain ⟨w, hw, hrunw⟩ := ih hsecond
    have hand : Written "AND" [.and] := .of_vocabulary (by decide)
    refine ⟨_, .intercalate (by decide) hv hand hw, fun level enclosing => ?_⟩
    rw [Reader.run_append, Reader.run_append, hrunv]
    exact hrunw (level.push f) enclosing

/-- Disjuncts are read one after the other. -/
theorem run_or (h : List.Forall₂ ReadsAs texts fs) {first : String} (hfirst : ReadsAs first f) :
    ∃ ws, Written (" OR ".intercalate (first :: texts)) ws ∧
      ∀ before enclosing, ∃ level, level.close? = some (fs.foldl .or (joined .or before f)) ∧
        Reader.run ⟨.condition, ⟨before, none⟩, enclosing⟩ ws =
          some ⟨.connective, level, enclosing⟩ := by
  induction h generalizing first f with
  | nil =>
    obtain ⟨v, hv, hrunv⟩ := hfirst
    exact ⟨v, hv, fun before enclosing => ⟨_, rfl, hrunv ⟨before, none⟩ enclosing⟩⟩
  | @cons second g texts fs hsecond hrest ih =>
    obtain ⟨v, hv, hrunv⟩ := hfirst
    obtain ⟨w, hw, hrunw⟩ := ih hsecond
    have hor : Written "OR" [.or] := .of_vocabulary (by decide)
    refine ⟨_, .intercalate (by decide) hv hor hw, fun before enclosing => ?_⟩
    -- OR ends the first disjunct, so for the rest it is one of those before.
    obtain ⟨level, hclose, hrun⟩ := hrunw (some (joined .or before f)) enclosing
    refine ⟨level, hclose, ?_⟩
    rw [Reader.run_append, Reader.run_append, hrunv]
    exact hrun

/-- Texts with AND between them are read as a conjunction. -/
theorem readsAlone_and (h : List.Forall₂ ReadsAs texts fs) {first : String}
    (hfirst : ReadsAs first f) :
    ReadsAlone (" AND ".intercalate (first :: texts)) (fs.foldl .and f) := by
  obtain ⟨ws, hwritten, hrun⟩ := run_and h hfirst
  refine ⟨ws, hwritten, fun enclosing => ⟨_, ?_, hrun {} enclosing⟩⟩
  show (fs.foldl Level.push ⟨none, some f⟩).close? = _
  rw [foldl_push]
  rfl

/-- Texts with OR between them are read as a disjunction. -/
theorem readsAlone_or (h : List.Forall₂ ReadsAs texts fs) {first : String}
    (hfirst : ReadsAs first f) :
    ReadsAlone (" OR ".intercalate (first :: texts)) (fs.foldl .or f) := by
  obtain ⟨ws, hwritten, hrun⟩ := run_or h hfirst
  exact ⟨ws, hwritten, fun enclosing => hrun none enclosing⟩

end Remote

end ItemStore
