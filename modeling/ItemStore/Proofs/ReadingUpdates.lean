import ItemStore.Proofs.Words

/-!
# Reading updates

How a remote store reads the text of an update, and what it does to a row. A text is made of the
parts `SET` and `REMOVE`, each once at most, with a list of what to do (`readUpdate`). Aliases and
placeholders are replaced by what the tables have for them. Fields of the key are never written, and
no field is written twice; otherwise the update is refused (`UpdateExpression.execute?`).
-/

namespace ItemStore.Remote

open Query

/-! ## The language of updates -/

/-- One thing to do to a row. -/
inductive Act where
  | set (name placeholder : String)
  | remove (name : String)

/-- Whether an act sets a field. -/
def Act.isSet : Act → Bool
  | set _ _ => true
  | remove _ => false

/-- What has to come next in an update. -/
inductive UpdateAwaited where
  /-- `SET` or `REMOVE`. -/
  | part
  | target
  | equals (name : String)
  | assigned (name : String)
  | removed
  /-- A comma, `REMOVE`, or the end. -/
  | afterSet
  /-- A comma, `SET`, or the end. -/
  | afterRemove

/-- How far the words of an update were read. -/
structure UpdateReader where
  awaited : UpdateAwaited := .part
  /-- What was read, in order. -/
  acts : List Act := []

namespace UpdateReader

/-- Reads one word. -/
def step (r : UpdateReader) (w : Word) : Option UpdateReader :=
  match r.awaited, w with
  | .part, .set => some { r with awaited := .target }
  | .part, .remove => some { r with awaited := .removed }
  | .target, .name n => some { r with awaited := .equals n }
  | .equals n, .op .eq => some { r with awaited := .assigned n }
  | .assigned n, .value v => some ⟨.afterSet, r.acts ++ [.set n v]⟩
  | .removed, .name n => some ⟨.afterRemove, r.acts ++ [.remove n]⟩
  | .afterSet, .comma => some { r with awaited := .target }
  | .afterSet, .remove => if r.acts.all Act.isSet then some { r with awaited := .removed } else none
  | .afterRemove, .comma => some { r with awaited := .removed }
  | .afterRemove, .set =>
    if r.acts.any Act.isSet then none else some { r with awaited := .target }
  | _, _ => none

/-- Reads words one after the other. -/
def run (r : UpdateReader) (ws : List Word) : Option UpdateReader := ws.foldlM step r

/-- What was read, if it is complete. -/
def result? (r : UpdateReader) : Option (List Act) :=
  match r.awaited with
  | .afterSet | .afterRemove => some r.acts
  | _ => none

theorem run_append (r : UpdateReader) (v w : List Word) :
    r.run (v ++ w) = (r.run v).bind fun r => r.run w := by
  rw [run, List.foldlM_append]
  rfl

end UpdateReader

/-- What a text says to do. -/
def readUpdate (text : String) : Option (List Act) :=
  (UpdateReader.run {} (words text)).bind UpdateReader.result?

/-! ## What an update does -/

/-- A field that gets a value, or loses its value. -/
abbrev Change := String × Option Value

/-- What an act does by the tables of names and values, if they have what it needs. -/
def Act.change? (names : Dict String) (values : Dict Value) : Act → Option Change
  | set name placeholder => do return (← names.get? name, some (← values.get? placeholder))
  | remove name => do return (← names.get? name, none)

/-- The row after a change. -/
def changed (row : Item) : Change → Item
  | (field, some v) => row.insert field v
  | (field, none) => row.erase field

/-- The row that an update leaves of a row, if the update is not refused. -/
def execute? (isKey : String → Bool) (u : UpdateExpression) (row : Item) : Option Item :=
  match u.text with
  | none => some row
  | some text => do
    let acts ← readUpdate text
    let changes ← acts.mapM fun a => a.change? u.names u.values
    let fields := changes.map Prod.fst
    if fields.Nodup ∧ fields.all fun field => !isKey field then some (changes.foldl changed row)
    else none

/-! ## Reading what is put together -/

/-- Between two states a text is read as some acts. -/
def ReadsActs (before after : UpdateAwaited) (text : String) (acts : List Act) : Prop :=
  ∃ ws, Written text ws ∧ ∀ done, UpdateReader.run ⟨before, done⟩ ws = some ⟨after, done ++ acts⟩

/-- An assignment by numbers, as it is written. -/
def assignText (p : Nat × Nat) : String :=
  Aliases.fieldAlias p.1 ++ " = " ++ Aliases.valueAlias p.2

/-- An assignment by numbers, as it is read. -/
def assignAct (p : Nat × Nat) : Act := .set (Aliases.fieldAlias p.1) (Aliases.valueAlias p.2)

/-- A removal by number, as it is read. -/
def removeAct (field : Nat) : Act := .remove (Aliases.fieldAlias field)

/-- A rendered assignment is read as setting its alias. -/
theorem readsActs_assign (p : Nat × Nat) :
    ReadsActs .target .afterSet (assignText p) [assignAct p] := by
  have hequals : Written "=" [.op .eq] := .of_vocabulary (by decide)
  have htext : assignText p =
      Aliases.fieldAlias p.1 ++ " " ++ "=" ++ " " ++ Aliases.valueAlias p.2 := by
    have hsep : " = " = " " ++ "=" ++ " " := by decide
    rw [assignText, hsep]
    simp only [String.append_assoc]
  rw [htext]
  exact ⟨_, ((Written.fieldAlias p.1).space hequals).space (.valueAlias p.2), fun _ => rfl⟩

theorem readsActs_remove (field : Nat) :
    ReadsActs .removed .afterRemove (Aliases.fieldAlias field) [removeAct field] :=
  ⟨_, .fieldAlias field, fun _ => rfl⟩

/-- A list is read one act after the other. -/
theorem readsActs_intercalate {α : Type} {before after : UpdateAwaited} {text : α → String}
    {act : α → Act}
    (hcomma : ∀ done, UpdateReader.step ⟨after, done⟩ .comma = some ⟨before, done⟩)
    (h : ∀ x, ReadsActs before after (text x) [act x]) (x : α) (xs : List α) :
    ReadsActs before after (", ".intercalate ((x :: xs).map text)) ((x :: xs).map act) := by
  induction xs generalizing x with
  | nil => exact h x
  | cons y ys ih =>
    obtain ⟨v, hv, hrunv⟩ := h x
    obtain ⟨w, hw, hrunw⟩ := ih y
    refine ⟨v ++ .comma :: w, ?_, fun done => ?_⟩
    · rw [List.map_cons, List.map_cons, String.intercalate_cons_cons]
      exact hv.comma hw
    · have hrest : UpdateReader.run ⟨after, done ++ [act x]⟩ (.comma :: w) =
          UpdateReader.run ⟨before, done ++ [act x]⟩ w := by
        rw [UpdateReader.run, List.foldlM_cons, hcomma]
        rfl
      rw [UpdateReader.run_append, hrunv, Option.bind_some, hrest, hrunw, List.append_assoc]
      rfl

/-- Assignments after their keyword. -/
theorem readsActs_sets (p : Nat × Nat) (ps : List (Nat × Nat)) :
    ∃ ws, Written ("SET" ++ " " ++ ", ".intercalate ((p :: ps).map assignText)) ws ∧
      UpdateReader.run {} ws = some ⟨.afterSet, (p :: ps).map assignAct⟩ := by
  obtain ⟨ws, hws, hrun⟩ := readsActs_intercalate (fun _ => rfl) readsActs_assign p ps
  have hset : Written "SET" [.set] := .of_vocabulary (by decide)
  exact ⟨_, hset.space hws, hrun []⟩

/-- Removals after their keyword, alone or after assignments. -/
theorem readsActs_removes (field : Nat) (fields : List Nat) :
    ∃ ws, Written ("REMOVE" ++ " " ++ ", ".intercalate
        ((field :: fields).map Aliases.fieldAlias)) ws ∧
      UpdateReader.run {} ws = some ⟨.afterRemove, (field :: fields).map removeAct⟩ ∧
      ∀ ps : List (Nat × Nat), UpdateReader.run ⟨.afterSet, ps.map assignAct⟩ ws =
        some ⟨.afterRemove, ps.map assignAct ++ (field :: fields).map removeAct⟩ := by
  obtain ⟨ws, hws, hrun⟩ := readsActs_intercalate (fun _ => rfl) readsActs_remove field fields
  have hremove : Written "REMOVE" [.remove] := .of_vocabulary (by decide)
  refine ⟨_, hremove.space hws, hrun [], fun ps => ?_⟩
  -- After assignments the keyword is read only if there were no removals.
  have hall : (ps.map assignAct).all Act.isSet = true := by
    simp [assignAct, Act.isSet]
  have hkeyword : UpdateReader.step ⟨.afterSet, ps.map assignAct⟩ .remove =
      some ⟨.removed, ps.map assignAct⟩ := by
    simp [UpdateReader.step, hall]
  rw [List.singleton_append, UpdateReader.run, List.foldlM_cons, hkeyword]
  exact hrun (ps.map assignAct)

/-- The text of an update is read as its assignments and its removals. -/
theorem readUpdate_of_updateClauses (ps : List (Nat × Nat)) (fields : List Nat) :
    let clauses := updateClause "SET" (ps.map assignText) ++
      updateClause "REMOVE" (fields.map Aliases.fieldAlias)
    clauses ≠ [] →
      readUpdate (" ".intercalate clauses) = some (ps.map assignAct ++ fields.map removeAct) := by
  intro clauses hne
  cases ps with
  | nil =>
    cases fields with
    | nil => exact absurd rfl hne
    | cons field fields =>
      obtain ⟨ws, hws, hrun, -⟩ := readsActs_removes field fields
      have htext : " ".intercalate clauses =
          "REMOVE" ++ " " ++ ", ".intercalate ((field :: fields).map Aliases.fieldAlias) := rfl
      rw [readUpdate, htext, hws.words, hrun]
      rfl
  | cons p ps =>
    obtain ⟨v, hv, hrunv⟩ := readsActs_sets p ps
    cases fields with
    | nil =>
      have htext : " ".intercalate clauses =
          "SET" ++ " " ++ ", ".intercalate ((p :: ps).map assignText) := rfl
      rw [readUpdate, htext, hv.words, hrunv, List.map_nil, List.append_nil]
      rfl
    | cons field fields =>
      obtain ⟨w, hw, -, hrunw⟩ := readsActs_removes field fields
      have htext : " ".intercalate clauses =
          "SET" ++ " " ++ ", ".intercalate ((p :: ps).map assignText) ++ " " ++
            ("REMOVE" ++ " " ++ ", ".intercalate
              ((field :: fields).map Aliases.fieldAlias)) := rfl
      rw [readUpdate, htext, (hv.space hw).words, UpdateReader.run_append, hrunv,
        Option.bind_some, hrunw]
      rfl

end ItemStore.Remote
