/-!
# Ordered dictionaries

Items, named parameters and the tables of an expression all map names to something. A `Dict`
keeps its entries in increasing order of name, one entry a name, so it has one form for each
finite map (`Dict.ext_get?`) and every listing of it is in order. Strings compare by code
point, which is also the order of their UTF-8 bytes.
-/

namespace ItemStore

/-- Entries in strictly increasing order of name. -/
structure Dict (α : Type) where
  entries : List (String × α)
  ordered : entries.Pairwise fun a b => a.1 < b.1

namespace Dict

variable {α β : Type}

theorem ext_entries {d e : Dict α} (h : d.entries = e.entries) : d = e := by
  cases d; cases e; simpa using h

/-- Dictionaries with the same entries are equal. -/
instance [DecidableEq α] : DecidableEq (Dict α) := fun d e =>
  decidable_of_iff (d.entries = e.entries) ⟨ext_entries, fun h => by rw [h]⟩

/-- No entries. -/
def empty : Dict α := ⟨[], .nil⟩

instance : EmptyCollection (Dict α) := ⟨empty⟩

instance : Inhabited (Dict α) := ⟨empty⟩

/-- The value under a name. -/
def get? (d : Dict α) (name : String) : Option α :=
  (d.entries.find? fun e => e.1 == name).map Prod.snd

/-- Whether a name has a value. -/
def contains (d : Dict α) (name : String) : Bool := d.entries.any fun e => e.1 == name

/-- The names, in order. -/
def keys (d : Dict α) : List String := d.entries.map Prod.fst

/-- The number of names. -/
def size (d : Dict α) : Nat := d.entries.length

/-- Puts an entry in its place, over one of the same name. -/
def insertEntry (name : String) (value : α) : List (String × α) → List (String × α)
  | [] => [(name, value)]
  | e :: rest =>
    if name < e.1 then (name, value) :: e :: rest
    else if name = e.1 then (name, value) :: rest
    else e :: insertEntry name value rest

theorem mem_insertEntry {name : String} {value : α} {e : String × α} :
    ∀ {l : List (String × α)}, e ∈ insertEntry name value l → e = (name, value) ∨ e ∈ l
  | [], h => by simpa [insertEntry] using h
  | a :: rest, h => by
    unfold insertEntry at h
    split at h
    · simpa using h
    · split at h
      · rcases List.mem_cons.1 h with h | h
        · exact .inl h
        · exact .inr (List.mem_cons_of_mem _ h)
      · rcases List.mem_cons.1 h with h | h
        · exact .inr (h ▸ List.mem_cons_self)
        · exact (mem_insertEntry h).imp id (List.mem_cons_of_mem _)

/-- Inserting keeps the names in order. -/
theorem ordered_insertEntry (name : String) (value : α) :
    ∀ {l : List (String × α)}, l.Pairwise (fun a b => a.1 < b.1) →
      (insertEntry name value l).Pairwise fun a b => a.1 < b.1
  | [], _ => by simp [insertEntry]
  | e :: rest, h => by
    obtain ⟨he, hrest⟩ := List.pairwise_cons.1 h
    unfold insertEntry
    split
    · rename_i hlt
      refine List.pairwise_cons.2 ⟨fun x hx => ?_, h⟩
      rcases List.mem_cons.1 hx with rfl | hx
      · exact hlt
      · exact String.lt_trans hlt (he x hx)
    · split
      · rename_i heq
        exact List.pairwise_cons.2 ⟨fun x hx => heq ▸ he x hx, hrest⟩
      · rename_i hnlt hne
        refine List.pairwise_cons.2 ⟨fun x hx => ?_, ordered_insertEntry name value hrest⟩
        rcases mem_insertEntry hx with rfl | hx
        · exact Std.lt_of_le_of_ne (String.not_lt.1 hnlt) (Ne.symm hne)
        · exact he x hx

/-- `d` with `value` under `name`, instead of what was there. -/
def insert (d : Dict α) (name : String) (value : α) : Dict α :=
  ⟨insertEntry name value d.entries, ordered_insertEntry name value d.ordered⟩

/-- `d` without `name`. -/
def erase (d : Dict α) (name : String) : Dict α :=
  ⟨d.entries.filter fun e => e.1 != name, d.ordered.filter _⟩

/-- Collects pairs; of two with one name the later counts. -/
def ofList (pairs : List (String × α)) : Dict α :=
  pairs.foldl (fun d e => d.insert e.1 e.2) empty

/-- Changes every value. -/
def map (f : α → β) (d : Dict α) : Dict β :=
  ⟨d.entries.map fun e => (e.1, f e.2), List.pairwise_map.2 d.ordered⟩

/-! ## What a name finds -/

@[simp] theorem get?_empty (name : String) : (empty : Dict α).get? name = none := rfl

theorem find?_insertEntry (name other : String) (value : α) (l : List (String × α)) :
    ((insertEntry name value l).find? fun e => e.1 == other).map Prod.snd =
      if name = other then some value else (l.find? fun e => e.1 == other).map Prod.snd := by
  induction l with
  | nil => by_cases h : name = other <;> simp [insertEntry, h]
  | cons e rest ih =>
    unfold insertEntry
    split
    · by_cases h : name = other <;> simp [h]
    · split
      · rename_i heq
        by_cases h : name = other
        · simp [h]
        · simp [h, heq ▸ h]
      · rename_i hne
        by_cases he : e.1 = other
        · simp [he, he ▸ hne]
        · simpa [List.find?_cons, he] using ih

/-- After an insertion the name has the new value, and every other name what it had. -/
theorem get?_insert (d : Dict α) (name other : String) (value : α) :
    (d.insert name value).get? other = if name = other then some value else d.get? other :=
  find?_insertEntry name other value d.entries

/-- After an erasure the name has no value, and every other name what it had. -/
theorem get?_erase (d : Dict α) (name other : String) :
    (d.erase name).get? other = if name = other then none else d.get? other := by
  simp only [get?, erase]
  induction d.entries with
  | nil => simp
  | cons e rest ih =>
    by_cases he : e.1 = name
    · rw [List.filter_cons_of_neg (by simp [he]), ih]
      by_cases h : name = other <;> simp [he, h]
    · rw [List.filter_cons_of_pos (by simpa using he)]
      by_cases h : e.1 = other
      · simp [h, Ne.symm (h ▸ he)]
      · rw [List.find?_cons_of_neg (by simpa using h), List.find?_cons_of_neg (by simpa using h)]
        exact ih

theorem contains_eq_isSome (d : Dict α) (name : String) :
    d.contains name = (d.get? name).isSome := by
  simp only [contains, get?, Option.isSome_map]
  induction d.entries with
  | nil => rfl
  | cons e rest ih => by_cases h : e.1 = name <;> simp [h, ih]

/-- An entry is what its name finds. -/
theorem get?_eq_some_iff {d : Dict α} {name : String} {value : α} :
    d.get? name = some value ↔ (name, value) ∈ d.entries := by
  obtain ⟨l, hl⟩ := d
  simp only [get?]
  induction l with
  | nil => simp
  | cons e rest ih =>
    obtain ⟨he, hrest⟩ := List.pairwise_cons.1 hl
    by_cases h : e.1 = name
    · subst h
      simp only [List.find?_cons, beq_self_eq_true, Option.map_some, Option.some.injEq,
        List.mem_cons]
      constructor
      · rintro rfl; exact .inl rfl
      · rintro (h | h)
        · rw [← h]
        · exact absurd (he _ h) (String.lt_irrefl _)
    · simp only [List.find?_cons, beq_eq_false_iff_ne.2 h, List.mem_cons]
      rw [ih hrest]
      constructor
      · exact .inr
      · rintro (h' | h')
        · exact absurd (by rw [← h']) h
        · exact h'

/-- Two ordered listings with the same members are one listing. -/
theorem eq_of_ordered : ∀ {l m : List (String × α)},
    l.Pairwise (fun a b => a.1 < b.1) → m.Pairwise (fun a b => a.1 < b.1) →
      (∀ e, e ∈ l ↔ e ∈ m) → l = m
  | [], [], _, _, _ => rfl
  | [], b :: m, _, _, h => by simpa using h b
  | a :: l, [], _, _, h => by simpa using h a
  | a :: l, b :: m, hl, hm, h => by
    obtain ⟨ha, hl'⟩ := List.pairwise_cons.1 hl
    obtain ⟨hb, hm'⟩ := List.pairwise_cons.1 hm
    have hab : a = b := by
      rcases List.mem_cons.1 ((h a).1 List.mem_cons_self) with hab | ham
      · exact hab
      · rcases List.mem_cons.1 ((h b).2 List.mem_cons_self) with hba | hbl
        · exact hba.symm
        · exact absurd (String.lt_trans (hb a ham) (ha b hbl)) (String.lt_irrefl _)
    subst hab
    congr 1
    refine eq_of_ordered hl' hm' fun e => ?_
    constructor
    · intro he
      rcases List.mem_cons.1 ((h e).1 (List.mem_cons_of_mem _ he)) with rfl | he'
      · exact absurd (ha e he) (String.lt_irrefl _)
      · exact he'
    · intro he
      rcases List.mem_cons.1 ((h e).2 (List.mem_cons_of_mem _ he)) with rfl | he'
      · exact absurd (hb e he) (String.lt_irrefl _)
      · exact he'

/-- A dictionary is the finite map it stands for. -/
theorem ext_get? {d e : Dict α} (h : ∀ name, d.get? name = e.get? name) : d = e := by
  refine ext_entries (eq_of_ordered d.ordered e.ordered fun p => ?_)
  rw [← get?_eq_some_iff, ← get?_eq_some_iff, h]

end Dict

end ItemStore
