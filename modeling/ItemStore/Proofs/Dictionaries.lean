import ItemStore.Dict

/-!
# Many changes to a dictionary

What a name finds after erasing some names, or inserting some entries, one after the other. Entries
whose names differ can all be found (`Dict.get?_ofList`).
-/

namespace ItemStore.Dict

variable {α : Type} {name : String}

/-- Erasing other names leaves the value of a name. -/
theorem get?_foldl_erase (name : String) :
    ∀ (names : List String) (d : Dict α), name ∉ names →
      (names.foldl (fun d n => d.erase n) d).get? name = d.get? name
  | [], _, _ => rfl
  | n :: names, d, h => by
    rw [List.mem_cons, not_or] at h
    rw [List.foldl_cons, get?_foldl_erase name names _ h.2, get?_erase, if_neg (Ne.symm h.1)]

/-- A name that is among the erased ones has no value. -/
theorem get?_foldl_erase_of_mem :
    ∀ {names : List String} {d : Dict α}, name ∈ names →
      (names.foldl (fun d n => d.erase n) d).get? name = none
  | n :: names, d, h => by
    rw [List.foldl_cons]
    by_cases hrest : name ∈ names
    · exact get?_foldl_erase_of_mem hrest
    · obtain rfl := (List.mem_cons.1 h).resolve_right hrest
      rw [get?_foldl_erase name names _ hrest, get?_erase, if_pos rfl]

/-- Inserting under other names leaves the value of a name. -/
theorem get?_foldl_insert (name : String) :
    ∀ (entries : List (String × α)) (d : Dict α), (∀ e ∈ entries, e.1 ≠ name) →
      (entries.foldl (fun d e => d.insert e.1 e.2) d).get? name = d.get? name
  | [], _, _ => rfl
  | e :: entries, d, h => by
    obtain ⟨he, hrest⟩ := List.forall_mem_cons.1 h
    rw [List.foldl_cons, get?_foldl_insert name entries _ hrest, get?_insert, if_neg he]

/-- Of entries with different names each one is found after they are inserted. -/
theorem get?_foldl_insert_of_mem {value : α} :
    ∀ {entries : List (String × α)} {d : Dict α}, entries.Pairwise (fun a b => a.1 ≠ b.1) →
      (name, value) ∈ entries →
      (entries.foldl (fun d e => d.insert e.1 e.2) d).get? name = some value
  | e :: entries, d, hnames, h => by
    obtain ⟨he, hrest⟩ := List.pairwise_cons.1 hnames
    rw [List.foldl_cons]
    rcases List.mem_cons.1 h with rfl | h
    · rw [get?_foldl_insert name entries _ fun e' he' => Ne.symm (he e' he'), get?_insert,
        if_pos rfl]
    · exact get?_foldl_insert_of_mem hrest h

/-- Entries whose names differ are found by their names. -/
theorem get?_ofList {pairs : List (String × α)} (hnames : pairs.Pairwise fun a b => a.1 ≠ b.1)
    (value : α) : (ofList pairs).get? name = some value ↔ (name, value) ∈ pairs := by
  refine ⟨fun h => ?_, fun h => get?_foldl_insert_of_mem hnames h⟩
  by_cases hname : ∃ v, (name, v) ∈ pairs
  · obtain ⟨v, hmem⟩ := hname
    rw [ofList, get?_foldl_insert_of_mem hnames hmem, Option.some.injEq] at h
    rwa [← h]
  · rw [ofList, get?_foldl_insert] at h
    · exact nomatch h
    · rintro ⟨_, v⟩ hmem rfl
      exact hname ⟨v, hmem⟩

/-- An entry after insertions was there or is one of the inserted. -/
theorem mem_of_mem_foldl_insert {e : String × α} :
    ∀ {pairs : List (String × α)} {d : Dict α},
      e ∈ (pairs.foldl (fun d e => d.insert e.1 e.2) d).entries → e ∈ d.entries ∨ e ∈ pairs
  | [], _, h => .inl h
  | p :: pairs, d, h => by
    rw [List.foldl_cons] at h
    rcases mem_of_mem_foldl_insert h with h | h
    · rcases mem_insertEntry h with rfl | h
      · exact .inr List.mem_cons_self
      · exact .inl h
    · exact .inr (List.mem_cons_of_mem p h)

theorem mem_of_mem_ofList {pairs : List (String × α)} {e : String × α}
    (h : e ∈ (ofList pairs).entries) : e ∈ pairs :=
  (mem_of_mem_foldl_insert h).resolve_left nofun

/-- A dictionary is what its entries make. -/
theorem ofList_entries (d : Dict α) : ofList d.entries = d := by
  have hnames : d.entries.Pairwise fun a b => a.1 ≠ b.1 :=
    d.ordered.imp fun h => String.ne_of_lt h
  refine ext_get? fun name => Option.ext fun value => ?_
  rw [get?_ofList hnames, get?_eq_some_iff]

/-- Inserting some of a dictionary's entries puts them over what was there. -/
theorem get?_foldl_insert_filter (d base : Dict α) (p : String → Bool) :
    ((d.entries.filter fun e => p e.1).foldl (fun d e => d.insert e.1 e.2) base).get? name =
      if p name then (d.get? name).or (base.get? name) else base.get? name := by
  have hnames : (d.entries.filter fun e => p e.1).Pairwise fun a b => a.1 ≠ b.1 :=
    (d.ordered.imp fun h => String.ne_of_lt h).filter _
  by_cases hp : p name = true
  · rw [if_pos hp]
    cases hd : d.get? name with
    | none =>
      rw [get?_foldl_insert, Option.none_or]
      rintro ⟨_, value⟩ he rfl
      rw [get?_eq_some_iff.2 (List.mem_filter.1 he).1] at hd
      exact nomatch hd
    | some value =>
      have hmem : (name, value) ∈ d.entries.filter fun e => p e.1 :=
        List.mem_filter.2 ⟨get?_eq_some_iff.1 hd, hp⟩
      rw [get?_foldl_insert_of_mem hnames hmem, Option.some_or]
  · rw [if_neg hp, get?_foldl_insert]
    rintro e he rfl
    exact hp (List.mem_filter.1 he).2

end ItemStore.Dict
