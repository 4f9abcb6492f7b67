import Mathlib.Data.List.Forall2
import ItemStore.Proofs.Calls
import ItemStore.Proofs.Dictionaries
import ItemStore.Proofs.SortedRows

/-!
# The rows of a table have different keys

Main statement: if the handles of a table share its key fields and write keys whose number texts say
numbers, then after any uses every row of the table has a key with a place and no two rows have one
key (`Memory.keyedRows_after`). Storing, updating and removing a row each keep that.
-/

namespace ItemStore

namespace Store

variable {s s' : Schema} {item : Item} {j k key : Key} {rows : List Item}

/-! ## Key fields of an updated row -/

/-- An update leaves the key attributes that are stored, or writes those of the key. -/
theorem get?_updatedRow {name : String} (hname : s.isKeyField name = true) (key : Key)
    (item : Item) (stored : Option Item) :
    (updatedRow s key item stored).get? name = (stored.getD (s.keyItem key)).get? name := by
  unfold updatedRow
  rw [Dict.get?_foldl_insert, Dict.get?_foldl_erase]
  · simp [hname]
  · rintro e he rfl
    simp [hname] at he

/-- An update leaves the key of the stored row as it is. -/
theorem keyOf_updatedRow_some {stored : Item} (h : s.keyOf stored = .ok key) (k : Key) :
    s.keyOf (updatedRow s k item (some stored)) = .ok key :=
  Schema.keyOf_congr (fun _ hname => get?_updatedRow hname k item _) h

theorem keyOf_updatedRow_none (h : s.keyOf item = .ok key) :
    s.keyOf (updatedRow s key item none) = .ok key :=
  Schema.keyOf_congr (fun _ hname => get?_updatedRow hname key item _) (Schema.keyOf_keyItem h)

/-! ## Storing and removing rows -/

/-- The key of an item is what it says, if that is a key of the table. -/
theorem itemKey_eq_ok_iff : Memory.itemKey s item = .ok key ↔
    s.keyOf item = .ok key ∧ Memory.checkKey s key = .ok () := by
  unfold Memory.itemKey
  cases s.keyOf item with
  | error m => simp [bind, Except.bind]
  | ok k =>
    cases hc : Memory.checkKey s k <;>
      simp [bind, Except.bind, pure, Except.pure, hc]
    all_goals
      rintro rfl
      simp [hc]

/-- Storing a row adds no other one. -/
theorem mem_storeRow {x row : Item} : x ∈ storeRow s key row rows → x = row ∨ x ∈ rows := by
  induction rows with
  | nil => simp [storeRow]
  | cons r rest ih =>
    unfold storeRow
    split
    · simp only [List.mem_cons]
      exact Or.imp_right .inr
    · simp only [List.mem_cons]
      rintro (rfl | h)
      · exact .inr (.inl rfl)
      · exact (ih h).imp_right .inr

namespace KeyedRows

/-- Storing a row under its key, or under a key that is the same, keeps the keys different. -/
theorem storeRow {row : Item} (h : KeyedRows s rows) (hkey : Placed s key)
    (hrow : s.keyOf row = .ok k) (hk : Placed s k) (hsame : compareKeys k key = .eq) :
    KeyedRows s (storeRow s key row rows) := by
  refine ⟨?_, ?_⟩
  · intro x hx
    rcases mem_storeRow hx with rfl | hx
    · exact ⟨k, hrow, hk⟩
    · exact h.placed x hx
  · obtain ⟨hplaced, hapart⟩ := h
    induction rows with
    | nil => exact List.pairwise_singleton _ _
    | cons r rest ih =>
      obtain ⟨⟨l, hl, pl⟩, prest⟩ := List.forall_mem_cons.1 hplaced
      obtain ⟨hr, hrest⟩ := List.pairwise_cons.1 hapart
      unfold Store.storeRow
      split
      · rename_i hhas
        -- The new row takes the place of `r`, so it compares with the others as `r` does.
        rw [hasKey_iff hl pl hkey] at hhas
        refine List.pairwise_cons.2 ⟨?_, hrest⟩
        intro x hx
        obtain ⟨l', hl', pl'⟩ := prest x hx
        have hx := hr x hx
        rw [apart_iff hl hl', pl.congr_left hkey pl' hhas] at hx
        rwa [apart_iff hrow hl', hk.congr_left hkey pl' hsame]
      · rename_i hhas
        refine List.pairwise_cons.2 ⟨?_, ih prest hrest⟩
        intro x hx
        rcases mem_storeRow hx with rfl | hx
        · rw [hasKey_iff hl pl hkey] at hhas
          have hne : compareKeys k l ≠ .eq := by
            rw [hk.congr_left hkey pl hsame, compareKeys_swap]
            simpa using hhas
          exact Apart.symm ((apart_iff hrow hl).2 hne)
        · exact hr x hx

theorem removeRow (h : KeyedRows s rows) (key : Key) : KeyedRows s (removeRow s key rows) :=
  h.sublist List.eraseP_sublist

/-- An update stores a row with the key of the stored one, or with the item's if there is none. -/
theorem updatedRow (h : KeyedRows s rows) (hkey : s.keyOf item = .ok key) (placed : Placed s key) :
    KeyedRows s (Store.storeRow s key (updatedRow s key item (findRow s key rows)) rows) := by
  cases hfind : findRow s key rows with
  | none =>
    exact h.storeRow placed (keyOf_updatedRow_none hkey) placed (compareKeys_self key)
  | some stored =>
    obtain ⟨k, hk, pk⟩ := h.placed stored (List.mem_of_find?_eq_some hfind)
    have hsame := List.find?_some hfind
    rw [hasKey_iff hk pk placed] at hsame
    exact h.storeRow placed (keyOf_updatedRow_some hk key) pk hsame

end KeyedRows

/-! ## Calls -/

theorem mapM_eq_ok {α β ε : Type} {f : α → Except ε β} :
    ∀ {l : List α} {bs : List β}, l.mapM f = .ok bs → List.Forall₂ (fun b a => f a = .ok b) bs l
  | [], _, h => by
    obtain rfl := Except.ok.inj h
    exact .nil
  | a :: l, bs, h => by
    rw [List.mapM_cons] at h
    cases hb : f a with
    | error e => simp [hb, bind, Except.bind] at h
    | ok b =>
      cases hl : l.mapM f with
      | error e => simp [hb, hl, bind, Except.bind] at h
      | ok rest =>
        obtain rfl : b :: rest = bs := by
          simpa [hb, hl, bind, Except.bind, pure, Except.pure] using h
        exact .cons hb (mapM_eq_ok hl)

/-- What a call puts has an accepted key. -/
theorem itemKey_of_mem_puts {o : MemoryOptions} {call : Call} {e : Key × Item}
    (he : e ∈ call.puts o s) : Memory.itemKey s e.2 = .ok e.1 := by
  unfold Call.puts at he
  split at he
  · split at he
    · rename_i hkey
      obtain rfl := List.mem_singleton.1 he
      exact hkey
    · simp at he
  · split at he
    · simp at he
    · split at he
      · rename_i hkeys
        exact List.forall₂_zip (mapM_eq_ok hkeys) (List.mem_of_mem_take he)
      · simp at he
  · simp at he

/-- What a call updates has an accepted key. -/
theorem itemKey_of_mem_updates {call : Call} {e : Key × Item} (he : e ∈ call.updates s) :
    Memory.itemKey s e.2 = .ok e.1 := by
  unfold Call.updates at he
  split at he
  · rename_i item
    cases hkey : Memory.itemKey s item with
    | error fault => simp [hkey, Except.toOption] at he
    | ok key =>
      obtain rfl : (key, item) = e := by simpa [hkey, Except.toOption] using he
      exact hkey
  · simp at he

/-- The keys that a call writes have a place if their number texts say numbers. -/
theorem placed_of_keyNumbers {u : Use} (hnumbers : ∀ digits ∈ u.keyNumbers, SaysNumber digits)
    {e : Key × Item} (he : e ∈ u.call.puts u.options u.schema ∨ e ∈ u.call.updates u.schema) :
    u.schema.keyOf e.2 = .ok e.1 ∧ Placed u.schema e.1 := by
  have hkey : Memory.itemKey u.schema e.2 = .ok e.1 :=
    he.elim itemKey_of_mem_puts itemKey_of_mem_updates
  obtain ⟨hkeyOf, hchecked⟩ := itemKey_eq_ok_iff.1 hkey
  have hmem : e ∈ u.call.puts u.options u.schema ++ (u.call.updates u.schema).toList := by
    rw [List.mem_append, Option.mem_toList]
    exact he
  refine ⟨hkeyOf, hchecked, ?_⟩
  intro digits hd
  exact hnumbers digits (List.mem_flatMap.2 ⟨e, hmem, hd⟩)

/-- A call whose keys say numbers leaves rows with different keys. -/
theorem KeyedRows.rowsAfter {u : Use} {rows : List Item} (h : KeyedRows u.schema rows)
    (hnumbers : ∀ digits ∈ u.keyNumbers, SaysNumber digits) :
    KeyedRows u.schema (u.call.rowsAfter u.options u.schema rows) := by
  refine Call.rowsAfter_keeps (fun rows h e he => ?_) (fun rows h e he => ?_)
    (fun rows h key => h.removeRow key) h
  · obtain ⟨hkey, placed⟩ := placed_of_keyNumbers hnumbers (.inl he)
    exact h.storeRow placed hkey placed (compareKeys_self e.1)
  · obtain ⟨hkey, placed⟩ := placed_of_keyNumbers hnumbers (.inr he)
    exact h.updatedRow hkey placed

theorem PlacedRow.of_sameKeys (hs : s.SameKeys s') (h : PlacedRow s item) : PlacedRow s' item := by
  obtain ⟨key, hkey, placed⟩ := h
  exact ⟨key, hs.keyOf_iff.1 hkey, hs.checkKey_eq ▸ placed.checked, placed.ranked⟩

/-- Handles with the same key fields see the same keys. -/
theorem KeyedRows.of_sameKeys (hs : s.SameKeys s') (h : KeyedRows s rows) : KeyedRows s' rows := by
  refine ⟨fun r hr => (h.placed r hr).of_sameKeys hs, ?_⟩
  refine h.apart.imp_of_mem fun {a b} ha hb hab => ?_
  obtain ⟨j, hj, -⟩ := h.placed a ha
  obtain ⟨k, hk, -⟩ := h.placed b hb
  have hne := (apart_iff hj hk).1 hab
  exact (apart_iff (hs.keyOf_iff.1 hj) (hs.keyOf_iff.1 hk)).2 hne

namespace Memory

variable {m : Memory}

/-- The rows of a table after a use: as they were, or what the call makes of them. -/
theorem rowsOf_run (u : Use) (m : Memory) (table : String) :
    (u.run m).rowsOf table = m.rowsOf table ∨ u.schema.table = table ∧
      (u.run m).rowsOf table = u.call.rowsAfter u.options u.schema (m.rowsOf table) := by
  have h := u.changesTo m
  by_cases ht : table = u.schema.table
  · subst ht
    rcases h.table with h | h | h
    · exact .inl (by rw [rowsOf, h, ← rowsOf])
    · exact .inl (by rw [rowsOf, h, Option.getD_some])
    · exact .inr ⟨rfl, by rw [rowsOf, h, Option.getD_some]⟩
  · exact .inl (by rw [rowsOf, h.frame table ht, ← rowsOf])

/-- What each use keeps of the rows of a table, all of them keep. -/
theorem rowsOf_after_keeps {P : List Item → Prop} {uses : List Use} {table : String}
    (step : ∀ u ∈ uses, u.schema.table = table → ∀ rows, P rows →
      P (u.call.rowsAfter u.options u.schema rows))
    (h : P (m.rowsOf table)) : P ((m.after uses).rowsOf table) := by
  induction uses generalizing m with
  | nil => exact h
  | cons u uses ih =>
    refine ih (fun v hv => step v (.tail _ hv)) ?_
    rcases rowsOf_run u m table with heq | ⟨ht, heq⟩ <;> rw [heq]
    · exact h
    · exact step u (.head _) ht _ h

theorem keyedRows_rowsAfter {u : Use} (hu : u.Orderly s SaysNumber) (ht : u.schema.table = s.table)
    (h : KeyedRows s rows) : KeyedRows s (u.call.rowsAfter u.options u.schema rows) := by
  have hs := hu.sameKeys ht
  exact ((h.of_sameKeys hs.symm).rowsAfter (hu.numbers ht)).of_sameKeys hs

/-- Uses by handles that share their key fields, with numbers in number keys, leave a table whose
rows have different keys, each with a place. -/
theorem keyedRows_after {uses : List Use} (huses : ∀ u ∈ uses, u.Orderly s SaysNumber)
    (h : KeyedRows s (m.rowsOf s.table)) : KeyedRows s ((m.after uses).rowsOf s.table) :=
  rowsOf_after_keeps (fun u hu ht _ h => keyedRows_rowsAfter (huses u hu) ht h) h

theorem keyedRows_run {u : Use} (hu : u.Orderly s SaysNumber)
    (h : KeyedRows s (m.rowsOf s.table)) : KeyedRows s ((u.run m).rowsOf s.table) :=
  keyedRows_after (List.forall_mem_singleton.2 hu) h

theorem keyedRows_empty (s : Schema) : KeyedRows s (rowsOf {} s.table) :=
  ⟨nofun, .nil⟩

end Memory

end Store

end ItemStore
