import ItemStore.Proofs.KeyOrder

/-!
# Rows in the order of their keys

Sorting puts rows in another order and loses none (`perm_sortRows`). Rows with placed keys come out
in ascending order (`pairwise_sortRows`), and strictly so if their keys differ, which is what
`KeyedRows` says of the rows of a table (`KeyedRows.sortedRows`). In strictly ascending rows, those
that follow the key of a row are the ones that stand after it (`SortedRows.filter_follows`).
-/

namespace ItemStore.Store

/-- A row whose key has a place. -/
def PlacedRow (s : Schema) (row : Item) : Prop :=
  ∃ key, s.keyOf row = .ok key ∧ Placed s key

variable {s : Schema} {a b c : Item} {j k : Key}

theorem rowPrecedes_iff (ha : s.keyOf a = .ok j) (hb : s.keyOf b = .ok k) :
    rowPrecedes s a b = true ↔ compareKeys j k = .lt := by
  simp [rowPrecedes, ha, hb]

theorem rowFollows_iff (ha : s.keyOf a = .ok j) :
    rowFollows s k a = true ↔ compareKeys j k = .gt := by
  simp [rowFollows, ha]

theorem hasKey_iff (ha : s.keyOf a = .ok j) (hj : Placed s j) (hk : Placed s k) :
    hasKey s k a = true ↔ compareKeys j k = .eq := by
  simp [hasKey, ha, hj.same_iff hk]

namespace PlacedRow

/-- What comes before what comes before a row comes before it. -/
theorem precedes_trans (ha : PlacedRow s a) (hb : PlacedRow s b) (hc : PlacedRow s c)
    (hab : rowPrecedes s a b = true) (hbc : rowPrecedes s b c = true) :
    rowPrecedes s a c = true := by
  obtain ⟨j, hj, pj⟩ := ha
  obtain ⟨k, hk, pk⟩ := hb
  obtain ⟨l, hl, pl⟩ := hc
  rw [rowPrecedes_iff hj hk] at hab
  rw [rowPrecedes_iff hk hl] at hbc
  exact (rowPrecedes_iff hj hl).2 (pj.lt_trans pk pl hab hbc)

/-- No two placed rows come before each other. -/
theorem not_precedes_of_precedes (ha : PlacedRow s a) (hb : PlacedRow s b)
    (hab : rowPrecedes s a b = true) : rowPrecedes s b a = false := by
  obtain ⟨j, hj, -⟩ := ha
  obtain ⟨k, hk, -⟩ := hb
  rw [rowPrecedes_iff hj hk] at hab
  rw [← Bool.not_eq_true, rowPrecedes_iff hk hj, ← compareKeys_eq_gt_iff, hab]
  simp

/-- Not to precede is to be equal or to come after, and is transitive too. -/
theorem not_precedes_trans (ha : PlacedRow s a) (hb : PlacedRow s b) (hc : PlacedRow s c)
    (hab : rowPrecedes s a b = false) (hbc : rowPrecedes s b c = false) :
    rowPrecedes s a c = false := by
  obtain ⟨j, hj, pj⟩ := ha
  obtain ⟨k, hk, pk⟩ := hb
  obtain ⟨l, hl, pl⟩ := hc
  rw [← Bool.not_eq_true, rowPrecedes_iff hj hk, ← compareKeys_eq_gt_iff, Ordering.ne_gt_iff_isLE]
    at hab
  rw [← Bool.not_eq_true, rowPrecedes_iff hk hl, ← compareKeys_eq_gt_iff, Ordering.ne_gt_iff_isLE]
    at hbc
  rw [← Bool.not_eq_true, rowPrecedes_iff hj hl, ← compareKeys_eq_gt_iff, Ordering.ne_gt_iff_isLE]
  exact pl.isLE_trans pk pj hbc hab

end PlacedRow

/-! ## Sorting -/

/-- Inserting a row adds it and nothing else. -/
theorem perm_insertDescending (s : Schema) (row : Item) :
    ∀ rows : List Item, (insertDescending s row rows).Perm (row :: rows)
  | [] => .refl _
  | r :: rest => by
    unfold insertDescending
    split
    · exact ((perm_insertDescending s row rest).cons r).trans (.swap row r rest)
    · exact .refl _

/-- Sorting loses no row and adds none. -/
theorem perm_sortRows (s : Schema) (rows : List Item) : (sortRows s rows).Perm rows := by
  have hfold : ∀ l acc : List Item,
      (l.foldl (fun sorted row => insertDescending s row sorted) acc).Perm (l ++ acc) := by
    intro l
    induction l with
    | nil => exact fun acc => .refl acc
    | cons r l ih =>
      intro acc
      have hinsert := (perm_insertDescending s r acc).append_left l
      exact (ih _).trans (hinsert.trans List.perm_middle)
  unfold sortRows
  refine (List.reverse_perm _).trans ?_
  simpa using hfold rows []

@[simp] theorem mem_sortRows {rows : List Item} : a ∈ sortRows s rows ↔ a ∈ rows :=
  (perm_sortRows s rows).mem_iff

@[simp] theorem length_sortRows (rows : List Item) : (sortRows s rows).length = rows.length :=
  (perm_sortRows s rows).length_eq

/-- Inserting a row keeps the rows from the last to the first. -/
theorem pairwise_insertDescending {row : Item} (hrow : PlacedRow s row) :
    ∀ {rows : List Item}, (∀ r ∈ rows, PlacedRow s r) →
      rows.Pairwise (fun a b => rowPrecedes s a b = false) →
      (insertDescending s row rows).Pairwise fun a b => rowPrecedes s a b = false
  | [], _, _ => List.pairwise_singleton _ _
  | r :: rest, hplaced, h => by
    obtain ⟨hr, hrest⟩ := List.pairwise_cons.1 h
    obtain ⟨pr, prest⟩ := List.forall_mem_cons.1 hplaced
    unfold insertDescending
    split
    · rename_i hlt
      have hhead : ∀ x ∈ insertDescending s row rest, rowPrecedes s r x = false := by
        intro x hx
        rcases List.mem_cons.1 ((perm_insertDescending s row rest).mem_iff.1 hx) with rfl | hx
        · exact hrow.not_precedes_of_precedes pr hlt
        · exact hr x hx
      exact List.pairwise_cons.2 ⟨hhead, pairwise_insertDescending hrow prest hrest⟩
    · rename_i hge
      rw [Bool.not_eq_true] at hge
      have hhead : ∀ x ∈ r :: rest, rowPrecedes s row x = false := by
        intro x hx
        rcases List.mem_cons.1 hx with rfl | hx
        · exact hge
        · exact hrow.not_precedes_trans pr (prest x hx) hge (hr x hx)
      exact List.pairwise_cons.2 ⟨hhead, h⟩

/-- Sorted rows with placed keys ascend: none precedes one before it. -/
theorem pairwise_sortRows {rows : List Item} (hplaced : ∀ r ∈ rows, PlacedRow s r) :
    (sortRows s rows).Pairwise fun a b => rowPrecedes s b a = false := by
  have hfold : ∀ l acc : List Item, (∀ r ∈ l, PlacedRow s r) → (∀ r ∈ acc, PlacedRow s r) →
      acc.Pairwise (fun a b => rowPrecedes s a b = false) →
      (l.foldl (fun sorted row => insertDescending s row sorted) acc).Pairwise
        fun a b => rowPrecedes s a b = false := by
    intro l
    induction l with
    | nil => exact fun acc _ _ hacc => hacc
    | cons r l ih =>
      intro acc hl placed hacc
      obtain ⟨pr, pl⟩ := List.forall_mem_cons.1 hl
      have hplaced' : ∀ x ∈ insertDescending s r acc, PlacedRow s x := by
        intro x hx
        rcases List.mem_cons.1 ((perm_insertDescending s r acc).mem_iff.1 hx) with rfl | hx
        · exact pr
        · exact placed x hx
      exact ih _ pl hplaced' (pairwise_insertDescending pr placed hacc)
  unfold sortRows
  rw [List.pairwise_reverse]
  exact hfold rows [] hplaced nofun .nil

/-! ## Rows of different keys -/

/-- The keys of two rows differ. -/
def Apart (s : Schema) (a b : Item) : Prop :=
  rowPrecedes s a b = true ∨ rowPrecedes s b a = true

theorem Apart.symm (h : Apart s a b) : Apart s b a :=
  Or.symm h

/-- Rows are apart if their keys do not compare as equal. -/
theorem apart_iff (ha : s.keyOf a = .ok j) (hb : s.keyOf b = .ok k) :
    Apart s a b ↔ compareKeys j k ≠ .eq := by
  rw [Apart, rowPrecedes_iff ha hb, rowPrecedes_iff hb ha, compareKeys_swap k j]
  cases compareKeys j k <;> simp

/-- Rows of a table: every key has a place, and no two rows have one key. -/
structure KeyedRows (s : Schema) (rows : List Item) : Prop where
  placed : ∀ r ∈ rows, PlacedRow s r
  apart : rows.Pairwise (Apart s)

namespace KeyedRows

variable {rows rows' : List Item}

theorem sublist (h : KeyedRows s rows) (hsub : rows'.Sublist rows) : KeyedRows s rows' :=
  ⟨fun r hr => h.placed r (hsub.subset hr), h.apart.sublist hsub⟩

theorem filter (h : KeyedRows s rows) (p : Item → Bool) : KeyedRows s (rows.filter p) :=
  h.sublist List.filter_sublist

/-- The rows of a table come out of sorting in strictly ascending order. -/
theorem sorted (h : KeyedRows s rows) :
    (sortRows s rows).Pairwise fun a b => rowPrecedes s a b = true := by
  have hapart : (sortRows s rows).Pairwise (Apart s) :=
    ((perm_sortRows s rows).pairwise_iff Apart.symm).2 h.apart
  refine ((pairwise_sortRows h.placed).and hapart).imp fun {a b} hab => ?_
  rcases hab.2 with hlt | hgt
  · exact hlt
  · simp [hab.1] at hgt

end KeyedRows

/-! ## Rows in ascending order -/

/-- Rows whose keys have places and ascend strictly. -/
structure SortedRows (s : Schema) (l : List Item) : Prop where
  placed : ∀ r ∈ l, PlacedRow s r
  ascending : l.Pairwise fun a b => rowPrecedes s a b = true

/-- The rows have keys, and the keys ascend strictly. -/
def Ascending (s : Schema) (l : List Item) : Prop :=
  ∃ keys : List Key, l.map s.keyOf = keys.map Except.ok ∧
    keys.Pairwise fun j k => compareKeys j k = .lt

variable {l rows : List Item}

/-- The keys of sorted rows ascend. -/
theorem SortedRows.keys_ascend : ∀ {l : List Item}, SortedRows s l → Ascending s l
  | [], _ => ⟨[], rfl, .nil⟩
  | a :: l, h => by
    obtain ⟨⟨j, hj, -⟩, placed⟩ := List.forall_mem_cons.1 h.placed
    obtain ⟨ha, hl⟩ := List.pairwise_cons.1 h.ascending
    obtain ⟨keys, hkeys, hasc⟩ := keys_ascend ⟨placed, hl⟩
    have hfirst : ∀ k ∈ keys, compareKeys j k = .lt := by
      intro k hk
      have hmem : Except.ok k ∈ l.map s.keyOf := hkeys ▸ List.mem_map_of_mem hk
      obtain ⟨b, hb, hkey⟩ := List.mem_map.1 hmem
      exact (rowPrecedes_iff hj hkey).1 (ha b hb)
    refine ⟨j :: keys, ?_, List.pairwise_cons.2 ⟨hfirst, hasc⟩⟩
    rw [List.map_cons, List.map_cons, hj, hkeys]

theorem KeyedRows.sortedRows (h : KeyedRows s rows) : SortedRows s (sortRows s rows) :=
  ⟨fun r hr => h.placed r (mem_sortRows.1 hr), h.sorted⟩

/-! ## Rows before and after a key -/

/-- What comes before a row does not follow that row's key. -/
theorem not_follows_of_precedes (pa : PlacedRow s a) (hb : s.keyOf b = .ok k)
    (hab : rowPrecedes s a b = true) : rowFollows s k a = false := by
  obtain ⟨j, hj, -⟩ := pa
  rw [rowPrecedes_iff hj hb] at hab
  rw [← Bool.not_eq_true, rowFollows_iff hj, hab]
  simp

theorem not_follows_self (ha : s.keyOf a = .ok k) : rowFollows s k a = false := by
  rw [← Bool.not_eq_true, rowFollows_iff ha, compareKeys_self]
  simp

theorem follows_of_precedes (ha : s.keyOf a = .ok k) (pb : PlacedRow s b)
    (hab : rowPrecedes s a b = true) : rowFollows s k b = true := by
  obtain ⟨l, hl, -⟩ := pb
  rw [rowPrecedes_iff ha hl] at hab
  rw [rowFollows_iff hl, compareKeys_eq_gt_iff, hab]

/-- A row that follows the key of another one comes after it. -/
theorem precedes_of_follows (ha : s.keyOf a = .ok k) (pb : PlacedRow s b)
    (hb : rowFollows s k b = true) : rowPrecedes s a b = true := by
  obtain ⟨l, hl, -⟩ := pb
  rw [rowFollows_iff hl, compareKeys_eq_gt_iff] at hb
  exact (rowPrecedes_iff ha hl).2 hb

namespace SortedRows

theorem sublist {l' : List Item} (h : SortedRows s l) (hsub : l'.Sublist l) : SortedRows s l' :=
  ⟨fun r hr => h.placed r (hsub.subset hr), h.ascending.sublist hsub⟩

/-- Sorted rows can be put before others that all come after them. -/
theorem append {l' : List Item} (h : SortedRows s l) (h' : SortedRows s l')
    (hcross : ∀ a ∈ l, ∀ b ∈ l', rowPrecedes s a b = true) : SortedRows s (l ++ l') := by
  refine ⟨?_, List.pairwise_append.2 ⟨h.ascending, h'.ascending, hcross⟩⟩
  intro r hr
  rcases List.mem_append.1 hr with hr | hr
  · exact h.placed r hr
  · exact h'.placed r hr

/-- No row stands twice among sorted rows. -/
theorem nodup (h : SortedRows s l) : l.Nodup := by
  refine h.ascending.imp_of_mem fun {a b} ha _ hab => ?_
  rintro rfl
  have hba := (h.placed a ha).not_precedes_of_precedes (h.placed a ha) hab
  rw [hab] at hba
  exact Bool.noConfusion hba

/-- What follows the key of the last row comes after all of them. -/
theorem precedes_of_follows_last {last : Item} (h : SortedRows s l) (hmem : l.getLast? = some last)
    (hlast : s.keyOf last = .ok k) (ha : a ∈ l) (pb : PlacedRow s b)
    (hb : rowFollows s k b = true) : rowPrecedes s a b = true := by
  obtain ⟨init, rfl⟩ := List.getLast?_eq_some_iff.1 hmem
  have hlb := precedes_of_follows hlast pb hb
  rcases List.mem_append.1 ha with hinit | hsingle
  · have pa := h.placed a ha
    have pl := h.placed last (List.mem_append_right _ List.mem_cons_self)
    have hal := (List.pairwise_append.1 h.ascending).2.2 a hinit last List.mem_cons_self
    exact pa.precedes_trans pl pb hal hlb
  · obtain rfl := List.mem_singleton.1 hsingle
    exact hlb

/-- Past a row, what follows its key is the rest. -/
theorem filter_follows {init rest : List Item} {last : Item}
    (h : SortedRows s (init ++ last :: rest)) (hlast : s.keyOf last = .ok k) :
    (init ++ last :: rest).filter (rowFollows s k) = rest := by
  obtain ⟨-, htail, hcross⟩ := List.pairwise_append.1 h.ascending
  have hinit : init.filter (rowFollows s k) = [] := by
    rw [List.filter_eq_nil_iff]
    intro r hr
    have pr := h.placed r (List.mem_append_left _ hr)
    rw [not_follows_of_precedes pr hlast (hcross r hr last List.mem_cons_self)]
    exact Bool.false_ne_true
  have hrest : rest.filter (rowFollows s k) = rest := by
    rw [List.filter_eq_self]
    intro r hr
    have pr := h.placed r (List.mem_append_right _ (List.mem_cons_of_mem _ hr))
    have hr' := (List.pairwise_cons.1 htail).1 r hr
    exact follows_of_precedes hlast pr hr'
  rw [List.filter_append, hinit, List.nil_append, List.filter_cons, not_follows_self hlast,
    if_neg Bool.false_ne_true, hrest]

end SortedRows

end ItemStore.Store
