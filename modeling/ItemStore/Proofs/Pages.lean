import ItemStore.Proofs.Keys
import ItemStore.Proofs.SortedRows
import ItemStore.Proofs.Steps

/-!
# What a page holds

Main statement: a fetch takes the selected rows that lie ahead, in the order of their keys, until
they are all taken or the page is full, and gives those that pass the filter
(`outcome_fetchPage_cases`). Ahead lie all selected rows, or those whose keys come after the key to
start from, whether a row has that key or not (`rowsAhead`). A full page names the key of the last
row that was taken, and what lies ahead of that key is what the page left.

Places are counted in words, and a fetch is broken off when its offset and the page size add up to
more than a word. From the first row or from the key that a full page names they do not, if the page
size is a word and the rows are no more than a list in memory can have (`InWords`).
-/

namespace ItemStore.Store

open Query Memory Step

/-- The page size is a word, and the rows are at most as many as a list in memory can have. -/
structure InWords (o : MemoryOptions) (rows : List Item) : Prop where
  pageSize : o.pageSize < 1 <<< 64
  rows : rows.length < 1 <<< 63

/-- The rows that a condition selects by key, sorted. -/
def candidates (s : Schema) (c : Condition) (rows : List Item) : List Item :=
  sortRows s (rows.filter (c.selects s))

/-- Whether a row comes after a key, if there is one. -/
def isAhead (s : Schema) (after : Option Key) (row : Item) : Bool :=
  after.all fun key => rowFollows s key row

/-- The page that is taken from the rows that lie ahead. -/
def pageOf (o : MemoryOptions) (s : Schema) (c : Condition) (ahead : List Item) : Page where
  items := (ahead.take o.pageSize).filter c.passes
  resume :=
    if o.pageSize < ahead.length then
      (ahead.take o.pageSize).getLast?.bind fun last => (s.keyOf last).toOption.map s.keyItem
    else none

/-- The selected rows that come after a key, if there is one, in the order of their keys. -/
def rowsAhead (s : Schema) (c : Condition) (rows : List Item) (after : Option Key) : List Item :=
  (candidates s c rows).filter (isAhead s after)

/-- A page starts at the first row, or after the key of an item if a page before it was full. -/
inductive StartsAfter (o : MemoryOptions) (s : Schema) : Option Item → Option Key → Prop where
  | first : StartsAfter o s none none
  | key {item : Item} {key : Key} (hkey : s.keyOf item = .ok key) (placed : Placed s key)
    (hfull : o.pageSize < 1 <<< 63) : StartsAfter o s (some item) (some key)

/-! ## Rows ahead -/

variable {s : Schema} {a b : Item} {j k : Key} {after : Option Key} {l rows : List Item}

theorem sortedRows_candidates (h : KeyedRows s rows) (c : Condition) :
    SortedRows s (candidates s c rows) :=
  (h.filter (c.selects s)).sortedRows

theorem mem_candidates {c : Condition} :
    a ∈ candidates s c rows ↔ a ∈ rows ∧ c.selects s a = true := by
  rw [candidates, mem_sortRows, List.mem_filter]

theorem length_candidates_le (s : Schema) (c : Condition) (rows : List Item) :
    (candidates s c rows).length ≤ rows.length := by
  rw [candidates, length_sortRows]
  exact List.length_filter_le _ _

@[simp] theorem isAhead_none (row : Item) : isAhead s none row = true :=
  rfl

@[simp] theorem isAhead_some (row : Item) : isAhead s (some k) row = rowFollows s k row :=
  rfl

/-- What comes after a row that lies ahead lies ahead too. -/
theorem isAhead_of_precedes (hafter : ∀ key ∈ after, Placed s key) (pa : PlacedRow s a)
    (pb : PlacedRow s b) (ha : isAhead s after a = true) (hab : rowPrecedes s a b = true) :
    isAhead s after b = true := by
  cases after with
  | none => rfl
  | some k =>
    have pk := hafter k rfl
    obtain ⟨j, hj, pj⟩ := pa
    obtain ⟨l, hl, pl⟩ := pb
    rw [isAhead_some, rowFollows_iff hj, compareKeys_eq_gt_iff] at ha
    rw [rowPrecedes_iff hj hl] at hab
    rw [isAhead_some, rowFollows_iff hl, compareKeys_eq_gt_iff]
    exact pk.lt_trans pj pl ha hab

/-- The key that a page starts after is placed. -/
theorem StartsAfter.placed {o : MemoryOptions} {start : Option Item}
    (h : StartsAfter o s start after) :
    ∀ key ∈ after, Placed s key := by
  rintro key hkey
  cases h with
  | first => simp at hkey
  | key _ placed _ =>
    obtain rfl := Option.some.inj hkey
    exact placed

theorem sortedRows_rowsAhead (h : KeyedRows s rows) (c : Condition) (after : Option Key) :
    SortedRows s (rowsAhead s c rows after) :=
  (sortedRows_candidates h c).sublist List.filter_sublist

theorem mem_rowsAhead {c : Condition} : a ∈ rowsAhead s c rows after ↔
    (a ∈ rows ∧ c.selects s a = true) ∧ isAhead s after a = true := by
  rw [rowsAhead, List.mem_filter, mem_candidates]

theorem length_rowsAhead_le (s : Schema) (c : Condition) (rows : List Item) (after : Option Key) :
    (rowsAhead s c rows after).length ≤ rows.length :=
  Nat.le_trans (List.length_filter_le _ _) (length_candidates_le s c rows)

@[simp] theorem rowsAhead_none (c : Condition) : rowsAhead s c rows none = candidates s c rows :=
  List.filter_eq_self.2 fun r _ => isAhead_none r

/-- What lies ahead of a row that lies ahead is what comes after it. -/
theorem rowsAhead_next {c : Condition} {init rest : List Item} {last : Item}
    (h : KeyedRows s rows) (hafter : ∀ key ∈ after, Placed s key)
    (hahead : rowsAhead s c rows after = init ++ last :: rest) (hlast : s.keyOf last = .ok k) :
    rowsAhead s c rows (some k) = rest := by
  have hsorted := hahead ▸ sortedRows_rowsAhead h c after
  have hmem : last ∈ rowsAhead s c rows after := by
    rw [hahead]
    exact List.mem_append_right _ List.mem_cons_self
  obtain ⟨hlast', hahead'⟩ := List.mem_filter.1 hmem
  have placed := (sortedRows_candidates h c).placed
  have hfilter : (rowsAhead s c rows after).filter (rowFollows s k) =
      (candidates s c rows).filter (rowFollows s k) := by
    rw [rowsAhead, List.filter_filter]
    refine List.filter_congr fun r hr => ?_
    cases hfollows : rowFollows s k r with
    | false => rfl
    | true =>
      have hprec := precedes_of_follows hlast (placed r hr) hfollows
      rw [isAhead_of_precedes hafter (placed last hlast') (placed r hr) hahead' hprec]
      rfl
  show (candidates s c rows).filter (rowFollows s k) = rest
  rw [← hfilter, hahead, hsorted.filter_follows hlast]

/-- If a test holds from some place on, what passes it is what is left from its first place. -/
theorem filter_eq_drop {α : Type} {p : α → Bool} :
    ∀ {l : List α}, l.Pairwise (fun a b => p a = true → p b = true) →
      l.filter p = l.drop ((l.findIdx? p).getD l.length)
  | [], _ => rfl
  | a :: l, h => by
    obtain ⟨ha, hl⟩ := List.pairwise_cons.1 h
    have ih := filter_eq_drop hl
    rw [← List.findIdx_eq_getD_findIdx?] at ih ⊢
    rw [List.findIdx_cons, List.filter_cons]
    cases hp : p a with
    | false => simpa using ih
    | true => simpa using fun b hb => ha b hb hp

/-- The offset of a page is where the rows begin that lie ahead. -/
theorem offsetAfter_eq {o : MemoryOptions} (h : SortedRows s l) {start : Option Item}
    (hstart : StartsAfter o s start after) :
    ∃ offset, offsetAfter s l start = .ok offset ∧ offset ≤ l.length ∧
      (offset ≠ 0 → o.pageSize < 1 <<< 63) ∧ l.drop offset = l.filter (isAhead s after) := by
  have hup : l.Pairwise fun a b => isAhead s after a = true → isAhead s after b = true := by
    refine h.ascending.imp_of_mem ?_
    intro a b ha hb hab hahead
    exact isAhead_of_precedes hstart.placed (h.placed a ha) (h.placed b hb) hahead hab
  cases hstart with
  | first =>
    refine ⟨0, rfl, Nat.zero_le _, fun h => absurd rfl h, ?_⟩
    exact (List.filter_eq_self.2 fun r _ => isAhead_none r).symm
  | @key item key hkey placed hfull =>
    refine ⟨(l.findIdx? (rowFollows s key)).getD l.length, ?_, ?_, fun _ => hfull,
      (filter_eq_drop hup).symm⟩
    · rw [offsetAfter, hkey]
      rfl
    · have hle : l.findIdx (rowFollows s key) ≤ l.length := List.findIdx_le_length
      rw [← List.findIdx_eq_getD_findIdx?]
      exact hle

/-! ## Pages -/

variable {o : MemoryOptions} {c : Condition} {ahead : List Item}

/-- A page takes all rows ahead and is the last one, or it is full and names the key of its last
row. -/
theorem pageOf_cases (o : MemoryOptions) (c : Condition) (h : ∀ r ∈ ahead, PlacedRow s r) :
    (ahead.length ≤ o.pageSize ∧ pageOf o s c ahead = ⟨ahead.filter c.passes, none⟩) ∨
      ∃ init last rest key, ahead = init ++ last :: rest ∧ rest ≠ [] ∧
        init.length + 1 = o.pageSize ∧ s.keyOf last = .ok key ∧ Placed s key ∧
        pageOf o s c ahead = ⟨(init ++ [last]).filter c.passes, some (s.keyItem key)⟩ := by
  have hpos := o.pageSize_pos
  by_cases hlen : ahead.length ≤ o.pageSize
  · refine .inl ⟨hlen, ?_⟩
    rw [pageOf, List.take_of_length_le hlen, if_neg (Nat.not_lt.2 hlen)]
  · rw [Nat.not_le] at hlen
    have hne : ahead.take o.pageSize ≠ [] := by
      intro hnil
      have hlength := congrArg List.length hnil
      simp only [List.length_take, List.length_nil] at hlength
      omega
    obtain ⟨init, last, htake⟩ : ∃ init last, ahead.take o.pageSize = init ++ [last] :=
      ⟨_, _, (List.dropLast_concat_getLast hne).symm⟩
    have hsplit : ahead = init ++ last :: ahead.drop o.pageSize := by
      conv => lhs; rw [← List.take_append_drop o.pageSize ahead, htake]
      rw [List.append_assoc, List.singleton_append]
    have hmem : last ∈ ahead := by
      rw [hsplit]
      exact List.mem_append_right _ List.mem_cons_self
    obtain ⟨key, hkey, placed⟩ := h last hmem
    refine .inr ⟨init, last, ahead.drop o.pageSize, key, hsplit, ?_, ?_, hkey, placed, ?_⟩
    · intro hnil
      have hlength := congrArg List.length hnil
      simp only [List.length_drop, List.length_nil] at hlength
      omega
    · have hlength := congrArg List.length htake
      simp only [List.length_take, List.length_append, List.length_singleton] at hlength
      omega
    · rw [pageOf, htake, if_pos hlen]
      simp [hkey, Except.toOption]

theorem addPlaces_of_fits {a b : Nat} (h : a + b < 1 <<< 64) : addPlaces a b = .ok (a + b) :=
  if_pos h

theorem addPlaces_of_overflows {a b : Nat} (h : 1 <<< 64 ≤ a + b) :
    addPlaces a b = .error .overflow :=
  if_neg (Nat.not_lt.2 h)

/-- A page ends where it is full or where the rows end. -/
theorem pageEnd_of_fits {offset : Nat} (count : Nat) (h : offset + o.pageSize < 1 <<< 64) :
    pageEnd o offset count = .ok (min (offset + o.pageSize) count) := by
  rw [pageEnd, addPlaces_of_fits h]
  rfl

/-- A page whose places do not fit in a word has no end. -/
theorem pageEnd_of_overflows {offset : Nat} (count : Nat) (h : 1 <<< 64 ≤ offset + o.pageSize) :
    pageEnd o offset count = .error .overflow := by
  rw [pageEnd, addPlaces_of_overflows h]
  rfl

/-- A page looks at the rows from its offset on, as many as the page size. -/
theorem examined_eq (o : MemoryOptions) (l : List Item) (offset : Nat) :
    examined l offset (min (offset + o.pageSize) l.length) = (l.drop offset).take o.pageSize := by
  rw [examined, List.drop_take]
  by_cases hoffset : offset ≤ l.length
  · have hmin : min offset (min (offset + o.pageSize) l.length) = offset := by omega
    rw [hmin, List.take_eq_take_iff, List.length_drop]
    omega
  · have hmin : min (offset + o.pageSize) l.length = l.length := by omega
    rw [hmin, List.drop_of_length_le (Nat.le_of_not_le hoffset),
      List.drop_of_length_le (by omega)]
    simp

theorem pageBetween_eq (c : Condition) (h : ∀ r ∈ l, PlacedRow s r) (offset : Nat) :
    pageBetween s c l offset (min (offset + o.pageSize) l.length) =
      .ok (pageOf o s c (l.drop offset)) := by
  have hmore : min (offset + o.pageSize) l.length < l.length ↔
      o.pageSize < (l.drop offset).length := by
    rw [List.length_drop]
    omega
  have hplaced : ∀ r ∈ l.drop offset, PlacedRow s r := fun r hr => h r (List.mem_of_mem_drop hr)
  unfold pageBetween pageOf
  simp only [examined_eq o l offset, hmore]
  generalize l.drop offset = ahead at hplaced ⊢
  cases hlast : (ahead.take o.pageSize).getLast? with
  | none => simp [bind, Except.bind, pure, Except.pure]
  | some last =>
    obtain ⟨key, hkey, -⟩ := hplaced last (List.mem_of_mem_take (List.mem_of_getLast? hlast))
    by_cases hlt : o.pageSize < ahead.length <;>
      simp [hlt, hkey, Except.map, Except.toOption, bind, Except.bind, pure,
        Except.pure]

/-- A page whose places fit in a word is the page of the rows from its offset on. -/
theorem pageAt_eq (c : Condition) (h : ∀ r ∈ l, PlacedRow s r) (offset : Nat)
    (hword : offset + o.pageSize < 1 <<< 64) :
    pageAt o s c l offset = .ok (pageOf o s c (l.drop offset)) := by
  rw [pageAt, pageEnd_of_fits _ hword]
  exact pageBetween_eq c h offset

/-- A page whose places do not fit in a word is not given. -/
theorem pageAt_of_overflows (s : Schema) (c : Condition) (l : List Item) {offset : Nat}
    (h : 1 <<< 64 ≤ offset + o.pageSize) : pageAt o s c l offset = .error .overflow := by
  rw [pageAt, pageEnd_of_overflows _ h]
  rfl

variable {m m' : Memory} {start : Option Item}

theorem fetch_of_backend {t : Table Memory} (h : (backend o).table s = .ok t) :
    t.fetch = fetchPage o s :=
  congrArg Table.fetch (table_of_backend h)

/-- What a fetch does: it fails, or it reads the rows and gives a page of them. -/
theorem outcome_fetchPage_eq (o : MemoryOptions) (s : Schema) (c : Condition)
    (start : Option Item) (m : Memory) :
    outcome (fetchPage o s c start) m = match checkPartition c with
      | .error fault => (.error (.store .read fault), m)
      | .ok _ => match outcome (Memory.rows o .read s.table) m with
        | (.error e, m') => (.error e, m')
        | (.ok rows, m') => match offsetAfter s (candidates s c rows) start with
          | .error fault => (.error (.store .read fault), m')
          | .ok offset => (pageAt o s c (candidates s c rows) offset, m') := by
  rw [fetchPage, outcome_checked_bind]
  cases checkPartition c with
  | error fault => rfl
  | ok _ =>
    rw [outcome_bind]
    rcases outcome (Memory.rows o .read s.table) m with ⟨e | rows, m'⟩
    · rfl
    · simp only [outcome_checked_bind, outcome_ofExcept, candidates]
      cases offsetAfter s (sortRows s (rows.filter (c.selects s))) start <;> rfl

/-- A fetch from a table of rows with different keys gives the page of the rows that lie ahead. -/
theorem outcome_fetchPage (hcondition : checkPartition c = .ok ())
    (hrows : outcome (Memory.rows o .read s.table) m = (.ok rows, m')) (hkeyed : KeyedRows s rows)
    (hwords : InWords o rows) (hstart : StartsAfter o s start after) :
    outcome (fetchPage o s c start) m = (.ok (pageOf o s c (rowsAhead s c rows after)), m') := by
  have hsorted := sortedRows_candidates hkeyed c
  obtain ⟨offset, hoffset, hle, hshort, hdrop⟩ := offsetAfter_eq hsorted hstart
  have hword : offset + o.pageSize < 1 <<< 64 := by
    have hlength := length_candidates_le s c rows
    have hpage := hwords.pageSize
    have hrows := hwords.rows
    by_cases hzero : offset = 0
    · omega
    · have hsmall := hshort hzero
      omega
  rw [outcome_fetchPage_eq, hcondition, hrows]
  simp only [hoffset]
  rw [pageAt_eq c hsorted.placed offset hword, hdrop, rowsAhead]

/-- A fetch takes all rows that lie ahead, or it takes a full page of them and names the key that
the others lie ahead of. -/
theorem outcome_fetchPage_cases (hcondition : checkPartition c = .ok ())
    (hrows : outcome (Memory.rows o .read s.table) m = (.ok rows, m')) (hkeyed : KeyedRows s rows)
    (hwords : InWords o rows) (hstart : StartsAfter o s start after) :
    ((rowsAhead s c rows after).length ≤ o.pageSize ∧ outcome (fetchPage o s c start) m =
      (.ok ⟨(rowsAhead s c rows after).filter c.passes, none⟩, m')) ∨
      ∃ taken rest key, rowsAhead s c rows after = taken ++ rest ∧ taken.length = o.pageSize ∧
        rest ≠ [] ∧ rowsAhead s c rows (some key) = rest ∧
        (∃ last, taken.getLast? = some last ∧ s.keyOf last = .ok key) ∧
        StartsAfter o s (some (s.keyItem key)) (some key) ∧
        outcome (fetchPage o s c start) m =
          (.ok ⟨taken.filter c.passes, some (s.keyItem key)⟩, m') := by
  have hsorted := sortedRows_rowsAhead hkeyed c after
  rw [outcome_fetchPage hcondition hrows hkeyed hwords hstart]
  rcases pageOf_cases o c hsorted.placed with
    ⟨hle, heq⟩ | ⟨init, last, rest, key, hsplit, hne, hfull, hlast, placed, heq⟩
  · exact .inl ⟨hle, by rw [heq]⟩
  · have hshort : o.pageSize < 1 <<< 63 := by
      have hle := length_rowsAhead_le s c rows after
      have hrows := hwords.rows
      rw [hsplit, List.length_append, List.length_cons] at hle
      omega
    have hnext := rowsAhead_next hkeyed hstart.placed hsplit hlast
    have hstart' : StartsAfter o s (some (s.keyItem key)) (some key) :=
      .key (Schema.keyOf_keyItem hlast) placed hshort
    refine .inr ⟨init ++ [last], rest, key, by simpa using hsplit, by simpa using hfull, hne, hnext,
      ⟨last, by simp, hlast⟩, hstart', ?_⟩
    rw [heq]

end ItemStore.Store
