import ItemStore.Proofs.FailedFetches

/-!
# Following a chain of pages

A chain is what fetches from a start on give until a page names no next one. Main statement:
whatever mix of calls for a page, for an item and for all that is left a cursor gets, it fetches the
pages of the chain one by one and each of them once, and once it is exhausted the calls together
have given every item of the chain and no other (`Cursor.delivers_once`).

Ahead of a cursor lie the items at hand and the pages that are not fetched. A call gives some of the
items that lie ahead and leaves the others ahead (`Cursor.take_accounts`). What is assumed of the
store is said by a relation between its state, a start and the pages from there (`Follows`), so that
it can be a chain from one state or pages that are the same in many.
-/

namespace ItemStore

namespace Store

open Query Step

variable {σ : Type}

/-- Where the relation says that some pages start, a fetch gives the first of them, and the others
start where it says. The last one names no next page. -/
def Follows (t : Table σ) (c : Condition) (places : σ → Option Item → List Page → Prop) : Prop :=
  ∀ store start page rest, places store start (page :: rest) →
    ∃ store', outcome (t.fetch c start) store = (.ok page, store') ∧
      (page.resume = none ↔ rest = []) ∧ places store' page.resume rest

/-- What lies ahead of a cursor: the items at hand, and pages to fetch. -/
structure Ahead where
  buffer : List Item := []
  pages : List Page

/-- The items that lie ahead, in the order of their pages. -/
def Ahead.items (a : Ahead) : List Item :=
  a.buffer ++ a.pages.flatMap Page.items

/-- Nothing lies ahead. -/
abbrev Ahead.none : Ahead where
  pages := []

namespace Cursor

/-- A call on a cursor: for the next page, for the next item, or for every item that is left. -/
inductive Take where
  | page
  | item
  | all
  deriving DecidableEq

/-- Makes a call and gives the items that it hands out, or nothing at the end. -/
def take (t : Table σ) (limit : Nat) : Take → CursorStep σ (Option (List Item))
  | .page => nextPage t
  | .item => (fun item => item.map fun i => [i]) <$> nextItem t limit
  | .all => some <$> drain t limit

/-- What some calls give, one after the other, and the store and the cursor after them. -/
def takes (t : Table σ) (limit : Nat) :
    List Take → σ × Cursor → List (Except Error (Option (List Item))) × σ × Cursor
  | [], s => ([], s)
  | call :: calls, s =>
    let rest := takes t limit calls (outcome (take t limit call) s).2
    ((outcome (take t limit call) s).1 :: rest.1, rest.2)

/-- What a call gives when nothing lies ahead. -/
def Take.nothing : Take → Option (List Item)
  | .page | .item => none
  | .all => some []

/-- All items that some calls gave. -/
def delivered (results : List (Option (List Item))) : List Item :=
  results.flatMap fun r => r.getD []

/-! ## One call -/

/-- A cursor before its call, with what lies ahead of it. As many pages as lie ahead are not
counted yet. -/
structure Before (c : Condition) (places : σ → Option Item → List Page → Prop) (count : Nat)
    (s : σ × Cursor) (a : Ahead) : Prop where
  condition : s.2.condition = c
  buffer : s.2.buffer = a.buffer
  place : places s.1 s.2.resume a.pages
  complete : s.2.complete = true ↔ a.pages = []
  counted : s.2.pages + a.pages.length = count

variable {t : Table σ} {c : Condition} {places : σ → Option Item → List Page → Prop} {count : Nat}
  {s : σ × Cursor} {a : Ahead} {limit : Nat}

/-- A cursor is exhausted just when nothing lies ahead of it. -/
theorem Before.isExhausted_iff (h : Before c places count s a) :
    s.2.isExhausted = true ↔ a = .none := by
  obtain ⟨buffer, pages⟩ := a
  rw [isExhausted, Bool.and_eq_true, h.complete, h.buffer, List.isEmpty_iff]
  simp [and_comm]

/-- The items at hand may be replaced. -/
theorem Before.refill {store : σ} {cursor : Cursor} {buffer : List Item} {pages : List Page}
    (h : Before c places count (store, cursor) ⟨buffer, pages⟩) (items : List Item) :
    Before c places count (store, { cursor with buffer := items }) ⟨items, pages⟩ :=
  ⟨h.condition, rfl, h.place, h.complete, h.counted⟩

theorem nextPage_of_nil (h : Before c places count s a) (hpages : a.pages = []) :
    outcome (nextPage t) s = (.ok none, s) :=
  outcome_nextPage_of_complete t s.1 (h.complete.2 hpages)

/-- A call for a page fetches the first page that lies ahead. -/
theorem nextPage_of_cons (hfollows : Follows t c places) {buffer : List Item} {page : Page}
    {rest : List Page} (h : Before c places count s ⟨buffer, page :: rest⟩) :
    ∃ s', outcome (nextPage t) s = (.ok (some page.items), s') ∧
      Before c places count s' ⟨buffer, rest⟩ := by
  obtain ⟨store, cursor⟩ := s
  have hmore : cursor.complete = false := by
    simpa using h.complete
  obtain ⟨store', hfetch, hlast, hplace⟩ := hfollows _ _ _ _ h.place
  refine ⟨(store', afterPage page cursor.spent), ?_, h.condition, h.buffer, hplace, ?_, ?_⟩
  · rw [outcome_nextPage t store hmore, h.condition, hfetch]
  · rw [← hlast]
    exact Option.isNone_iff_eq_none
  · have hcounted := h.counted
    simp only [afterPage, spent, List.length_cons] at hcounted ⊢
    omega

/-- A call for an item gives the first one that lies ahead, and nothing if none does. -/
theorem nextItem_accounts (hfollows : Follows t c places) {buffer : List Item} {pages : List Page}
    (h : Before c places count s ⟨buffer, pages⟩) (hlimit : pages.length < limit) :
    ∃ item s' a', outcome (nextItem t limit) s = (.ok item, s') ∧ Before c places count s' a' ∧
      Ahead.items ⟨buffer, pages⟩ = item.toList ++ a'.items ∧ (item = none → a' = .none) := by
  induction limit generalizing s buffer pages with
  | zero => exact absurd hlimit (Nat.not_lt_zero _)
  | succ limit ih =>
    obtain ⟨store, cursor⟩ := s
    cases buffer with
    | cons item buffer =>
      exact ⟨some item, (store, { cursor with buffer }), ⟨buffer, pages⟩,
        outcome_nextItem_of_buffer t limit store h.buffer, h.refill buffer, rfl, nofun⟩
    | nil =>
      cases pages with
      | nil =>
        refine ⟨none, (store, cursor), .none, ?_, h, rfl, fun _ => rfl⟩
        rw [outcome_nextItem_of_nil t limit store h.buffer, nextPage_of_nil h rfl]
      | cons page pages =>
        -- The page is taken for the buffer, and the search goes on there.
        obtain ⟨⟨store', cursor'⟩, hpage, h'⟩ := nextPage_of_cons hfollows h
        obtain ⟨item, s', a', hitem, hafter, haccounts, hnone⟩ :=
          ih (h'.refill page.items) (Nat.lt_of_succ_lt_succ hlimit)
        refine ⟨item, s', a', ?_, hafter, haccounts, hnone⟩
        rw [outcome_nextItem_of_nil t limit store h.buffer, hpage]
        exact hitem

/-- Draining fetches all pages that lie ahead. -/
theorem drainPages_accounts (hfollows : Follows t c places) {buffer : List Item}
    {pages : List Page} (h : Before c places count s ⟨buffer, pages⟩)
    (hlimit : pages.length < limit) :
    ∃ s', outcome (drainPages t limit) s = (.ok (pages.flatMap Page.items), s') ∧
      Before c places count s' ⟨buffer, []⟩ := by
  induction limit generalizing s pages with
  | zero => exact absurd hlimit (Nat.not_lt_zero _)
  | succ limit ih =>
    rw [outcome_drainPages_succ]
    cases pages with
    | nil =>
      rw [nextPage_of_nil h rfl]
      exact ⟨s, rfl, h⟩
    | cons page pages =>
      obtain ⟨s', hpage, h'⟩ := nextPage_of_cons hfollows h
      obtain ⟨s'', hrest, h''⟩ := ih h' (Nat.lt_of_succ_lt_succ hlimit)
      refine ⟨s'', ?_, h''⟩
      simp only [hpage, hrest, Except.map, List.flatMap_cons]

/-- A drain gives everything that lies ahead, and then nothing does. -/
theorem drain_accounts (hfollows : Follows t c places) (h : Before c places count s a)
    (hlimit : a.pages.length < limit) :
    ∃ s', outcome (drain t limit) s = (.ok a.items, s') ∧ Before c places count s' .none := by
  obtain ⟨store, cursor⟩ := s
  obtain ⟨s', hdrain, h'⟩ := drainPages_accounts hfollows (h.refill []) hlimit
  have hbuffer : cursor.buffer = a.buffer := h.buffer
  refine ⟨s', ?_, h'⟩
  rw [outcome_drain]
  simp only [hdrain, Except.map, hbuffer, Ahead.items]

/-- A call gives some of what lies ahead and leaves the rest: in order, unless it is a call for a
page, which leaves the items at hand. -/
structure Accounts (call : Take) (a : Ahead) (r : Option (List Item)) (a' : Ahead) : Prop where
  perm : a.items.Perm (r.getD [] ++ a'.items)
  inOrder : call ≠ .page → a.items = r.getD [] ++ a'.items
  noPage : call = .page → r = none → a'.pages = []
  noItem : call = .item → r = none → a' = .none
  all : call = .all → a' = .none

/-- A call gives some of what lies ahead, and leaves the others ahead. -/
theorem take_accounts (hfollows : Follows t c places) (h : Before c places count s a)
    (hlimit : count < limit) (call : Take) :
    ∃ r s' a', outcome (take t limit call) s = (.ok r, s') ∧ Before c places count s' a' ∧
      Accounts call a r a' := by
  have hpages : a.pages.length < limit := by
    have hcounted := h.counted
    omega
  obtain ⟨buffer, pages⟩ := a
  cases call with
  | page =>
    cases pages with
    | nil =>
      exact ⟨none, s, _, nextPage_of_nil h rfl, h, .refl _, nofun, fun _ _ => rfl, nofun, nofun⟩
    | cons page pages =>
      obtain ⟨s', hpage, h'⟩ := nextPage_of_cons hfollows h
      refine ⟨some page.items, s', ⟨buffer, pages⟩, hpage, h', ?_, nofun, nofun, nofun, nofun⟩
      simpa [Ahead.items] using List.perm_append_comm_assoc _ _ _
  | item =>
    obtain ⟨item, s', a', hitem, h', haccounts, hnone⟩ := nextItem_accounts hfollows h hpages
    have hitems : Ahead.items ⟨buffer, pages⟩ =
        (item.map fun i => [i]).getD [] ++ a'.items := by
      rw [haccounts]
      cases item <;> rfl
    refine ⟨item.map fun i => [i], s', a', ?_, h', .of_eq hitems, fun _ => hitems, nofun, ?_, nofun⟩
    · rw [take, outcome_map, hitem]
      rfl
    · exact fun _ hr => hnone (Option.map_eq_none_iff.1 hr)
  | all =>
    obtain ⟨s', hdrain, h'⟩ := drain_accounts hfollows h hpages
    have hitems : Ahead.items ⟨buffer, pages⟩ =
        (some (Ahead.items ⟨buffer, pages⟩)).getD [] ++ Ahead.none.items := by
      simp [Ahead.items]
    refine ⟨_, s', .none, ?_, h', .of_eq hitems, fun _ => hitems, nofun, nofun, fun _ => rfl⟩
    rw [take, outcome_map, hdrain]
    rfl

/-- When nothing lies ahead, a call gives nothing and changes nothing. -/
theorem take_of_none (h : Before c places count s .none) (hlimit : count < limit) (call : Take) :
    outcome (take t limit call) s = (.ok call.nothing, s) := by
  obtain ⟨limit, rfl⟩ : ∃ n, limit = n + 1 := ⟨limit - 1, by omega⟩
  obtain ⟨store, cursor⟩ := s
  have hcomplete : cursor.complete = true := h.complete.2 rfl
  have hbuffer : cursor.buffer = [] := h.buffer
  cases call with
  | page => exact nextPage_of_nil h rfl
  | item =>
    rw [take, outcome_map, outcome_nextItem_of_complete t limit store hbuffer hcomplete]
    rfl
  | all =>
    have hsame : { cursor with buffer := [] } = cursor := by
      rw [← hbuffer]
    rw [take, outcome_map, outcome_drain, hsame,
      outcome_drainPages_of_complete t limit store hcomplete, hbuffer]
    rfl

/-! ## Runs of calls -/

/-- What lies ahead before some calls is what they give and what lies ahead after them. -/
theorem takes_account (hfollows : Follows t c places) (h : Before c places count s a)
    (hlimit : count < limit) (calls : List Take) :
    ∃ results s' a', takes t limit calls s = (results.map .ok, s') ∧ Before c places count s' a' ∧
      a.items.Perm (delivered results ++ a'.items) ∧
      (.page ∉ calls → a.items = delivered results ++ a'.items) := by
  induction calls generalizing s a with
  | nil => exact ⟨[], s, a, rfl, h, .refl _, fun _ => rfl⟩
  | cons call calls ih =>
    obtain ⟨r, s', a', hcall, h', haccounts⟩ := take_accounts hfollows h hlimit call
    obtain ⟨results, s'', a'', hcalls, h'', hperm, hinOrder⟩ := ih h'
    refine ⟨r :: results, s'', a'', ?_, h'', ?_, fun hpage => ?_⟩
    · rw [takes, hcall, hcalls]
      rfl
    · rw [delivered, List.flatMap_cons, List.append_assoc]
      exact haccounts.perm.trans (hperm.append_left _)
    · obtain ⟨hcall, hcalls⟩ := not_or.1 (mt List.mem_cons.2 hpage)
      rw [delivered, List.flatMap_cons, List.append_assoc, haccounts.inOrder (Ne.symm hcall),
        hinOrder hcalls]
      rfl

/-- With nothing ahead every call gives nothing and changes nothing. -/
theorem takes_of_none (h : Before c places count s .none) (hlimit : count < limit)
    (calls : List Take) :
    takes t limit calls s = (calls.map fun call => .ok call.nothing, s) := by
  induction calls with
  | nil => rfl
  | cons call calls ih => rw [takes, take_of_none h hlimit, ih, List.map_cons]

end Cursor

/-! ## Notes of the fetches -/

/-- The step on a store with notes, which it leaves alone. -/
def Step.besideNotes {α β : Type} (step : Step σ α) : Step (σ × β) α := fun s =>
  let r := step.run.run s.1
  (r.1, r.2, s.2)

/-- The table, with a note of the start of every fetch. -/
def Table.noted (t : Table σ) : Table (σ × List (Option Item)) where
  name := t.name
  schema := t.schema
  get key := (t.get key).besideNotes
  put item := (t.put item).besideNotes
  update item := (t.update item).besideNotes
  delete key := (t.delete key).besideNotes
  putBatch items := (t.putBatch items).besideNotes
  fetch c start := fun s =>
    let r := (t.fetch c start).run.run s.1
    (r.1, r.2, s.2 ++ [start])
  create := t.create.besideNotes

/-- A result on a table with notes, without the notes. -/
def forget {α : Type} (r : Except Error α × (σ × List (Option Item)) × Cursor) :
    Except Error α × σ × Cursor :=
  (r.1, r.2.1.1, r.2.2)

namespace Cursor

variable (t : Table σ) (limit : Nat) (s : (σ × List (Option Item)) × Cursor)

theorem forget_nextPage :
    forget (outcome (nextPage t.noted) s) = outcome (nextPage t) (s.1.1, s.2) := by
  obtain ⟨⟨store, notes⟩, cursor⟩ := s
  by_cases hcomplete : cursor.complete = true
  · rw [outcome_nextPage_of_complete _ _ hcomplete, outcome_nextPage_of_complete _ _ hcomplete]
    rfl
  · rw [Bool.not_eq_true] at hcomplete
    have hfetch : outcome (t.noted.fetch cursor.condition cursor.resume) (store, notes) =
        ((outcome (t.fetch cursor.condition cursor.resume) store).1,
          (outcome (t.fetch cursor.condition cursor.resume) store).2,
          notes ++ [cursor.resume]) :=
      rfl
    rw [outcome_nextPage _ _ hcomplete, outcome_nextPage _ _ hcomplete, hfetch]
    rcases outcome (t.fetch cursor.condition cursor.resume) store with ⟨_ | page, store'⟩ <;> rfl

theorem forget_nextItem :
    forget (outcome (nextItem t.noted limit) s) = outcome (nextItem t limit) (s.1.1, s.2) := by
  induction limit generalizing s with
  | zero => rfl
  | succ limit ih =>
    obtain ⟨⟨store, notes⟩, cursor⟩ := s
    cases hbuffer : cursor.buffer with
    | cons item rest =>
      rw [outcome_nextItem_of_buffer _ _ _ hbuffer, outcome_nextItem_of_buffer _ _ _ hbuffer]
      rfl
    | nil =>
      rw [outcome_nextItem_of_nil _ _ _ hbuffer, outcome_nextItem_of_nil _ _ _ hbuffer,
        ← forget_nextPage t ((store, notes), cursor)]
      rcases outcome (nextPage t.noted) ((store, notes), cursor) with ⟨_ | _ | items, s', cursor'⟩
      · rfl
      · rfl
      · exact ih (s', { cursor' with buffer := items })

theorem forget_drainPages :
    forget (outcome (drainPages t.noted limit) s) = outcome (drainPages t limit) (s.1.1, s.2) := by
  induction limit generalizing s with
  | zero => rfl
  | succ limit ih =>
    rw [outcome_drainPages_succ, outcome_drainPages_succ, ← forget_nextPage]
    rcases outcome (nextPage t.noted) s with ⟨_ | _ | items, s'⟩
    · rfl
    · rfl
    · show (_, _, _) = (_, _)
      simp only [forget, ← ih s']

theorem forget_drain :
    forget (outcome (drain t.noted limit) s) = outcome (drain t limit) (s.1.1, s.2) := by
  obtain ⟨⟨store, notes⟩, cursor⟩ := s
  rw [outcome_drain, outcome_drain,
    ← forget_drainPages t limit ((store, notes), { cursor with buffer := [] })]
  rfl

/-- The notes change nothing of what a call gives. -/
theorem forget_take (call : Take) :
    forget (outcome (take t.noted limit call) s) = outcome (take t limit call) (s.1.1, s.2) := by
  cases call with
  | page => exact forget_nextPage t s
  | item =>
    rw [take, take, outcome_map, outcome_map, ← forget_nextItem]
    rfl
  | all =>
    rw [take, take, outcome_map, outcome_map, ← forget_drain]
    rfl

/-- Noting the fetches changes nothing else. -/
theorem forget_takes (calls : List Take) :
    ((takes t.noted limit calls s).1, (takes t.noted limit calls s).2.1.1,
      (takes t.noted limit calls s).2.2) = takes t limit calls (s.1.1, s.2) := by
  induction calls generalizing s with
  | nil => rfl
  | cons call calls ih =>
    have hcall := forget_take t limit s call
    rw [takes, takes, ← hcall]
    exact congrArg (fun rest => (_ :: rest.1, rest.2)) (ih _)

end Cursor

/-! ## Chains -/

/-- The pages that fetches give from a start on, each next one from where the one before says, up to
the one that names no next page. -/
inductive Chain (t : Table σ) (c : Condition) : σ → Option Item → List Page → Prop where
  | last {store store' : σ} {start : Option Item} {page : Page}
    (hfetch : outcome (t.fetch c start) store = (.ok page, store')) (hlast : page.resume = none) :
    Chain t c store start [page]
  | more {store store' : σ} {start : Option Item} {page : Page} {key : Item} {rest : List Page}
    (hfetch : outcome (t.fetch c start) store = (.ok page, store'))
    (hmore : page.resume = some key) (hrest : Chain t c store' (some key) rest) :
    Chain t c store start (page :: rest)

/-- The starts of some pages in a row: that of the first one, and then what each page says. -/
def startsFrom (start : Option Item) : List Page → List (Option Item)
  | [] => []
  | page :: rest => start :: startsFrom page.resume rest

theorem length_startsFrom (start : Option Item) (pages : List Page) :
    (startsFrom start pages).length = pages.length := by
  induction pages generalizing start with
  | nil => rfl
  | cons page rest ih => rw [startsFrom, List.length_cons, ih, List.length_cons]

/-- The rest of a chain is to be fetched, and with its starts the notes are all starts. -/
def ChainNoted (t : Table σ) (c : Condition) (starts : List (Option Item))
    (s : σ × List (Option Item)) (start : Option Item) (pages : List Page) : Prop :=
  (pages = [] ∨ Chain t c s.1 start pages) ∧ s.2 ++ startsFrom start pages = starts

/-- A chain is followed while its fetches are noted. -/
theorem follows_chainNoted (t : Table σ) (c : Condition) (starts : List (Option Item)) :
    Follows t.noted c (ChainNoted t c starts) := by
  rintro ⟨store, notes⟩ start page rest ⟨hpages, hstarts⟩
  have hchain := hpages.resolve_left (List.cons_ne_nil page rest)
  have hnotes : ∀ start', page.resume = start' →
      (notes ++ [start]) ++ startsFrom start' rest = starts := by
    rintro _ rfl
    rw [List.append_assoc]
    exact hstarts
  have hfetched {store' : σ} (hfetch : outcome (t.fetch c start) store = (.ok page, store')) :
      outcome (t.noted.fetch c start) (store, notes) = (.ok page, store', notes ++ [start]) :=
    congrArg (fun r => (r.1, r.2, notes ++ [start])) hfetch
  cases hchain with
  | last hfetch hlast =>
    exact ⟨_, hfetched hfetch, iff_of_true hlast rfl, .inl rfl, hnotes _ rfl⟩
  | more hfetch hmore hrest =>
    have hne : rest ≠ [] := by
      cases hrest <;> exact List.cons_ne_nil _ _
    refine ⟨_, hfetched hfetch, iff_of_false (by simp [hmore]) hne, .inr ?_, hnotes _ rfl⟩
    rw [hmore]
    exact hrest

namespace Cursor

/-- What some calls on a new cursor have delivered of some pages: they fetched the first of these,
each once and from where the one before says. At the end they gave every item once. -/
structure Delivery (pages : List Page) (calls : List Take) (results : List (Option (List Item)))
    (fetches : List (Option Item)) (cursor : Cursor) : Prop where
  fetched : fetches = (startsFrom none pages).take cursor.pages
  counted : cursor.pages = fetches.length
  exhausted_iff : cursor.isExhausted = true ↔
    fetches = startsFrom none pages ∧ cursor.buffer = []
  perm : cursor.isExhausted = true → (delivered results).Perm (pages.flatMap Page.items)
  inOrder : cursor.isExhausted = true → .page ∉ calls →
    delivered results = pages.flatMap Page.items

/-- What some calls give and what lies ahead of the cursor are all pages. -/
theorem Delivery.of_before {t : Table σ} {c : Condition} {pages : List Page} {calls : List Take}
    {results : List (Option (List Item))} {s : (σ × List (Option Item)) × Cursor} {a : Ahead}
    (h : Before c (ChainNoted t c (startsFrom none pages)) pages.length s a)
    (hperm : (Ahead.items ⟨[], pages⟩).Perm (delivered results ++ a.items))
    (hinOrder : .page ∉ calls → Ahead.items ⟨[], pages⟩ = delivered results ++ a.items) :
    Delivery pages calls results s.1.2 s.2 := by
  have hstarts := h.place.2
  have hlength : s.1.2.length = s.2.pages := by
    have hcounted := h.counted
    have hlengths := congrArg List.length hstarts
    simp only [List.length_append, length_startsFrom] at hlengths
    omega
  refine ⟨?_, hlength.symm, ?_, fun hend => ?_, fun hend hpage => ?_⟩
  · rw [← hstarts, List.take_left' hlength]
  · have hall : s.1.2 = startsFrom none pages ↔ a.pages = [] := by
      rw [← hstarts, List.self_eq_append_right, ← List.length_eq_zero_iff, length_startsFrom,
        List.length_eq_zero_iff]
    rw [hall, ← h.complete, isExhausted, Bool.and_eq_true, List.isEmpty_iff]
  · obtain rfl := h.isExhausted_iff.1 hend
    simpa [Ahead.items] using hperm.symm
  · obtain rfl := h.isExhausted_iff.1 hend
    simpa [Ahead.items] using (hinOrder hpage).symm

/-- A cursor fetches the pages of a chain one by one, and its calls together give every item of the
chain once. No call gives nothing before that, whichever pages are empty, and none fetches after. -/
theorem delivers_once {t : Table σ} {c : Condition} {store : σ} {pages : List Page} {limit : Nat}
    (hchain : Chain t c store none pages) (hlimit : pages.length < limit) (calls : List Take) :
    ∃ results fetches store' cursor,
      takes t limit calls (store, { condition := c }) = (results.map .ok, store', cursor) ∧
      takes t.noted limit calls ((store, []), { condition := c }) =
        (results.map .ok, (store', fetches), cursor) ∧
      Delivery pages calls results fetches cursor ∧
      (cursor.isExhausted = true → ∀ more,
        takes t.noted limit more ((store', fetches), cursor) =
          (more.map fun call => .ok call.nothing, (store', fetches), cursor)) ∧
      ∀ call, ∃ r store'' cursor',
        outcome (take t limit call) (store', cursor) = (.ok r, store'', cursor') ∧
        (call = .page → r = none → cursor'.pages = pages.length) ∧
        (call = .item → r = none → cursor'.isExhausted = true) ∧
        (call = .all → cursor'.isExhausted = true) := by
  have hfollows := follows_chainNoted t c (startsFrom none pages)
  have hbefore : Before c (ChainNoted t c (startsFrom none pages)) pages.length
      ((store, []), { condition := c }) ⟨[], pages⟩ := by
    refine ⟨rfl, rfl, ⟨.inr hchain, rfl⟩, iff_of_false Bool.false_ne_true ?_, Nat.zero_add _⟩
    cases hchain <;> exact List.cons_ne_nil _ _
  obtain ⟨results, ⟨⟨store', fetches⟩, cursor⟩, a, hcalls, h, hperm, hinOrder⟩ :=
    takes_account hfollows hbefore hlimit calls
  have hplain := forget_takes t limit ((store, []), { condition := c }) calls
  rw [hcalls] at hplain
  refine ⟨results, fetches, store', cursor, hplain.symm, hcalls, .of_before h hperm hinOrder,
    fun hend more => ?_, fun call => ?_⟩
  · obtain rfl := h.isExhausted_iff.1 hend
    exact takes_of_none h hlimit more
  · obtain ⟨r, ⟨⟨store'', notes⟩, cursor'⟩, a', hcall, h', haccounts⟩ :=
      take_accounts hfollows h hlimit call
    have hforget := forget_take t limit ((store', fetches), cursor) call
    rw [hcall] at hforget
    refine ⟨r, store'', cursor', hforget.symm, fun hpage hr => ?_, fun hitem hr => ?_,
      fun hall => ?_⟩
    · have hcounted := h'.counted
      rw [haccounts.noPage hpage hr] at hcounted
      exact hcounted
    · exact h'.isExhausted_iff.2 (haccounts.noItem hitem hr)
    · exact h'.isExhausted_iff.2 (haccounts.all hall)

end Cursor

end Store

/-! ## Tags on three pages -/

namespace Sample

open Query Store

/-- The second page is empty. -/
def tagPages : List Page :=
  [⟨[tag "a"], some (tag "a")⟩, ⟨[], some (tag "b")⟩, ⟨[tag "c", tag "d"], none⟩]

/-- A page as a remote store sends it. -/
def pageBody (page : Page) : Json :=
  .object (("Items", .array (page.items.map Remote.Attribute.itemJson)) ::
    (page.resume.map fun key => ("LastEvaluatedKey", Remote.Attribute.itemJson key)).toList)

/-- A remote store that has the three pages ready. -/
def paged : Remote.Transport where
  responses := tagPages.map fun page => .body (pageBody page)

/-- A remote table of tags, one of whose pages is empty, with items and a page asked for. -/
theorem delivers_once_tags :
    ∃ t, (Remote.backend "").table tags = .ok t ∧ Chain t .everything paged none tagPages ∧
      tagPages.length < 4 ∧
      ∃ results fetches store cursor,
        Cursor.takes t 4 [.item, .item, .page, .item] (paged, { condition := .everything }) =
          (results.map .ok, store, cursor) ∧
        Cursor.Delivery tagPages [.item, .item, .page, .item] results fetches cursor ∧
        fetches = [none, some (tag "a"), some (tag "b")] ∧
        (Cursor.delivered results).Perm [tag "a", tag "c", tag "d"] := by
  obtain ⟨t, ht⟩ : ∃ t, (Remote.backend "").table tags = .ok t := ⟨_, rfl⟩
  have hchain : Chain t .everything paged none tagPages := by
    cases ht
    exact .more rfl rfl (.more rfl rfl (.last rfl rfl))
  obtain ⟨results, fetches, store, cursor, hcalls, -, hdelivery, -⟩ :=
    Cursor.delivers_once hchain (by decide : tagPages.length < 4) [.item, .item, .page, .item]
  have hcursor : (Cursor.takes t 4 [.item, .item, .page, .item]
      (paged, { condition := .everything })).2.2 = cursor := by
    rw [hcalls]
  have hend : cursor.isExhausted = true := by
    rw [← hcursor]
    cases ht
    rfl
  exact ⟨t, ht, hchain, by decide, results, fetches, store, cursor, hcalls, hdelivery,
    (hdelivery.exhausted_iff.1 hend).1, hdelivery.perm hend⟩

end Sample

end ItemStore
