import ItemStore.Entity.PreparedQuery
import ItemStore.Entity.Sample
import ItemStore.Proofs.PageChains

/-!
# Streams of one query

Main statement: the streams of a prepared query share one pass through its pages. Whenever they are
taken, and in whatever order they are asked, also between calls that list the query or ask for its
first entity, an item comes up once, in the order of the pages, at the stream that is asked next and
has not ended. Listing, and asking for the first entity, give the same every time
(`PreparedQuery.share_one_pass`).

The events so far say which streams are open and how many items came up (`IsOpen`, `surfaced`), and
they are all that an answer depends on (`Fits`).
-/

namespace ItemStore

open Query Store Step

variable {σ α : Type}

namespace Store

/-- From every store with a property, the fetches that follow the pages from a start on give the
same pages, and the property stays. -/
inductive Steady (t : Table σ) (c : Condition) (I : σ → Prop) : Option Item → List Page → Prop where
  | last {start : Option Item} {page : Page}
    (hfetch : ∀ store, I store →
      ∃ store', outcome (t.fetch c start) store = (.ok page, store') ∧ I store')
    (hlast : page.resume = none) : Steady t c I start [page]
  | more {start : Option Item} {page : Page} {key : Item} {rest : List Page}
    (hfetch : ∀ store, I store →
      ∃ store', outcome (t.fetch c start) store = (.ok page, store') ∧ I store')
    (hmore : page.resume = some key) (hrest : Steady t c I (some key) rest) :
    Steady t c I start (page :: rest)

/-- The store has the property, and the pages that are left are the same from there. -/
def SteadyAhead (t : Table σ) (c : Condition) (I : σ → Prop) (store : σ) (start : Option Item)
    (pages : List Page) : Prop :=
  I store ∧ (pages = [] ∨ Steady t c I start pages)

theorem Steady.ne_nil {t : Table σ} {c : Condition} {I : σ → Prop} {start : Option Item}
    {pages : List Page} (h : Steady t c I start pages) : pages ≠ [] := by
  cases h <;> exact List.cons_ne_nil _ _

/-- Pages that stay the same are followed as a chain. -/
theorem follows_steadyAhead (t : Table σ) (c : Condition) (I : σ → Prop) :
    Follows t c (SteadyAhead t c I) := by
  rintro store start page rest ⟨hstore, hpages⟩
  cases hpages.resolve_left (List.cons_ne_nil page rest) with
  | last hfetch hlast =>
    obtain ⟨store', hpage, hstore'⟩ := hfetch store hstore
    exact ⟨store', hpage, iff_of_true hlast rfl, hstore', .inl rfl⟩
  | more hfetch hmore hrest =>
    obtain ⟨store', hpage, hstore'⟩ := hfetch store hstore
    refine ⟨store', hpage, iff_of_false (by simp [hmore]) hrest.ne_nil, hstore', .inr ?_⟩
    rw [hmore]
    exact hrest

end Store

namespace PreparedQuery

variable (q : PreparedQuery σ α)

/-! ## Uses of a query -/

/-- A use of a prepared query: a stream is taken, or one of those that were taken is asked, or the
query is listed or asked for its first entity. -/
inductive Act where
  | stream
  | poll (stream : Nat)
  | list
  | first
  deriving DecidableEq

/-- A use of a prepared query with what it gave. -/
inductive Event (α : Type) where
  | taken
  | polled (stream : Nat) (element : Option (Except Error α))
  | listed (entities : Except Error (List α))
  | found (entity : Except Error (Option α))

/-- The act that an event comes of. -/
def Event.act : Event α → Act
  | .taken => .stream
  | .polled i _ => .poll i
  | .listed _ => .list
  | .found _ => .first

/-- A store, the cursor that the streams of a query share, and the streams that were taken. -/
structure Session (σ : Type) where
  store : σ
  cursor : Cursor
  streams : List EntityStream := []

/-- Uses the query. A stream that was never taken gives nothing. -/
def use (limit : Nat) : Act → Session σ → Event α × Session σ
  | .stream, s => (.taken, { s with streams := s.streams ++ [{}] })
  | .poll i, s =>
    let r := (q.poll limit (s.streams.getD i ⟨true⟩)).run (s.store, s.cursor)
    (.polled i r.1.1, ⟨r.2.1, r.2.2, s.streams.set i r.1.2⟩)
  | .list, s =>
    let r := outcome (q.list limit) s.store
    (.listed r.1, { s with store := r.2 })
  | .first, s =>
    let r := outcome (q.first limit) s.store
    (.found r.1, { s with store := r.2 })

/-- What some uses give, one after the other, and what is left after them. -/
def session (limit : Nat) : List Act → Session σ → List (Event α) × Session σ
  | [], s => ([], s)
  | act :: acts, s =>
    let rest := session limit acts (q.use limit act s).2
    ((q.use limit act s).1 :: rest.1, rest.2)

/-! ## What the events say -/

/-- What the streams gave, in the order in which they were asked. -/
def surfaced (events : List (Event α)) : List (Except Error α) :=
  events.filterMap fun
    | .polled _ element => element
    | _ => none

/-- How many streams were taken. -/
def takenCount (events : List (Event α)) : Nat :=
  events.countP fun e => e.act = .stream

/-- Whether an element of a stream is an entity, and not an error or the end. -/
def isEntity : Option (Except Error α) → Bool
  | some (.ok _) => true
  | _ => false

/-- The stream was taken, and ever since it has given entities only. -/
def IsOpen (i : Nat) (events : List (Event α)) : Prop :=
  ∃ before after, events = before ++ .taken :: after ∧ takenCount before = i ∧
    ∀ element, .polled i element ∈ after → isEntity element = true

/-- A use gave what it should after the earlier ones. An open stream goes on with the first item
that did not come up yet, and any other has nothing. -/
def Fits (items : List Item) (earlier : List (Event α)) : Event α → Prop
  | .taken => True
  | .polled i element =>
    (IsOpen i earlier → element = (items.map q.entityOf)[(surfaced earlier).length]?) ∧
      (¬IsOpen i earlier → element = none)
  | .listed entities => entities = items.mapM q.entityOf
  | .found entity => entity = items.head?.mapM q.entityOf

/-- An open stream was asked when nothing was left. -/
def Drained (events : List (Event α)) : Prop :=
  ∃ earlier i later, events = earlier ++ .polled i none :: later ∧ IsOpen i earlier

theorem takenCount_concat (events : List (Event α)) (e : Event α) :
    takenCount (events ++ [e]) = takenCount events + if e.act = .stream then 1 else 0 := by
  simp [takenCount, List.countP_append, List.countP_cons]

theorem surfaced_concat (events : List (Event α)) (e : Event α) :
    surfaced (events ++ [e]) = surfaced events ++ surfaced [e] :=
  List.filterMap_append

theorem split_concat {events before after : List (Event α)} {e x : Event α}
    (h : events ++ [e] = before ++ x :: after) : (events = before ∧ e = x ∧ after = []) ∨
      ∃ after', after = after' ++ [e] ∧ events = before ++ x :: after' := by
  rcases List.eq_nil_or_concat after with rfl | ⟨after, e', rfl⟩
  · obtain ⟨hevents, he⟩ := List.append_inj' h rfl
    exact .inl ⟨hevents, List.singleton_inj.1 he, rfl⟩
  · have hsplit : events ++ [e] = (before ++ x :: after) ++ [e'] := by
      simpa using h
    obtain ⟨hevents, he⟩ := List.append_inj' hsplit rfl
    obtain rfl := List.singleton_inj.1 he
    exact .inr ⟨after, List.concat_eq_append, hevents⟩

/-- A stream is open after an event if it is taken with it, or was open and does not end with it. -/
theorem isOpen_concat {i : Nat} {events : List (Event α)} {e : Event α} :
    IsOpen i (events ++ [e]) ↔ (e = .taken ∧ takenCount events = i) ∨
      (IsOpen i events ∧ ∀ element, e = .polled i element → isEntity element = true) := by
  constructor
  · rintro ⟨before, after, h, hcount, hgiven⟩
    rcases split_concat h with ⟨rfl, he, rfl⟩ | ⟨after, rfl, rfl⟩
    · exact .inl ⟨he, hcount⟩
    · refine .inr ⟨⟨before, after, rfl, hcount, fun element h => hgiven _ (by simp [h])⟩, ?_⟩
      rintro element rfl
      exact hgiven element (by simp)
  · rintro (⟨rfl, hcount⟩ | ⟨⟨before, after, rfl, hcount, hgiven⟩, hlast⟩)
    · exact ⟨events, [], rfl, hcount, by simp⟩
    · refine ⟨before, after ++ [e], by simp, hcount, fun element h => ?_⟩
      rcases List.mem_append.1 h with h | h
      · exact hgiven element h
      · exact hlast element (List.mem_singleton.1 h).symm

/-- The stream that ends last has drained the cursor, unless it was drained before. -/
theorem drained_concat {events : List (Event α)} {e : Event α} (h : Drained (events ++ [e])) :
    Drained events ∨ ∃ i, e = .polled i none ∧ IsOpen i events := by
  obtain ⟨earlier, i, later, h, hopen⟩ := h
  rcases split_concat h with ⟨rfl, he, rfl⟩ | ⟨later, rfl, rfl⟩
  · exact .inr ⟨i, he, hopen⟩
  · exact .inl ⟨earlier, i, later, rfl, hopen⟩

/-! ## One use -/

variable {q} {I : σ → Prop} {pages : List Page} {limit : Nat}

/-- An open stream gives the entity of the next item, and ends at an error and at the end. -/
theorem poll_of_item {item : Option Item} {s s' : σ × Cursor}
    (h : outcome (Cursor.nextItem q.table limit) s = (.ok item, s')) :
    (q.poll limit {}).run s =
      ((item.map q.entityOf, ⟨!isEntity (item.map q.entityOf)⟩), s') := by
  have hrun : (Cursor.nextItem q.table limit).run.run s = pure (.ok item, s') := h
  rw [poll]
  simp only [Bool.false_eq_true, if_false, StateT.run_bind, hrun, pure_bind]
  cases item with
  | none => rfl
  | some item =>
    dsimp only [Option.map_some]
    cases q.entityOf item <;> rfl

theorem poll_of_ended (s : σ × Cursor) : (q.poll limit ⟨true⟩).run s = ((none, ⟨true⟩), s) :=
  rfl

/-- Before a new cursor lie all pages. -/
theorem before_cursor (hsteady : Steady q.table q.condition I none pages) {store : σ}
    (hstore : I store) :
    Cursor.Before q.condition (SteadyAhead q.table q.condition I) pages.length
      (store, q.cursor) ⟨[], pages⟩ :=
  ⟨rfl, rfl, ⟨hstore, .inr hsteady⟩, iff_of_false Bool.false_ne_true hsteady.ne_nil, Nat.zero_add _⟩

/-- With an exhausted cursor no stream has more, and none looks for it. -/
theorem poll_of_isExhausted (q : PreparedQuery σ α) (hlimit : 0 < limit) {cursor : Cursor}
    (h : cursor.isExhausted = true) (stream : EntityStream) (store : σ) :
    (q.poll limit stream).run (store, cursor) = ((none, ⟨true⟩), store, cursor) := by
  obtain ⟨limit, rfl⟩ := Nat.exists_eq_add_of_lt hlimit
  rw [Cursor.isExhausted, Bool.and_eq_true, List.isEmpty_iff] at h
  obtain ⟨_ | _⟩ := stream
  · exact poll_of_item (Cursor.outcome_nextItem_of_complete q.table _ store h.2 h.1)
  · rfl

/-- Listing goes through all pages. -/
theorem outcome_list (hsteady : Steady q.table q.condition I none pages)
    (hlimit : pages.length < limit) {store : σ} (hstore : I store) :
    ∃ store', outcome (q.list limit) store =
      ((pages.flatMap Page.items).mapM q.entityOf, store') ∧ I store' := by
  obtain ⟨⟨store', cursor⟩, hdrain, h⟩ :=
    Cursor.drain_accounts (follows_steadyAhead q.table q.condition I) (before_cursor hsteady hstore)
      hlimit
  rw [PreparedQuery.cursor] at hdrain
  refine ⟨store', ?_, h.place.1⟩
  rw [list, outcome_bind, Cursor.outcome_runNew, hdrain]
  exact outcome_ofExcept _ store'

/-- The first entity is that of the first item of all pages. -/
theorem outcome_first (hsteady : Steady q.table q.condition I none pages)
    (hlimit : pages.length < limit) {store : σ} (hstore : I store) :
    ∃ store', outcome (q.first limit) store =
      ((pages.flatMap Page.items).head?.mapM q.entityOf, store') ∧ I store' := by
  obtain ⟨item, ⟨store', cursor⟩, a, hitem, h, haccounts, hnone⟩ :=
    Cursor.nextItem_accounts (follows_steadyAhead q.table q.condition I)
      (before_cursor hsteady hstore) hlimit
  rw [PreparedQuery.cursor] at hitem
  have hitems : pages.flatMap Page.items = item.toList ++ a.items := haccounts
  refine ⟨store', ?_, h.place.1⟩
  rw [first, outcome_bind, Cursor.outcome_runNew, hitem, hitems]
  cases item with
  | none =>
    rw [hnone rfl]
    rfl
  | some item =>
    show outcome (some <$> .ofExcept (q.entityOf item)) store' = _
    rw [outcome_map, outcome_ofExcept]
    rfl

/-! ## Runs of uses -/

/-- A session in step with the events so far: what did not come up lies ahead of the shared cursor,
and the open streams are those that the events say. -/
structure InStep (q : PreparedQuery σ α) (I : σ → Prop) (pages : List Page)
    (events : List (Event α)) (s : Session σ) : Prop where
  ahead : ∃ a, Cursor.Before q.condition (SteadyAhead q.table q.condition I) pages.length
    (s.store, s.cursor) a ∧ a.items = (pages.flatMap Page.items).drop (surfaced events).length
  surfaced_prefix : surfaced events <+: (pages.flatMap Page.items).map q.entityOf
  length_streams : s.streams.length = takenCount events
  isOpen_iff : ∀ i, s.streams[i]? = some {} ↔ IsOpen i events
  isExhausted : Drained events → s.cursor.isExhausted = true

variable {events : List (Event α)} {s : Session σ}

theorem InStep.store (h : InStep q I pages events s) : I s.store := by
  obtain ⟨a, hbefore, -⟩ := h.ahead
  exact hbefore.place.1

/-- An event that takes nothing from the shared cursor leaves the session in step. -/
theorem InStep.idle (h : InStep q I pages events s) (e : Event α) (hact : e ≠ .taken)
    (hsurfaced : surfaced [e] = [])
    (hclosed : ∀ i element, e = .polled i element → ¬IsOpen i events) {store : σ}
    (hstore : I store) : InStep q I pages (events ++ [e]) { s with store } := by
  obtain ⟨a, hbefore, hitems⟩ := h.ahead
  have hcount : takenCount (events ++ [e]) = takenCount events := by
    rw [takenCount_concat, if_neg]
    · rfl
    · cases e <;> simp_all [Event.act]
  have hsame : surfaced (events ++ [e]) = surfaced events := by
    rw [surfaced_concat, hsurfaced, List.append_nil]
  refine ⟨⟨a, ?_, ?_⟩, ?_, ?_, fun i => ?_, fun hdrained => ?_⟩
  · exact ⟨hbefore.condition, hbefore.buffer, ⟨hstore, hbefore.place.2⟩, hbefore.complete,
      hbefore.counted⟩
  · rw [hsame, hitems]
  · rw [hsame]
    exact h.surfaced_prefix
  · rw [hcount]
    exact h.length_streams
  · rw [isOpen_concat, ← h.isOpen_iff]
    refine ⟨fun hopen => .inr ⟨hopen, fun element he => ?_⟩, ?_⟩
    · exact absurd ((h.isOpen_iff i).1 hopen) (hclosed i element he)
    · rintro (⟨he, -⟩ | ⟨hopen, -⟩)
      · exact absurd he hact
      · exact hopen
  · rcases drained_concat hdrained with hdrained | ⟨i, he, hopen⟩
    · exact h.isExhausted hdrained
    · exact absurd hopen (hclosed i none he)

/-- A stream that is taken is open. -/
theorem InStep.taken (h : InStep q I pages events s) :
    InStep q I pages (events ++ [.taken]) { s with streams := s.streams ++ [{}] } := by
  obtain ⟨a, hbefore, hitems⟩ := h.ahead
  have hsame : surfaced (events ++ [.taken]) = surfaced events := by
    rw [surfaced_concat]
    exact List.append_nil _
  refine ⟨⟨a, hbefore, ?_⟩, ?_, ?_, fun i => ?_, fun hdrained => ?_⟩
  · rw [hsame, hitems]
  · rw [hsame]
    exact h.surfaced_prefix
  · rw [takenCount_concat, List.length_append, h.length_streams]
    rfl
  · rw [isOpen_concat, ← h.isOpen_iff, ← h.length_streams, List.getElem?_append]
    split
    · next hlt => simp [Nat.ne_of_gt hlt]
    · next hge =>
      have hnone : s.streams[i]? = none := List.getElem?_eq_none (Nat.le_of_not_lt hge)
      simp only [hnone, reduceCtorEq, false_and, or_false, true_and, List.getElem?_singleton,
        Option.ite_none_right_eq_some, and_true]
      omega
  · rcases drained_concat hdrained with hdrained | ⟨i, he, -⟩
    · exact h.isExhausted hdrained
    · cases he

/-- Asking a stream that is not open changes nothing. -/
theorem use_of_closed {i : Nat} (hclosed : s.streams[i]? ≠ some {}) :
    q.use limit (.poll i) s = (.polled i none, s) := by
  have hget : s.streams.getD i ⟨true⟩ = ⟨true⟩ := by
    rw [List.getD_eq_getElem?_getD]
    rcases h : s.streams[i]? with _ | ⟨_ | _⟩
    · rfl
    · exact absurd h hclosed
    · rfl
  have hset : s.streams.set i ⟨true⟩ = s.streams := by
    refine List.ext_getElem? fun j => ?_
    rw [List.getElem?_set]
    split
    · next hij =>
      subst hij
      rcases h : s.streams[i]? with _ | ⟨_ | _⟩
      · simpa using h
      · exact absurd h hclosed
      · obtain ⟨hi, -⟩ := List.getElem?_eq_some_iff.1 h
        simp [hi]
    · rfl
  rw [use, hget, poll_of_ended]
  simp only [hset]

/-- An open stream goes on with the first item that did not come up. -/
theorem use_of_open (hlimit : pages.length < limit) (h : InStep q I pages events s) {i : Nat}
    (hopen : IsOpen i events) :
    ∃ element s', q.use limit (.poll i) s = (.polled i element, s') ∧
      element = ((pages.flatMap Page.items).map q.entityOf)[(surfaced events).length]? ∧
      InStep q I pages (events ++ [.polled i element]) s' := by
  obtain ⟨⟨buffer, rest⟩, hbefore, hitems⟩ := h.ahead
  have hrest : rest.length < limit := by
    have hcounted := hbefore.counted
    dsimp only at hcounted
    omega
  obtain ⟨item, s', a', hitem, hbefore', haccounts, hnone⟩ :=
    Cursor.nextItem_accounts (follows_steadyAhead q.table q.condition I) hbefore hrest
  rw [haccounts] at hitems
  have hstream := (h.isOpen_iff i).2 hopen
  have hget : s.streams.getD i ⟨true⟩ = {} := by
    rw [List.getD_eq_getElem?_getD, hstream, Option.getD_some]
  have hhead : item = (pages.flatMap Page.items)[(surfaced events).length]? := by
    rw [← List.head?_drop, ← hitems]
    cases item with
    | none => rw [hnone rfl]; rfl
    | some item => rfl
  have helement : item.map q.entityOf =
      ((pages.flatMap Page.items).map q.entityOf)[(surfaced events).length]? := by
    rw [List.getElem?_map, hhead]
  have hsurfaced : surfaced (events ++ [.polled i (item.map q.entityOf)]) =
      surfaced events ++ (item.map q.entityOf).toList := by
    rw [surfaced_concat]
    cases item <;> rfl
  refine ⟨item.map q.entityOf, ⟨s'.1, s'.2, s.streams.set i ⟨!isEntity (item.map q.entityOf)⟩⟩, ?_,
    helement, ⟨a', hbefore', ?_⟩, ?_, ?_, fun j => ?_, fun hdrained => ?_⟩
  · rw [use, hget, poll_of_item hitem]
  · rw [hsurfaced]
    cases item with
    | none => simpa using hitems
    | some item =>
      rw [Option.map_some, Option.toList_some, List.length_append, List.length_singleton,
        ← List.tail_drop, ← hitems]
      rfl
  · have htake : surfaced events ++ (item.map q.entityOf).toList =
        ((pages.flatMap Page.items).map q.entityOf).take ((surfaced events).length + 1) := by
      rw [List.take_add_one, ← helement, ← List.prefix_iff_eq_take.1 h.surfaced_prefix]
    rw [hsurfaced, htake]
    exact List.take_prefix _ _
  · rw [List.length_set, h.length_streams, takenCount_concat]
    rfl
  · obtain ⟨hlt, hi⟩ := List.getElem?_eq_some_iff.1 hstream
    rw [isOpen_concat, ← h.isOpen_iff, List.getElem?_set]
    by_cases hij : i = j
    · subst hij
      simp [hlt, hi]
    · simp [hij]
  -- If a stream ended before, nothing is left, and this one ends too.
  · have hend : item = none := by
      rcases drained_concat hdrained with hdrained | ⟨j, he, -⟩
      · rw [hbefore.isExhausted_iff.1 (h.isExhausted hdrained)] at haccounts
        exact Option.toList_eq_nil_iff.1 (List.append_eq_nil_iff.1 haccounts.symm).1
      · exact Option.map_eq_none_iff.1 (Event.polled.inj he).2
    exact hbefore'.isExhausted_iff.2 (hnone hend)

/-- A use gives what the earlier events say, and keeps the session in step. -/
theorem use_inStep (hsteady : Steady q.table q.condition I none pages)
    (hlimit : pages.length < limit) (h : InStep q I pages events s) (act : Act) :
    ∃ e s', q.use limit act s = (e, s') ∧ e.act = act ∧
      Fits q (pages.flatMap Page.items) events e ∧ InStep q I pages (events ++ [e]) s' := by
  cases act with
  | stream =>
    exact ⟨.taken, _, rfl, rfl, trivial, h.taken⟩
  | poll i =>
    by_cases hopen : IsOpen i events
    · obtain ⟨element, s', huse, helement, h'⟩ := use_of_open hlimit h hopen
      exact ⟨_, s', huse, rfl, ⟨fun _ => helement, absurd hopen⟩, h'⟩
    · refine ⟨.polled i none, s, use_of_closed (mt (h.isOpen_iff i).1 hopen), rfl,
        ⟨fun h => absurd h hopen, fun _ => rfl⟩, h.idle (.polled i none) nofun rfl ?_ h.store⟩
      rintro j element he
      obtain ⟨rfl, -⟩ := Event.polled.inj he
      exact hopen
  | list =>
    obtain ⟨store, hlist, hstore⟩ := outcome_list hsteady hlimit h.store
    refine ⟨.listed _, { s with store }, ?_, rfl, rfl, h.idle (.listed _) nofun rfl nofun hstore⟩
    rw [use, hlist]
  | first =>
    obtain ⟨store, hfirst, hstore⟩ := outcome_first hsteady hlimit h.store
    refine ⟨.found _, { s with store }, ?_, rfl, rfl, h.idle (.found _) nofun rfl nofun hstore⟩
    rw [use, hfirst]

/-- A session stays in step whatever is done. -/
theorem session_inStep (hsteady : Steady q.table q.condition I none pages)
    (hlimit : pages.length < limit) (h : InStep q I pages events s) (acts : List Act) :
    ∃ more s', q.session limit acts s = (more, s') ∧ more.map Event.act = acts ∧
      (∀ earlier e later, more = earlier ++ e :: later →
        Fits q (pages.flatMap Page.items) (events ++ earlier) e) ∧
      InStep q I pages (events ++ more) s' := by
  induction acts generalizing events s with
  | nil =>
    refine ⟨[], s, rfl, rfl, fun earlier e later h => ?_, ?_⟩
    · simp at h
    · rwa [List.append_nil]
  | cons act acts ih =>
    obtain ⟨e, s', huse, hact, hfits, h'⟩ := use_inStep hsteady hlimit h act
    obtain ⟨more, s'', hsession, hacts, hall, h''⟩ := ih h'
    refine ⟨e :: more, s'', ?_, ?_, fun earlier x later hx => ?_, ?_⟩
    · rw [session, huse, hsession]
    · rw [List.map_cons, hact, hacts]
    · cases earlier with
      | nil =>
        obtain ⟨rfl, -⟩ := List.cons.inj hx
        rwa [List.append_nil]
      | cons e' earlier =>
        obtain ⟨rfl, hrest⟩ := List.cons.inj hx
        simpa using hall earlier x later hrest
    · simpa using h''

/-- An exhausted cursor stays as it is. -/
theorem cursor_of_isExhausted (hlimit : 0 < limit) (h : s.cursor.isExhausted = true)
    (acts : List Act) : (q.session limit acts s).2.cursor = s.cursor := by
  induction acts generalizing s with
  | nil => rfl
  | cons act acts ih =>
    have huse : (q.use limit act s).2.cursor = s.cursor := by
      cases act with
      | poll i => rw [use, poll_of_isExhausted q hlimit h]
      | _ => rfl
    rw [session]
    exact (ih (huse ▸ h)).trans huse

/-- The query on its table with notes of the fetches. -/
def noted (q : PreparedQuery σ α) : PreparedQuery (σ × List (Option Item)) α :=
  { q with table := q.table.noted }

/-- The streams of a query give the items of its pages together, each once and in order, and end at
errors and at the end, while listing and the first entity are always the same. Once the shared
cursor is exhausted no stream has more and none fetches. -/
theorem share_one_pass {store : σ} (hsteady : Steady q.table q.condition I none pages)
    (hstore : I store) (hlimit : pages.length < limit) (acts : List Act) :
    ∃ events s, q.session limit acts ⟨store, q.cursor, []⟩ = (events, s) ∧
      events.map Event.act = acts ∧
      surfaced events <+: (pages.flatMap Page.items).map q.entityOf ∧
      (∀ earlier e later, events = earlier ++ e :: later →
        Fits q (pages.flatMap Page.items) earlier e) ∧
      (Drained events → s.cursor.isExhausted = true) ∧
      (s.cursor.isExhausted = true →
        surfaced events = (pages.flatMap Page.items).map q.entityOf ∧
        (∀ stream notes, (q.noted.poll limit stream).run ((s.store, notes), s.cursor) =
          ((none, ⟨true⟩), (s.store, notes), s.cursor)) ∧
        ∀ more, (q.session limit more s).2.cursor = s.cursor) := by
  have hstart : InStep q I pages [] ⟨store, q.cursor, []⟩ := by
    refine ⟨⟨_, before_cursor hsteady hstore, rfl⟩, List.nil_prefix, rfl, fun i => ?_, ?_⟩
    · refine iff_of_false (by simp) ?_
      rintro ⟨before, after, h, -⟩
      simp at h
    · rintro ⟨earlier, i, later, h, -⟩
      simp at h
  obtain ⟨events, s, hsession, hacts, hfits, h⟩ := session_inStep hsteady hlimit hstart acts
  rw [List.nil_append] at h
  refine ⟨events, s, hsession, hacts, h.surfaced_prefix, hfits, h.isExhausted, fun hend => ?_⟩
  have hpos : 0 < limit := Nat.zero_lt_of_lt hlimit
  refine ⟨?_, fun stream notes => poll_of_isExhausted q.noted hpos hend stream (s.store, notes),
    cursor_of_isExhausted hpos hend⟩
  obtain ⟨a, hbefore, hitems⟩ := h.ahead
  obtain rfl := hbefore.isExhausted_iff.1 hend
  -- No item lies ahead, so all came up.
  have hall : (pages.flatMap Page.items).length ≤ (surfaced events).length :=
    List.drop_eq_nil_iff.1 hitems.symm
  refine h.surfaced_prefix.eq_of_length_le ?_
  rwa [List.length_map]

end PreparedQuery

/-! ## Two streams of fruits -/

namespace Sample

open PreparedQuery

/-- A stored fruit without a weight. -/
def stored (id name : String) : Item :=
  .ofList [("id", .text id), ("name", .text name)]

/-- A stored fruit that can be read. -/
def weighed (id name weight : String) : Item :=
  .ofList [("id", .text id), ("name", .text name), ("weight", .number weight)]

/-- Three fruits, one of which was stored without its weight. -/
def basket : Memory where
  tables := .ofList [("Fruit",
    [weighed "apple" "Apple" "120", stored "fig" "Fig", weighed "plum" "Plum" "40"])]

/-- The fruits in pages of two. -/
def fruitPages : List Page :=
  [⟨[weighed "apple" "Apple" "120", stored "fig" "Fig"], some (.ofList [("id", .text "fig")])⟩,
    ⟨[weighed "plum" "Plum" "40"], none⟩]

/-- All fruits. -/
def fruits (t : Table Memory) : PreparedQuery Memory Fruit where
  entity := fruit
  table := t
  condition := .everything

/-- Two streams are taken. The second one ends at the fig, and the first one has the rest. -/
def picking : List Act :=
  [.stream, .stream, .poll 0, .list, .poll 1, .poll 1, .first, .poll 0, .poll 0]

/-- Two streams of three fruits, a list and a first one in between. -/
theorem share_one_pass_fruits :
    ∃ s t, fruit.describe = .ok s ∧ (Memory.backend (.withPageSize {} 2)).table s = .ok t ∧
      Steady t .everything (fun m => m = basket) none fruitPages ∧ fruitPages.length < 3 ∧
      ∃ events left, (fruits t).session 3 picking ⟨basket, (fruits t).cursor, []⟩ = (events, left) ∧
        events.map Event.act = picking ∧
        surfaced events = (fruitPages.flatMap Page.items).map (fruits t).entityOf := by
  obtain ⟨s, hs⟩ : ∃ s, fruit.describe = .ok s := ⟨_, rfl⟩
  obtain ⟨t, ht⟩ : ∃ t, (Memory.backend (.withPageSize {} 2)).table s = .ok t := by
    cases hs
    exact ⟨_, rfl⟩
  have hsteady : Steady t .everything (fun m => m = basket) none fruitPages := by
    cases hs
    cases ht
    refine .more ?_ rfl (.last ?_ rfl) <;> rintro _ rfl <;> exact ⟨basket, rfl, rfl⟩
  obtain ⟨events, left, hsession, hacts, -, -, -, hend⟩ :=
    share_one_pass (q := fruits t) hsteady rfl (by decide : fruitPages.length < 3) picking
  have hexhausted : left.cursor.isExhausted = true := by
    have hleft : ((fruits t).session 3 picking ⟨basket, (fruits t).cursor, []⟩).2 = left := by
      rw [hsession]
    rw [← hleft]
    cases hs
    cases ht
    rfl
  exact ⟨s, t, hs, ht, hsteady, by decide, events, left, hsession, hacts, (hend hexhausted).1⟩

end Sample

end ItemStore
