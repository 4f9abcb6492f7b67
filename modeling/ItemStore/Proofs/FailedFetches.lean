import ItemStore.Proofs.Unranked
import ItemStore.Remote.Table

/-!
# Failed fetches

A cursor gives up its place for a fetch and gets one back only with a page. Main statement: a call
that fails leaves a new cursor, with the items that were at hand and the count of pages, so the next
fetch is of the first page, wherever the failed one was (`Cursor.starts_over`). A caller that tries
again has its pages, or its items, numbered from the last failure on (`wellSince`): it gets again
whatever it had before.
-/

namespace ItemStore

namespace Store

open Query Step

variable {σ α : Type}

/-! ## Runs of calls -/

/-- A call on a cursor: for a page, or for an item within a limit of fetches. -/
inductive Ask where
  | page
  | item (limit : Nat)

namespace Cursor

/-- Makes the call and gives what it hands out, or nothing at the end. -/
def ask (t : Table σ) : Ask → CursorStep σ (Option (List Item))
  | .page => nextPage t
  | .item limit => (fun item => item.map fun i => [i]) <$> nextItem t limit

/-- The store and the cursor after some calls. -/
def afterAsks (t : Table σ) (asks : List Ask) (s : σ × Cursor) : σ × Cursor :=
  asks.foldl (fun s a => (outcome (ask t a) s).2) s

/-- What some calls give, one after the other. -/
def results (t : Table σ) : List Ask → σ × Cursor → List (Except Error (Option (List Item)))
  | [], _ => []
  | a :: asks, s => (outcome (ask t a) s).1 :: results t asks (outcome (ask t a) s).2

end Cursor

/-- How many calls went well since the last one that failed, if `k` did before. -/
def wellSince (k : Nat) : List (Except Error α) → Nat
  | [] => k
  | .ok _ :: rest => wellSince (k + 1) rest
  | .error _ :: rest => wellSince 0 rest

/-! ## The chain of pages -/

/-- The start of a page by its number, if there are so many pages. -/
def startOf (page : Option Item → Page) : Nat → Option (Option Item)
  | 0 => some none
  | n + 1 => (startOf page n).bind fun start => (page start).resume.map some

/-- A page by its number. -/
def pageNumber (page : Option Item → Page) (n : Nat) : Option Page :=
  (startOf page n).map page

/-- The items of the first pages. -/
def itemsUpTo (page : Option Item → Page) (n : Nat) : List Item :=
  (List.range n).flatMap fun k => (pageNumber page k).elim [] Page.items

/-- A fetch gives the page that starts there, or fails. -/
def Serves (t : Table σ) (c : Condition) (page : Option Item → Page) : Prop :=
  ∀ start store p, (outcome (t.fetch c start) store).1 = .ok p → p = page start

theorem itemsUpTo_succ (page : Option Item → Page) (n : Nat) :
    itemsUpTo page (n + 1) = itemsUpTo page n ++ (pageNumber page n).elim [] Page.items := by
  simp [itemsUpTo, List.range_succ]

/-- More pages go on after the same items. -/
theorem itemsUpTo_prefix (page : Option Item → Page) {n m : Nat} (h : n ≤ m) :
    itemsUpTo page n <+: itemsUpTo page m := by
  induction h with
  | refl => exact List.prefix_refl _
  | step _ ih =>
    rw [itemsUpTo_succ]
    exact ih.trans (List.prefix_append _ _)

/-- After the last page no page brings more. -/
theorem itemsUpTo_of_last {page : Option Item → Page} {n m : Nat} (hlast : startOf page n = none)
    (h : n ≤ m) : itemsUpTo page m = itemsUpTo page n := by
  have hnone : startOf page m = none ∧ itemsUpTo page m = itemsUpTo page n := by
    induction h with
    | refl => exact ⟨hlast, rfl⟩
    | step _ ih => simp [startOf, itemsUpTo_succ, pageNumber, ih.1, ih.2]
  exact hnone.2

namespace Cursor

variable {t : Table σ} {store store' : σ} {cursor cursor' : Cursor} {e : Error}
  {c : Condition} {page : Option Item → Page}

/-! ## What a failed call leaves -/

/-- After some pages without items a fetch fails, and a new cursor is left, with the buffer and the
count of pages from just before that fetch. -/
def FailsAt (t : Table σ) (s : σ × Cursor) (e : Error) (s' : σ × Cursor) : Prop :=
  ∃ n store before, results t (List.replicate n .page) s = List.replicate n (.ok (some [])) ∧
    afterAsks t (List.replicate n .page) s = (store, before) ∧ before.complete = false ∧
    outcome (t.fetch before.condition before.resume) store = (.error e, s'.1) ∧
    s'.2 = { condition := before.condition, buffer := before.buffer, pages := before.pages }

/-- A page that fails is a failed fetch. -/
theorem failsAt_of_nextPage
    (h : outcome (nextPage t) (store, cursor) = (.error e, store', cursor')) :
    FailsAt t (store, cursor) e (store', cursor') := by
  by_cases hcomplete : cursor.complete = true
  · simp [outcome_nextPage_of_complete t store hcomplete] at h
  · rw [Bool.not_eq_true] at hcomplete
    rw [outcome_nextPage t store hcomplete] at h
    rcases hfetch : outcome (t.fetch cursor.condition cursor.resume) store with ⟨e' | p, store''⟩
    · simp only [hfetch, Prod.mk.injEq, Except.error.injEq] at h
      obtain ⟨rfl, rfl, rfl⟩ := h
      refine ⟨0, store, cursor, rfl, rfl, hcomplete, hfetch, ?_⟩
      rw [spent, hcomplete]
    · simp [hfetch] at h

/-- A page without items may come before. -/
theorem FailsAt.cons {s s' : σ × Cursor}
    (hpage : outcome (nextPage t) (store, cursor) = (.ok (some []), s)) (h : FailsAt t s e s') :
    FailsAt t (store, cursor) e s' := by
  obtain ⟨n, store', before, hresults, hafter, hrest⟩ := h
  refine ⟨n + 1, store', before, ?_, ?_, hrest⟩
  · rw [List.replicate_succ, List.replicate_succ, results, ask, hpage, hresults]
  · rw [List.replicate_succ, afterAsks, List.foldl_cons, ask, hpage]
    exact hafter

/-- A page leaves the items at hand alone. -/
theorem buffer_of_nextPage {r : Except Error (Option (List Item))}
    (h : outcome (nextPage t) (store, cursor) = (r, store', cursor')) :
    cursor'.buffer = cursor.buffer := by
  by_cases hcomplete : cursor.complete = true
  · rw [outcome_nextPage_of_complete t store hcomplete] at h
    simp only [Prod.mk.injEq] at h
    rw [h.2.2]
  · rw [Bool.not_eq_true] at hcomplete
    rw [outcome_nextPage t store hcomplete] at h
    rcases hfetch : outcome (t.fetch cursor.condition cursor.resume) store with ⟨_ | p, store''⟩ <;>
      simp only [hfetch, Prod.mk.injEq] at h <;> rw [← h.2.2] <;> rfl

/-- An item that fails is a failed fetch after pages without items. -/
theorem failsAt_of_nextItem (he : e ≠ tooMany) {limit : Nat}
    (h : outcome (nextItem t limit) (store, cursor) = (.error e, store', cursor')) :
    FailsAt t (store, cursor) e (store', cursor') := by
  induction limit generalizing store cursor with
  | zero => exact absurd (Except.error.inj (congrArg Prod.fst h)).symm he
  | succ limit ih =>
    rcases hbuffer : cursor.buffer with _ | ⟨item, rest⟩
    · rw [outcome_nextItem_of_nil t limit store hbuffer] at h
      rcases hpage : outcome (nextPage t) (store, cursor) with ⟨e' | _ | items, store'', after⟩ <;>
        simp only [hpage] at h
      · simp only [Prod.mk.injEq, Except.error.injEq] at h
        obtain ⟨rfl, rfl, rfl⟩ := h
        exact failsAt_of_nextPage hpage
      · simp at h
      · rcases items with _ | ⟨item, rest⟩
        · -- Nothing is on the page, so the search goes on from where it left the cursor.
          have hsame : { after with buffer := [] } = after := by
            rw [← hbuffer, ← buffer_of_nextPage hpage]
          rw [hsame] at h
          exact .cons hpage (ih h)
        · cases limit with
          | zero => exact absurd (Except.error.inj (congrArg Prod.fst h)).symm he
          | succ limit =>
            -- The next fetch is never made, since an item is at hand.
            let filled : Cursor := { after with buffer := item :: rest }
            have htake : outcome (nextItem t (limit + 1)) (store'', filled) =
                (.ok (some item), store'', { filled with buffer := rest }) :=
              outcome_nextItem_of_buffer t limit store'' rfl
            rw [htake] at h
            simp at h
    · simp [outcome_nextItem_of_buffer t limit store hbuffer] at h

/-- Every failure is that of a fetch. -/
theorem failsAt_of_ask {a : Ask} (he : e ≠ tooMany)
    (h : outcome (ask t a) (store, cursor) = (.error e, store', cursor')) :
    FailsAt t (store, cursor) e (store', cursor') := by
  cases a with
  | page => exact failsAt_of_nextPage h
  | item limit =>
    rw [ask, outcome_map] at h
    rcases hitem : outcome (nextItem t limit) (store, cursor) with ⟨e' | item, s⟩
    · simp only [hitem, Except.map, Prod.mk.injEq, Except.error.injEq] at h
      obtain ⟨rfl, rfl⟩ := h
      exact failsAt_of_nextItem he hitem
    · simp [hitem, Except.map] at h

/-! ## Trying again -/

/-- The page to fetch next is the one with this number, or there is none. -/
def Stands (page : Option Item → Page) (n : Nat) (cursor : Cursor) : Prop :=
  startOf page n = if cursor.complete then none else some cursor.resume

/-- A call for a page goes on to the next page, or back to the first. -/
theorem stands_nextPage (hserves : Serves t c page) {n : Nat} (hc : cursor.condition = c)
    (hstands : Stands page n cursor) (store : σ) :
    match outcome (nextPage t) (store, cursor) with
    | (.ok r, _, cursor') => r = (pageNumber page n).map Page.items ∧
        Stands page (n + 1) cursor' ∧ cursor'.condition = c
    | (.error _, _, cursor') => Stands page 0 cursor' ∧ cursor'.condition = c := by
  rw [Stands] at hstands
  by_cases hcomplete : cursor.complete = true
  · rw [hcomplete, if_pos rfl] at hstands
    rw [outcome_nextPage_of_complete t store hcomplete]
    simp [pageNumber, Stands, startOf, hstands, hcomplete, hc]
  · rw [Bool.not_eq_true] at hcomplete
    simp only [hcomplete, Bool.false_eq_true, if_false] at hstands
    rw [outcome_nextPage t store hcomplete, hc]
    rcases hfetch : outcome (t.fetch c cursor.resume) store with ⟨_ | p, store'⟩
    · exact ⟨by simp [Stands, startOf, spent, hcomplete], hc⟩
    · obtain rfl := hserves cursor.resume store p (congrArg Prod.fst hfetch)
      refine ⟨by simp [pageNumber, hstands], ?_, hc⟩
      cases hresume : (page cursor.resume).resume <;>
        simp [Stands, startOf, hstands, afterPage, hresume]

/-- A cursor that stands at a number gives what has this number and goes on to the next, or fails
and goes back to the first. So what a call gives has as its number the count of calls that went well
since the last failure. -/
theorem numbered (stands : Nat → Cursor → Prop) (given : Nat → Option (List Item) → Prop)
    (goesBack : Error → Prop) {asks : List Ask} {k : Nat} {earlier later}
    {r : Option (List Item)}
    (hstep : ∀ a ∈ asks, ∀ k cursor, stands k cursor → ∀ store,
      match outcome (ask t a) (store, cursor) with
      | (.ok r, _, cursor') => given k r ∧ stands (k + 1) cursor'
      | (.error e, _, cursor') => goesBack e → stands 0 cursor')
    (hstands : stands k cursor) (hearlier : ∀ e, .error e ∈ earlier → goesBack e)
    (h : results t asks (store, cursor) = earlier ++ .ok r :: later) :
    given (wellSince k earlier) r := by
  induction earlier generalizing k asks store cursor with
  | nil =>
    cases asks with
    | nil => simp [results] at h
    | cons a asks =>
      have hnow := hstep a List.mem_cons_self k cursor hstands store
      rw [results, List.nil_append, List.cons.injEq] at h
      rcases hask : outcome (ask t a) (store, cursor) with ⟨e | r', s⟩ <;>
        simp only [hask] at h hnow
      · exact nomatch h.1
      · obtain rfl := Except.ok.inj h.1
        exact hnow.1
  | cons x earlier ih =>
    cases asks with
    | nil => simp [results] at h
    | cons a asks =>
      have hnow := hstep a List.mem_cons_self k cursor hstands store
      have hlater := fun a ha => hstep a (List.mem_cons_of_mem _ ha)
      rw [results, List.cons_append, List.cons.injEq] at h
      obtain ⟨rfl, hrest⟩ := h
      have hafter := fun e he => hearlier e (List.mem_cons_of_mem _ he)
      rcases hask : outcome (ask t a) (store, cursor) with ⟨e | r', store', cursor'⟩ <;>
        simp only [hask] at hrest hnow hearlier ⊢
      -- A failure sends the cursor to the start, so the count begins again.
      · exact ih hlater (hnow (hearlier e List.mem_cons_self)) hafter hrest
      · exact ih hlater hnow.2 hafter hrest

/-- A call for a page gives the one whose number is the count of calls that went well since the last
failure. -/
theorem pages_numbered (hserves : Serves t c page) {k n : Nat} {earlier later}
    {r : Option (List Item)} (hc : cursor.condition = c) (hstands : Stands page k cursor)
    (h : results t (List.replicate n .page) (store, cursor) = earlier ++ .ok r :: later) :
    r = (pageNumber page (wellSince k earlier)).map Page.items := by
  refine numbered (fun k cursor => Stands page k cursor ∧ cursor.condition = c)
    (fun k r => r = (pageNumber page k).map Page.items) (fun _ => True) ?_ ⟨hstands, hc⟩
    (fun _ _ => trivial) h
  intro a ha k cursor hcursor store
  obtain rfl := List.eq_of_mem_replicate ha
  have hstep := stands_nextPage hserves hcursor.2 hcursor.1 store
  rw [ask]
  rcases hpage : outcome (nextPage t) (store, cursor) with ⟨e | r, store', cursor'⟩ <;>
    simp only [hpage] at hstep ⊢
  · exact fun _ => hstep
  · exact hstep

/-- With `k` items taken and `n` pages fetched, the rest of the pages is at hand. -/
structure Takes (page : Option Item → Page) (k n : Nat) (cursor : Cursor) : Prop where
  stands : Stands page n cursor
  buffer : (itemsUpTo page n).drop k = cursor.buffer
  reached : k ≤ (itemsUpTo page n).length ∨ startOf page n = none

/-- An item, or nothing at the end, is the one with a number in all pages. -/
def IsItem (page : Option Item → Page) (k : Nat) (item : Option Item) : Prop :=
  ∃ n, ∀ m, n ≤ m → item = (itemsUpTo page m)[k]?

/-- Taking an item at hand is taking the next one. -/
theorem takes_of_buffer {k n : Nat} {item : Item} {rest : List Item} (h : Takes page k n cursor)
    (hbuffer : cursor.buffer = item :: rest) :
    IsItem page k (some item) ∧ Takes page (k + 1) n { cursor with buffer := rest } := by
  have hdrop : (itemsUpTo page n).drop k = item :: rest := h.buffer.trans hbuffer
  have hlt : k < (itemsUpTo page n).length := by
    rw [← Nat.not_le, ← List.drop_eq_nil_iff, hdrop]
    exact List.cons_ne_nil item rest
  rw [List.drop_eq_getElem_cons hlt, List.cons.injEq] at hdrop
  obtain ⟨hitem, hrest⟩ := hdrop
  refine ⟨⟨n, fun m hm => ?_⟩, h.stands, hrest, .inl hlt⟩
  obtain ⟨more, hmore⟩ := itemsUpTo_prefix page hm
  rw [← hmore, List.getElem?_append_left hlt, List.getElem?_eq_getElem hlt, hitem]

/-- Nothing is given after the last item. -/
theorem takes_of_last {k n : Nat} (h : Takes page k n cursor) (hbuffer : cursor.buffer = [])
    (hlast : startOf page n = none) (hbuffer' : cursor'.buffer = [])
    (hstands : Stands page (n + 1) cursor') :
    IsItem page k none ∧ Takes page (k + 1) (n + 1) cursor' := by
  have hle : (itemsUpTo page n).length ≤ k := by
    rw [← List.drop_eq_nil_iff, h.buffer, hbuffer]
  have hsame := itemsUpTo_of_last hlast (Nat.le_add_right n 1)
  refine ⟨⟨n, fun m hm => ?_⟩, hstands, ?_, .inr (by rw [startOf, hlast, Option.bind_none])⟩
  · rw [itemsUpTo_of_last hlast hm, List.getElem?_eq_none hle]
  · rw [hsame, hbuffer', List.drop_eq_nil_iff]
    omega

/-- A page that was fetched is at hand if nothing else was. -/
theorem takes_of_page {k n : Nat} {p : Page} (h : Takes page k n cursor)
    (hbuffer : cursor.buffer = []) (hp : pageNumber page n = some p)
    (hstands : Stands page (n + 1) cursor') :
    Takes page k (n + 1) { cursor' with buffer := p.items } := by
  have hnot : startOf page n ≠ none := by
    intro hlast
    simp [pageNumber, hlast] at hp
  have hle : (itemsUpTo page n).length ≤ k := by
    rw [← List.drop_eq_nil_iff, h.buffer, hbuffer]
  -- Nothing is at hand, so all items of the earlier pages are taken.
  have hk : k = (itemsUpTo page n).length := by
    have hreached := h.reached.resolve_right hnot
    omega
  refine ⟨hstands, ?_, .inl ?_⟩ <;> rw [itemsUpTo_succ, hp, Option.elim_some, hk]
  · rw [List.drop_left]
  · rw [List.length_append]
    omega

/-- A call for an item goes on to the next item, or back to the first. -/
theorem takes_nextItem (hserves : Serves t c page) (limit : Nat) {k n : Nat}
    (hc : cursor.condition = c) (h : Takes page k n cursor) (store : σ) :
    match outcome (nextItem t limit) (store, cursor) with
    | (.ok item, _, cursor') =>
      IsItem page k item ∧ (∃ n, Takes page (k + 1) n cursor') ∧ cursor'.condition = c
    | (.error e, _, cursor') => e ≠ tooMany → Takes page 0 0 cursor' ∧ cursor'.condition = c := by
  induction limit generalizing n store cursor with
  | zero => exact fun he => absurd rfl he
  | succ limit ih =>
    rcases hbuffer : cursor.buffer with _ | ⟨item, rest⟩
    · have hpage := stands_nextPage hserves hc h.stands store
      rw [outcome_nextItem_of_nil t limit store hbuffer]
      rcases hnext : outcome (nextPage t) (store, cursor) with ⟨e | _ | items, store', cursor'⟩ <;>
        simp only [hnext] at hpage ⊢
      · intro _
        refine ⟨⟨hpage.1, ?_, .inl (Nat.zero_le _)⟩, hpage.2⟩
        rw [buffer_of_nextPage hnext, hbuffer]
        rfl
      · obtain ⟨hnone, hstands, hc'⟩ := hpage
        have hlast : startOf page n = none := by
          simpa [pageNumber] using hnone.symm
        have hbuffer' : cursor'.buffer = [] := (buffer_of_nextPage hnext).trans hbuffer
        obtain ⟨hitem, htakes⟩ := takes_of_last h hbuffer hlast hbuffer' hstands
        exact ⟨hitem, ⟨n + 1, htakes⟩, hc'⟩
      · obtain ⟨hsome, hstands, hc'⟩ := hpage
        obtain ⟨p, hp, rfl⟩ := Option.map_eq_some_iff.1 hsome.symm
        have htakes : Takes page k (n + 1) { cursor' with buffer := p.items } :=
          takes_of_page h hbuffer hp hstands
        exact @ih { cursor' with buffer := p.items } (n + 1) hc' htakes store'
    · rw [outcome_nextItem_of_buffer t limit store hbuffer]
      obtain ⟨hitem, htakes⟩ := takes_of_buffer h hbuffer
      exact ⟨hitem, ⟨n, htakes⟩, hc⟩

/-- A call for an item gives the one whose number is the count of calls that went well since the
last failure. -/
theorem items_numbered (hserves : Serves t c page) {k n : Nat} {limits : List Nat} {earlier later}
    {r : Option (List Item)} (hc : cursor.condition = c) (htakes : Takes page k n cursor)
    (hlimits : ∀ x ∈ earlier, x ≠ .error tooMany)
    (h : results t (limits.map .item) (store, cursor) = earlier ++ .ok r :: later) :
    ∃ item, r = item.map (fun i => [i]) ∧ IsItem page (wellSince k earlier) item := by
  have hearlier : ∀ e, .error e ∈ earlier → e ≠ tooMany := by
    rintro e he rfl
    exact hlimits _ he rfl
  refine numbered (fun k cursor => (∃ n, Takes page k n cursor) ∧ cursor.condition = c)
    (fun k r => ∃ item : Option Item, r = item.map (fun i => [i]) ∧ IsItem page k item)
    (fun e => e ≠ tooMany) ?_ ⟨⟨n, htakes⟩, hc⟩ hearlier h
  intro a ha k cursor hcursor store
  obtain ⟨limit, -, rfl⟩ := List.mem_map.1 ha
  obtain ⟨⟨n, htakes⟩, hc⟩ := hcursor
  have hstep := takes_nextItem hserves limit hc htakes store
  rw [ask, outcome_map]
  rcases hitem : outcome (nextItem t limit) (store, cursor) with ⟨e | item, store', cursor'⟩ <;>
    simp only [hitem, Except.map] at hstep ⊢
  · intro he
    obtain ⟨htakes', hc'⟩ := hstep he
    exact ⟨⟨0, htakes'⟩, hc'⟩
  · exact ⟨⟨item, rfl, hstep.1⟩, hstep.2⟩

/-- A call that fails leaves a cursor that starts over, whichever page it failed to get. So a caller
that tries again gets the pages, or the items, from the first one on. -/
theorem starts_over (t : Table σ) (c : Condition) :
    (∀ a s e s', e ≠ tooMany → outcome (ask t a) s = (.error e, s') → FailsAt t s e s') ∧
    ∀ page, Serves t c page → ∀ store earlier r later,
      (∀ n, results t (List.replicate n .page) (store, { condition := c }) =
          earlier ++ .ok r :: later →
        r = (pageNumber page (wellSince 0 earlier)).map Page.items) ∧
      (∀ limits : List Nat, results t (limits.map .item) (store, { condition := c }) =
          earlier ++ .ok r :: later → (∀ x ∈ earlier, x ≠ .error tooMany) →
        ∃ item, r = item.map (fun i => [i]) ∧ IsItem page (wellSince 0 earlier) item) := by
  refine ⟨fun a s e s' he h => failsAt_of_ask he h, ?_⟩
  intro page hserves store earlier r later
  have hstands : Stands page 0 { condition := c } := rfl
  refine ⟨fun n h => pages_numbered hserves rfl hstands h, fun limits h hlimits => ?_⟩
  have htakes : Takes page 0 0 { condition := c } := ⟨hstands, rfl, .inl (Nat.zero_le _)⟩
  exact items_numbered hserves rfl htakes hlimits h

end Cursor

end Store

/-! ## Tags -/

namespace Sample

open Query Store Step

/-- Tags by their names. -/
def tags : Schema where
  entity := "Tag"
  table := "Tag"
  fields := [⟨"id", .string⟩]
  partitionKey := ⟨"id", .string⟩
  sortKey := none
  entity_ne := by decide
  names_nodup := by decide
  partition_mem := by decide
  partition_isKeyType := by decide
  sort_mem := by decide
  sort_isKeyType := isKeyType_of_no_sort
  sort_ne := by decide

/-- A tag, which has nothing but its id. -/
def tag (id : String) : Item :=
  .ofList [("id", .text id)]

/-- Two pages of one tag each. -/
def tagPage : Option Item → Page
  | none => ⟨[tag "a"], some (tag "a")⟩
  | some _ => ⟨[tag "b"], none⟩

/-- A fetch that fails on the side of the service. -/
def serverError : Error := .store .read (.service .internalError)

/-- A table of tags that fails for a number of fetches after the first one. -/
def failing : Table Nat where
  name := "Tag"
  schema := tags
  get _ := pure none
  put _ := pure ()
  update _ := pure ()
  delete _ := pure ()
  putBatch _ := pure ()
  create := pure ()
  fetch _ start := do
    match start, ← get with
    | some _, n + 1 =>
      set n
      throw serverError
    | _, _ => return tagPage start

/-- The failing table gives the pages of tags when it does not fail. -/
theorem serves_failing : Serves failing .everything tagPage := by
  rintro (_ | start) (_ | n) p h
  · exact (Except.ok.inj h).symm
  · exact (Except.ok.inj h).symm
  · exact (Except.ok.inj h).symm
  · exact nomatch h

/-- A fetch for the second tag fails, and the next call gives the first one again. -/
theorem starts_over_tags :
    Cursor.FailsAt failing (1, { condition := .everything, resume := some (tag "a"), pages := 1 })
        serverError (0, { condition := .everything, pages := 1 }) ∧
      (some [tag "a"] : Option (List Item)) =
        (pageNumber tagPage (wellSince 0 [.ok (some [tag "a"]), .error serverError])).map
          Page.items := by
  have h := Cursor.starts_over failing .everything
  refine ⟨h.1 .page _ _ _ (by decide) rfl, ?_⟩
  have hagain : Cursor.results failing (List.replicate 3 .page) (1, { condition := .everything }) =
      [.ok (some [tag "a"]), .error serverError] ++ .ok (some [tag "a"]) :: [] := rfl
  exact (h.2 tagPage serves_failing 1 _ _ _).1 3 hagain

/-- A remote store that answers a second request with a fault. -/
def faulty : Remote.Transport where
  responses := [
    .body (.object [("Items", .array [Remote.Attribute.itemJson (tag "a")]),
      ("LastEvaluatedKey", Remote.Attribute.itemJson (tag "a"))]),
    .fault "InternalServerError",
    .body (.object [("Items", .array [Remote.Attribute.itemJson (tag "b")])])]

/-- A request for all tags after a key. -/
def scan (start : Option Item) : Remote.Request :=
  .read "Tag" (Condition.everything.render tags) start

/-- The first page says where to go on, the request that goes on there fails, and the third one goes
on nowhere: it is for the first page. -/
theorem scans_of_tags_start_over :
    ∃ t, (Remote.backend "").table tags = .ok t ∧
      let s := (faulty, { condition := .everything })
      Cursor.results t (List.replicate 3 .page) s =
        [.ok (some [tag "a"]), .error serverError, .ok (some [tag "b"])] ∧
      (Cursor.afterAsks t (List.replicate 3 .page) s).1.sent =
        [scan none, scan (some (tag "a")), scan none] := by
  refine ⟨_, rfl, rfl, rfl⟩

end Sample

end ItemStore
