import ItemStore.Proofs.Steps
import ItemStore.Store.Cursor

/-!
# What a cursor does

A cursor's step is a step of the store together with the cursor. A fetch is one step of the store
(`Cursor.outcome_nextPage`), after which the cursor has spent its place and, if there is a page,
taken the next one. Draining and looking for an item repeat that, one fetch at a time
(`Cursor.outcome_drainPages`, `Cursor.outcome_nextItem`).
-/

namespace ItemStore.Store

open Query Step

namespace Cursor

variable {σ α : Type} {t : Table σ} {store store' : σ} {cursor : Cursor}

/-- The cursor at the moment of a fetch, without the place it had. -/
def spent (cursor : Cursor) : Cursor :=
  { cursor with resume := none }

theorem outcome_current (store : σ) (cursor : Cursor) :
    outcome (current : CursorStep σ Cursor) (store, cursor) = (.ok cursor, store, cursor) :=
  rfl

theorem outcome_change (f : Cursor → Cursor) (store : σ) (cursor : Cursor) :
    outcome (change f : CursorStep σ Unit) (store, cursor) = (.ok (), store, f cursor) :=
  rfl

/-- A step of the store alone leaves the cursor. -/
theorem outcome_onStore (step : Step σ α) (store : σ) (cursor : Cursor) :
    outcome (onStore step) (store, cursor) =
      ((outcome step store).1, (outcome step store).2, cursor) :=
  rfl

/-- After the last page there is no fetch. -/
theorem outcome_nextPage_of_complete (t : Table σ) (store : σ) (h : cursor.complete = true) :
    outcome (nextPage t) (store, cursor) = (.ok none, store, cursor) := by
  rw [nextPage, outcome_bind, outcome_current]
  simp only [h, if_true, outcome_pure]

/-- A cursor that is not complete spends its key on a fetch, and takes note of the page if there is
one. -/
theorem outcome_nextPage (t : Table σ) (store : σ) (h : cursor.complete = false) :
    outcome (nextPage t) (store, cursor) =
      match outcome (t.fetch cursor.condition cursor.resume) store with
      | (.ok page, store') => (.ok (some page.items), store', afterPage page cursor.spent)
      | (.error e, store') => (.error e, store', cursor.spent) := by
  obtain ⟨condition, resume, complete, buffer, pages⟩ := cursor
  obtain rfl : complete = false := h
  rw [nextPage, outcome_bind, outcome_current]
  simp only [Bool.false_eq_true, if_false, outcome_bind, outcome_change, outcome_onStore]
  rcases outcome (t.fetch condition resume) store with ⟨_ | page, store'⟩ <;> rfl

/-! ## Draining -/

/-- After the last page nothing is left to drain. -/
theorem outcome_drainPages_of_complete (t : Table σ) (limit : Nat) (store : σ)
    (h : cursor.complete = true) :
    outcome (drainPages t (limit + 1)) (store, cursor) = (.ok [], store, cursor) := by
  rw [drainPages, outcome_bind, outcome_nextPage_of_complete t store h]
  rfl

/-- Draining fetches a page and drains what is left. -/
theorem outcome_drainPages (t : Table σ) (limit : Nat) (store : σ) (h : cursor.complete = false) :
    outcome (drainPages t (limit + 1)) (store, cursor) =
      match outcome (t.fetch cursor.condition cursor.resume) store with
      | (.ok page, store') =>
        let rest := outcome (drainPages t limit) (store', afterPage page cursor.spent)
        (rest.1.map fun items => page.items ++ items, rest.2)
      | (.error e, store') => (.error e, store', cursor.spent) := by
  rw [drainPages, outcome_bind, outcome_nextPage t store h]
  rcases outcome (t.fetch cursor.condition cursor.resume) store with ⟨_ | page, store'⟩
  · rfl
  · show outcome (drainPages t limit >>= fun items => pure (page.items ++ items))
      (store', afterPage page cursor.spent) = _
    rw [bind_pure_comp, outcome_map]

/-- A drain empties the buffer and then follows the pages. -/
theorem outcome_drain (t : Table σ) (limit : Nat) (store : σ) (cursor : Cursor) :
    outcome (drain t limit) (store, cursor) =
      let rest := outcome (drainPages t limit) (store, { cursor with buffer := [] })
      (rest.1.map fun items => cursor.buffer ++ items, rest.2) := by
  rw [drain, outcome_bind, outcome_current]
  simp only [outcome_bind (change _), outcome_change]
  rw [bind_pure_comp, outcome_map]

/-- Draining asks for pages one by one. -/
theorem outcome_drainPages_succ (t : Table σ) (limit : Nat) (s : σ × Cursor) :
    outcome (drainPages t (limit + 1)) s =
      match outcome (nextPage t) s with
      | (.ok (some items), s') =>
        ((outcome (drainPages t limit) s').1.map fun rest => items ++ rest,
          (outcome (drainPages t limit) s').2)
      | (.ok none, s') => (.ok [], s')
      | (.error e, s') => (.error e, s') := by
  rw [drainPages, outcome_bind]
  rcases outcome (nextPage t) s with ⟨_ | _ | items, s'⟩
  · rfl
  · rfl
  · show outcome (drainPages t limit >>= fun rest => pure (items ++ rest)) s' = _
    rw [bind_pure_comp, outcome_map]

/-! ## Taking items -/

/-- An item at hand is taken without a fetch. -/
theorem outcome_nextItem_of_buffer (t : Table σ) (limit : Nat) (store : σ) {item : Item}
    {rest : List Item} (h : cursor.buffer = item :: rest) :
    outcome (nextItem t (limit + 1)) (store, cursor) =
      (.ok (some item), store, { cursor with buffer := rest }) := by
  rw [nextItem, outcome_bind, outcome_current]
  simp only [h]
  rfl

/-- With nothing at hand after the last page there is no next item. -/
theorem outcome_nextItem_of_complete (t : Table σ) (limit : Nat) (store : σ)
    (hbuffer : cursor.buffer = []) (h : cursor.complete = true) :
    outcome (nextItem t (limit + 1)) (store, cursor) = (.ok none, store, cursor) := by
  rw [nextItem, outcome_bind, outcome_current]
  simp only [hbuffer, outcome_bind, outcome_nextPage_of_complete t store h]
  rfl

/-- Without an item at hand, the next one is looked for on the next page. -/
theorem outcome_nextItem (t : Table σ) (limit : Nat) (store : σ) (hbuffer : cursor.buffer = [])
    (h : cursor.complete = false) :
    outcome (nextItem t (limit + 1)) (store, cursor) =
      match outcome (t.fetch cursor.condition cursor.resume) store with
      | (.ok page, store') =>
        outcome (nextItem t limit)
          (store', { afterPage page cursor.spent with buffer := page.items })
      | (.error e, store') => (.error e, store', cursor.spent) := by
  rw [nextItem, outcome_bind, outcome_current]
  simp only [hbuffer, outcome_bind, outcome_nextPage t store h]
  rcases outcome (t.fetch cursor.condition cursor.resume) store with ⟨_ | page, store'⟩ <;> rfl

/-- Without an item at hand, an item is looked for on the page that a call for one gives. -/
theorem outcome_nextItem_of_nil (t : Table σ) (limit : Nat) (store : σ)
    (hbuffer : cursor.buffer = []) :
    outcome (nextItem t (limit + 1)) (store, cursor) =
      match outcome (nextPage t) (store, cursor) with
      | (.ok (some items), store', cursor') =>
        outcome (nextItem t limit) (store', { cursor' with buffer := items })
      | (.ok none, s) => (.ok none, s)
      | (.error e, s) => (.error e, s) := by
  by_cases hcomplete : cursor.complete = true
  · rw [outcome_nextItem_of_complete t limit store hbuffer hcomplete,
      outcome_nextPage_of_complete t store hcomplete]
  · rw [Bool.not_eq_true] at hcomplete
    rw [outcome_nextItem t limit store hbuffer hcomplete, outcome_nextPage t store hcomplete]
    rcases outcome (t.fetch cursor.condition cursor.resume) store with ⟨_ | p, store'⟩ <;> rfl

/-! ## New cursors -/

/-- A step of a new cursor changes the store as it would with one that was there. -/
theorem outcome_runNew (c : Condition) (step : CursorStep σ α) (store : σ) :
    outcome (runNew c step) store =
      ((outcome step (store, { condition := c })).1,
        (outcome step (store, { condition := c })).2.1) :=
  rfl

/-- Where the first page is the last one, a new cursor drains that page. -/
theorem outcome_runNew_drain {c : Condition} {items : Except Error (List Item)} {limit : Nat}
    (hfetch : outcome (t.fetch c none) store = (items.map fun items => ⟨items, none⟩, store'))
    (hlimit : 2 ≤ limit) : outcome (runNew c (drain t limit)) store = (items, store') := by
  obtain ⟨limit, rfl⟩ := Nat.exists_eq_add_of_le' hlimit
  rw [outcome_runNew, outcome_drain, outcome_drainPages t (limit + 1) store rfl, hfetch]
  cases items with
  | error e => rfl
  | ok items =>
    let next : Cursor := afterPage ⟨items, none⟩ (spent { condition := c })
    have hrest : outcome (drainPages t (limit + 1)) (store', next) = (.ok [], store', next) :=
      outcome_drainPages_of_complete t limit store' rfl
    simp only [Except.map, next, hrest, List.append_nil, List.nil_append]

end Cursor

end ItemStore.Store
