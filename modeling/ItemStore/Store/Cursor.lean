import ItemStore.Store.Table

/-!
# Cursors

A cursor follows the pages of one condition. It fetches nothing until it is asked, keeps the items
of a page that were not taken yet, and stops at the page that names no next one. The key to resume
from is spent by the fetch that uses it, so after a failed fetch the next one starts over.

Following pages to the end is a loop that a store could keep from ending. So a call says how many
pages it may try to fetch, and past that limit it fails. Any limit above the number of pages that
are left gives one and the same result.
-/

namespace ItemStore.Store

open Query

/-- How far the pages of a condition were followed. -/
structure Cursor where
  condition : Condition
  resume : Option Item := none
  /-- Whether the last page was fetched. -/
  complete : Bool := false
  /-- Items that were fetched and not taken. -/
  buffer : List Item := []
  /-- How many pages were fetched. -/
  pages : Nat := 0

/-- A step of a store and a cursor over one of its tables. -/
abbrev CursorStep (σ : Type) := ExceptT Error (StateM (σ × Cursor))

namespace Cursor

variable {σ : Type}

/-- Whether there is nothing left to take. -/
def isExhausted (c : Cursor) : Bool := c.complete && c.buffer.isEmpty

/-- A step of the store alone. -/
def onStore {α : Type} (step : Step σ α) : CursorStep σ α := fun (store, cursor) =>
  let (result, store) := step.run.run store
  (result, (store, cursor))

/-- The cursor's state. -/
def current : CursorStep σ Cursor := return (← get).2

/-- Changes the cursor's state. -/
def change (f : Cursor → Cursor) : CursorStep σ Unit := modify fun s => (s.1, f s.2)

/-- The cursor after a page. -/
def afterPage (page : Page) (c : Cursor) : Cursor :=
  { c with pages := c.pages + 1, resume := page.resume, complete := page.resume.isNone }

/-- Fetches the next page and gives its items, or nothing after the last page. -/
def nextPage (t : Table σ) : CursorStep σ (Option (List Item)) := do
  let c ← current
  if c.complete then return none
  change fun c => { c with resume := none }
  let page ← onStore (t.fetch c.condition c.resume)
  change (afterPage page)
  return some page.items

/-- The next item, or nothing after the last one. -/
def nextItem (t : Table σ) : (limit : Nat) → CursorStep σ (Option Item)
  | 0 => throw (.store .read .tooManyPages)
  | limit + 1 => do
    match (← current).buffer with
    | item :: rest =>
      change fun c => { c with buffer := rest }
      return some item
    | [] =>
      match ← nextPage t with
      | some items =>
        change fun c => { c with buffer := items }
        nextItem t limit
      | none => return none

/-- The items of all pages that are left. -/
def drainPages (t : Table σ) : (limit : Nat) → CursorStep σ (List Item)
  | 0 => throw (.store .read .tooManyPages)
  | limit + 1 => do
    match ← nextPage t with
    | some items => return items ++ (← drainPages t limit)
    | none => return []

/-- Every item that is left, those of the buffer first. -/
def drain (t : Table σ) (limit : Nat) : CursorStep σ (List Item) := do
  let taken := (← current).buffer
  change fun c => { c with buffer := [] }
  return taken ++ (← drainPages t limit)

/-- Runs a new cursor to a result. -/
def runNew {α : Type} (c : Condition) (step : CursorStep σ α) : Step σ α := fun store =>
  let (result, (store, _)) := step.run.run (store, { condition := c })
  (result, store)

end Cursor

end ItemStore.Store
