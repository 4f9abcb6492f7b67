import ItemStore.Proofs.AttributeValues
import ItemStore.Proofs.Base64
import ItemStore.Proofs.Cursors
import ItemStore.Proofs.PageChains
import ItemStore.Proofs.RenderedConditions

/-!
# Keys on the wire

A remote store says where a page stopped, and the next request says where to start. Main statement:
draining a new cursor over a remote table makes exchanges that follow these keys, up to the first
response that says no key or is no page (`drain_follows_keys`).

One fetch is one exchange (`Remote.outcome_fetchPage`). Between the response and the next request
the key is an item of the cursor, and a key of texts, numbers and binary values comes through that
as it was (`Attribute.itemOfJson?_itemJson_of_toItem`).
-/

namespace ItemStore

namespace Remote

open Query Store Step

namespace Attribute

/-! ## Keys as items -/

/-- A text, a number or a binary value: what keys are made of. -/
inductive IsKeyPart : Attribute → Prop where
  | text (s : String) : IsKeyPart (.text s)
  | number (digits : String) : IsKeyPart (.number digits)
  | binary (bytes : List UInt8) : IsKeyPart (.binary bytes)

namespace IsKeyPart

variable {a : Attribute}

theorem known (h : a.IsKeyPart) : Known a := by
  cases h <;> simp [Known]

theorem settled_eq (h : a.IsKeyPart) : settled a = a := by
  cases h <;> simp [settled]

/-- A part of a key is read back from its tree. -/
theorem ofJson?_toJson (h : a.IsKeyPart) : ofJson? a.toJson = some a := by
  cases h with
  | text s => simp [toJson, ofJson?, membersOfJson?, memberOfJson?, Json.string?]
  | number digits => simp [toJson, ofJson?, membersOfJson?, memberOfJson?, Json.string?]
  | binary bytes =>
    have hbytes : bytes? (.string (String.ofList (Text.Base64.encode bytes))) = some bytes := by
      rw [bytes?, Json.string?, Option.bind_some, Value.bytesOfText?_encode]
    simp [toJson, bytesJson, ofJson?, membersOfJson?, memberOfJson?, hbytes]

end IsKeyPart

/-- Such a key goes back to the wire as it came. -/
theorem entriesKnown_of_isKeyPart : ∀ {entries : List (String × Attribute)},
    (∀ e ∈ entries, e.2.IsKeyPart) → EntriesKnown entries ∧ settledEntries entries = entries
  | [], _ => by simp [EntriesKnown, settledEntries]
  | (name, a) :: entries, h => by
    obtain ⟨ha, hentries⟩ := List.forall_mem_cons.1 h
    obtain ⟨hknown, hsettled⟩ := entriesKnown_of_isKeyPart hentries
    rw [EntriesKnown, settledEntries, ha.settled_eq, hsettled]
    exact ⟨⟨ha.known, hknown⟩, rfl⟩

theorem entriesOfJson?_entriesToJson : ∀ {entries : List (String × Attribute)},
    (∀ e ∈ entries, e.2.IsKeyPart) → entriesOfJson? (entriesToJson entries) = some entries
  | [], _ => by simp [entriesToJson, entriesOfJson?]
  | (name, a) :: entries, h => by
    obtain ⟨ha, hentries⟩ := List.forall_mem_cons.1 h
    simp [entriesToJson, entriesOfJson?, ha.ofJson?_toJson,
      entriesOfJson?_entriesToJson hentries]

/-- A key that comes off the wire goes back as it was. -/
theorem itemOfJson?_itemJson_of_toItem {key : Dict Attribute} {item : Item}
    (h : ∀ e ∈ key.entries, e.2.IsKeyPart) (hitem : toItem key.entries = .ok item) :
    itemOfJson? (itemJson item) = some key.entries := by
  obtain ⟨hknown, hsettled⟩ := entriesKnown_of_isKeyPart h
  obtain ⟨item', hitem', hof⟩ := toItem_of_entriesKnown hknown
  obtain rfl := Except.ok.inj (hitem'.symm.trans hitem)
  rw [itemJson, hof, hsettled, itemOfJson?, Json.object?, Option.bind_some,
    entriesOfJson?_entriesToJson h, Option.map_some, Dict.ofList_entries]

end Attribute

/-! ## Exchanges -/

/-- What a page on the wire says: its items, and the key where it stopped, which has no entry after
the last page. A cursor keeps the key as an item. -/
structure Heard where
  items : List Item
  key : List (String × Attribute)
  resume : Item

/-- The page that a cursor gets. -/
def Heard.page (h : Heard) : Page where
  items := h.items
  resume := if h.key.isEmpty then none else some h.resume

/-- A request with the response to it. -/
structure Exchange where
  request : Request
  response : Response

namespace Exchange

/-- What the response says to a reader, if it is an answer of the shape that the request asks
for. -/
def answer {α : Type} (x : Exchange) (read? : Json → Option α) : Except Error α :=
  match x.response with
  | .fault name => .error (.store x.request.access (x.request.fault name))
  | .body j =>
    match if x.request.answer.admits j then read? j else none with
    | some a => .ok a
    | none => .error (.store x.request.access x.request.unhandled)

/-- What the response to a read says. An attribute of an unknown kind in it is an error. -/
def heard (x : Exchange) : Except Error Heard := do
  let (items, key) ← x.answer page?
  let key := key.getD []
  let items ← (items.mapM Attribute.toItem).mapError .data
  let resume ← (Attribute.toItem key).mapError .data
  return { items, key, resume }

/-- The items of a response that is a page. -/
def items (x : Exchange) : List Item :=
  match x.heard with
  | .ok page => page.items
  | .error _ => []

end Exchange

/-- The key that a request says to start after, if it says one. -/
def Request.startKey? (r : Request) : Option Json :=
  r.body.member? "ExclusiveStartKey"

theorem fst_of_mem_member {name : String} {j : Option Json} {m : String × Json}
    (h : m ∈ Request.member name j) : m.1 = name := by
  cases j with
  | none => cases h
  | some j => rw [List.mem_singleton.1 h]

/-- A read starts where it is told to. -/
theorem startKey?_read (name : String) (e : Expression) (start : Option Item) :
    (Request.read name e start).startKey? = start.map Attribute.itemJson := by
  cases start with
  | some item =>
    rw [Request.startKey?, Request.body, Json.member?, List.reverse_append]
    rfl
  | none =>
    have hother : ∀ {other : String} {j : Option Json} {m : String × Json},
        other ≠ "ExclusiveStartKey" → m ∈ Request.member other j →
          ¬(m.1 == "ExclusiveStartKey") = true := by
      intro other j m hne hm
      rw [fst_of_mem_member hm, beq_iff_eq]
      exact hne
    rw [Request.startKey?, Request.body, Json.member?, Option.map_none, Option.map_eq_none_iff,
      List.find?_eq_none]
    intro m hm
    simp only [List.mem_reverse, List.mem_append, Request.tables, List.mem_singleton] at hm
    rcases hm with (((rfl | hm) | hm) | hm | hm) | hm
    · show ¬("TableName" == "ExclusiveStartKey") = true
      decide
    · exact hother (by decide) hm
    · exact hother (by decide) hm
    · exact hother (by decide) hm
    · exact hother (by decide) hm
    · cases hm

/-! ## One fetch -/

/-- The response after the last one of a script. -/
def silence : Response :=
  .body (.object [])

/-- A call is one exchange: the request is sent, and the next response is read. -/
theorem outcome_call {α : Type} (r : Request) (read? : Json → Option α) (script : List Response)
    (sent : List Request) : outcome (call r read?) ⟨script, sent⟩ =
      (Exchange.answer ⟨r, script.headD silence⟩ read?, ⟨script.tail, r :: sent⟩) := by
  have hsend : outcome (Transport.send r) ⟨script, sent⟩ =
      (.ok (script.headD silence), ⟨script.tail, r :: sent⟩) := by
    cases script <;> rfl
  rw [call, outcome_bind, hsend, Exchange.answer]
  cases script.headD silence with
  | fault name => rfl
  | body j =>
    dsimp only
    cases if r.answer.admits j = true then read? j else none <;> rfl

/-- A fetch is one exchange, and its page is what the response says. -/
theorem outcome_fetchPage (name : String) (s : Schema) (c : Condition) (start : Option Item)
    (script : List Response) (sent : List Request) :
    let x : Exchange := ⟨.read name (c.render s) start, script.headD silence⟩
    outcome (fetchPage name s c start) ⟨script, sent⟩ =
      (x.heard.map Heard.page, ⟨script.tail, x.request :: sent⟩) := by
  intro x
  have hcall : outcome (call x.request page?) ⟨script, sent⟩ =
      (x.answer page?, ⟨script.tail, x.request :: sent⟩) :=
    outcome_call _ _ _ _
  unfold fetchPage
  simp only [query_has_keyCondition, Bool.false_eq_true, if_false]
  rw [outcome_bind, hcall, Exchange.heard]
  rcases x.answer page? with e | ⟨read, key⟩
  · rfl
  simp only [outcome_bind, converted, outcome_ofExcept]
  show _ = (((read.mapM Attribute.toItem).mapError Error.data >>= fun items =>
    ((Attribute.toItem (key.getD [])).mapError Error.data).map fun resume =>
      Heard.mk items (key.getD []) resume).map Heard.page, _)
  rcases read.mapM Attribute.toItem with e | items
  · rfl
  rcases key with _ | _ | ⟨entry, rest⟩
  · rfl
  · rfl
  · simp only [mapError_ok, outcome_bind, outcome_ofExcept, Option.getD_some]
    rcases Attribute.toItem (entry :: rest) with e | resume <;> rfl

/-- The key of a page has its attributes in order. -/
theorem exists_entries_of_page? {j : Json} {items : List (List (String × Attribute))}
    {key : Option (List (String × Attribute))} (h : page? j = some (items, key)) :
    ∃ d : Dict Attribute, key.getD [] = d.entries := by
  unfold page? at h
  simp only [bind, Option.bind_eq_some_iff, pure, Option.some.injEq, Prod.mk.injEq] at h
  obtain ⟨_, -, key', hkey, -, rfl⟩ := h
  unfold optional? at hkey
  split at hkey
  · obtain rfl := Option.some.inj hkey
    exact ⟨{}, rfl⟩
  · obtain rfl := Option.some.inj hkey
    exact ⟨{}, rfl⟩
  · obtain ⟨l, hl, rfl⟩ := Option.map_eq_some_iff.1 hkey
    obtain ⟨entries, -, rfl⟩ := Option.map_eq_some_iff.1 hl
    exact ⟨_, rfl⟩

/-- What a reader makes of an exchange, it read in the body of the response. -/
theorem Exchange.read_of_answer {α : Type} {x : Exchange} {read? : Json → Option α} {a : α}
    (h : x.answer read? = .ok a) : ∃ j, read? j = some a := by
  obtain ⟨r, response⟩ := x
  cases response with
  | fault name => cases h
  | body j =>
    simp only [Exchange.answer] at h
    split at h
    · rename_i a' ha
      obtain rfl := Except.ok.inj h
      split at ha
      · exact ⟨j, ha⟩
      · cases ha
    · cases h

/-- The entries of a key are in order, and the item is the key. -/
theorem Exchange.key_of_heard {x : Exchange} {page : Heard} (h : x.heard = .ok page) :
    ∃ d : Dict Attribute, page.key = d.entries ∧ Attribute.toItem d.entries = .ok page.resume := by
  unfold Exchange.heard at h
  rcases hanswer : x.answer page? with e | ⟨read, key⟩
  · rw [hanswer] at h
    cases h
  obtain ⟨j, hj⟩ := Exchange.read_of_answer hanswer
  obtain ⟨d, hd⟩ := exists_entries_of_page? hj
  rw [hanswer] at h
  replace h : ((read.mapM Attribute.toItem).mapError Error.data >>= fun items =>
    ((Attribute.toItem (key.getD [])).mapError Error.data).map fun resume =>
      Heard.mk items (key.getD []) resume) = .ok page := h
  rcases hitems : read.mapM Attribute.toItem with e | items
  · rw [hitems] at h
    cases h
  rcases hresume : Attribute.toItem (key.getD []) with e | resume
  · rw [hitems, hresume] at h
    cases h
  rw [hitems, hresume] at h
  obtain rfl := Except.ok.inj h
  exact ⟨d, hd, hd ▸ hresume⟩

/-! ## Following the keys -/

/-- Exchanges that read a table from a start on, and what they give together. -/
inductive ReadsFrom (name : String) (e : Expression) :
    Option Item → List Exchange → Except Error (List Item) → Prop where
  | failed {start : Option Item} {response : Response} {error : Error}
    (h : Exchange.heard ⟨.read name e start, response⟩ = .error error) :
    ReadsFrom name e start [⟨.read name e start, response⟩] (.error error)
  | last {start : Option Item} {response : Response} {page : Heard}
    (h : Exchange.heard ⟨.read name e start, response⟩ = .ok page) (hlast : page.key = []) :
    ReadsFrom name e start [⟨.read name e start, response⟩] (.ok page.items)
  | more {start : Option Item} {response : Response} {page : Heard} {xs : List Exchange}
    {result : Except Error (List Item)}
    (h : Exchange.heard ⟨.read name e start, response⟩ = .ok page) (hmore : page.key ≠ [])
    (hrest : ReadsFrom name e (some page.resume) xs result) :
    ReadsFrom name e start (⟨.read name e start, response⟩ :: xs)
      (result.map fun items => page.items ++ items)

/-- The later of two exchanges in a row starts where the page of the earlier one stopped. -/
def GoesOn (name : String) (e : Expression) (x y : Exchange) : Prop :=
  ∃ page, x.heard = .ok page ∧ page.key ≠ [] ∧ y.request = .read name e (some page.resume) ∧
    ((∀ entry ∈ page.key, entry.2.IsKeyPart) →
      ∃ j, y.request.startKey? = some j ∧ Attribute.itemOfJson? j = some page.key)

/-- Exchanges end with an error, which is what they give, or with the last page. -/
def EndsWith (xs : List Exchange) (result : Except Error (List Item)) (x : Exchange) : Prop :=
  match x.heard with
  | .error error => result = .error error
  | .ok page => page.key = [] ∧ result = .ok (xs.flatMap Exchange.items)

/-- Exchanges that read a table with one expression: from its beginning, each one from the key that
the response before it says, and no further than to the first response that says none or is no
page. -/
structure FollowsKeys (name : String) (e : Expression) (xs : List Exchange)
    (result : Except Error (List Item)) : Prop where
  reads : ∀ x ∈ xs, ∃ start, x.request = .read name e start
  first : ∃ x, xs.head? = some x ∧ x.request.startKey? = none
  next : xs.IsChain (GoesOn name e)
  stops : ∃ x, xs.getLast? = some x ∧ EndsWith xs result x

theorem Exchange.items_of_heard {x : Exchange} {page : Heard} (h : x.heard = .ok page) :
    x.items = page.items := by
  rw [Exchange.items, h]

/-- The key of a page is in the request that goes on from there. -/
theorem goesOn_of_heard {name : String} {e : Expression} {x y : Exchange} {page : Heard}
    (h : x.heard = .ok page) (hmore : page.key ≠ [])
    (hy : y.request = .read name e (some page.resume)) : GoesOn name e x y := by
  refine ⟨page, h, hmore, hy, fun hparts => ?_⟩
  obtain ⟨d, hd, hresume⟩ := Exchange.key_of_heard h
  rw [hd] at hparts ⊢
  refine ⟨Attribute.itemJson page.resume, ?_,
    Attribute.itemOfJson?_itemJson_of_toItem hparts hresume⟩
  rw [hy, startKey?_read, Option.map_some]

namespace ReadsFrom

variable {name : String} {e : Expression} {start : Option Item} {xs : List Exchange}
  {result : Except Error (List Item)}

/-- A drain makes at least one exchange, and the first one starts where it should. -/
theorem exists_head (h : ReadsFrom name e start xs result) :
    ∃ x, xs.head? = some x ∧ x.request = .read name e start := by
  cases h <;> exact ⟨_, rfl, rfl⟩

/-- All exchanges of a drain are reads of one expression. -/
theorem reads (h : ReadsFrom name e start xs result) :
    ∀ x ∈ xs, ∃ start, x.request = .read name e start := by
  induction h with
  | failed _ | last _ _ => exact List.forall_mem_singleton.2 ⟨_, rfl⟩
  | more _ _ _ ih => exact List.forall_mem_cons.2 ⟨⟨_, rfl⟩, ih⟩

/-- Each exchange starts at the key that the one before it named. -/
theorem next (h : ReadsFrom name e start xs result) : xs.IsChain (GoesOn name e) := by
  induction h with
  | failed _ | last _ _ => exact .singleton _
  | more h hmore hrest ih =>
    refine ih.cons fun y hy => ?_
    obtain ⟨_, hhead, hrequest⟩ := hrest.exists_head
    obtain rfl := Option.some.inj (hhead.symm.trans hy)
    exact goesOn_of_heard h hmore hrequest

/-- A drain ends with the exchange that says so. -/
theorem stops (h : ReadsFrom name e start xs result) :
    ∃ x, xs.getLast? = some x ∧ EndsWith xs result x := by
  induction h with
  | failed h => exact ⟨_, List.getLast?_singleton, by rw [EndsWith, h]⟩
  | last h hlast =>
    refine ⟨_, List.getLast?_singleton, ?_⟩
    rw [EndsWith, h]
    exact ⟨hlast, by rw [List.flatMap_singleton, Exchange.items_of_heard h]⟩
  | more h _ hrest ih =>
    obtain ⟨x, hx, hends⟩ := ih
    refine ⟨x, by rw [List.getLast?_cons, hx, Option.getD_some], ?_⟩
    rw [EndsWith] at hends ⊢
    cases hheard : x.heard with
    | error error =>
      rw [hheard] at hends
      rw [hends]
      rfl
    | ok page =>
      rw [hheard] at hends
      rw [hends.2]
      exact ⟨hends.1, by rw [List.flatMap_cons, Exchange.items_of_heard h]; rfl⟩

/-- A drain from the start follows the keys of its responses. -/
theorem followsKeys (h : ReadsFrom name e none xs result) : FollowsKeys name e xs result := by
  obtain ⟨x, hx, hrequest⟩ := h.exists_head
  exact ⟨h.reads, ⟨x, hx, by rw [hrequest, startKey?_read, Option.map_none]⟩, h.next, h.stops⟩

end ReadsFrom

theorem heard_silence (name : String) (e : Expression) (start : Option Item) :
    Exchange.heard ⟨.read name e start, silence⟩ = .ok ⟨[], [], {}⟩ :=
  rfl

section Draining

variable {t : Table Transport} {name : String} {s : Schema} {c : Condition} {cursor : Cursor}
  {limit : Nat}

/-- A drain makes an exchange, and goes on if its page names a key. -/
theorem outcome_drainPages (ht : t.fetch = fetchPage name s) (hcondition : cursor.condition = c)
    (hcomplete : cursor.complete = false) (script : List Response) (sent : List Request) :
    let x : Exchange := ⟨.read name (c.render s) cursor.resume, script.headD silence⟩
    let next : Transport := ⟨script.drop 1, x.request :: sent⟩
    outcome (Cursor.drainPages t (limit + 1)) (⟨script, sent⟩, cursor) =
      match x.heard with
      | .ok page =>
        let rest :=
          outcome (Cursor.drainPages t limit) (next, Cursor.afterPage page.page cursor.spent)
        (rest.1.map fun items => page.items ++ items, rest.2)
      | .error error => (.error error, next, cursor.spent) := by
  intro x next
  have hfetch : outcome (t.fetch cursor.condition cursor.resume) ⟨script, sent⟩ =
      (x.heard.map Heard.page, next) := by
    rw [ht, hcondition, outcome_fetchPage, ← List.drop_one]
  rw [Cursor.outcome_drainPages t limit _ hcomplete, hfetch]
  cases x.heard <;> rfl

/-- From its start on, a cursor takes responses off the script until it has read to the end. -/
theorem drainPages_readsFrom (ht : t.fetch = fetchPage name s) (hcondition : cursor.condition = c)
    (hcomplete : cursor.complete = false) (script : List Response) (sent : List Request)
    (hlimit : script.length + 1 < limit) :
    ∃ xs result cursor', outcome (Cursor.drainPages t limit) (⟨script, sent⟩, cursor) =
        (result, ⟨script.drop xs.length, (xs.map Exchange.request).reverse ++ sent⟩, cursor') ∧
      xs.map Exchange.response = (script ++ [silence]).take xs.length ∧
      ReadsFrom name (c.render s) cursor.resume xs result := by
  induction limit generalizing script sent cursor with
  | zero => exact absurd hlimit (Nat.not_lt_zero _)
  | succ limit ih =>
    rw [outcome_drainPages ht hcondition hcomplete]
    generalize hx : Exchange.mk (.read name (c.render s) cursor.resume) (script.headD silence) = x
    have hfirst : [x.response] = (script ++ [silence]).take 1 := by
      rw [← hx]
      cases script <;> rfl
    cases hheard : x.heard with
    | error error =>
      refine ⟨[x], _, cursor.spent, rfl, hfirst, ?_⟩
      subst hx
      exact .failed hheard
    | ok page =>
      by_cases hlast : page.key = []
      · have hcomplete : (Cursor.afterPage page.page cursor.spent).complete = true := by
          rw [Heard.page, hlast]
          rfl
        obtain ⟨limit, rfl⟩ : ∃ n, limit = n + 1 := ⟨limit - 1, by omega⟩
        refine ⟨[x], .ok page.items, Cursor.afterPage page.page cursor.spent, ?_, hfirst, ?_⟩
        · simp only [Cursor.outcome_drainPages_of_complete t limit _ hcomplete, Except.map,
            List.append_nil]
          rfl
        · subst hx
          exact .last hheard hlast
      · have hpage : page.page = ⟨page.items, some page.resume⟩ := by
          rw [Heard.page, if_neg (by simpa using hlast)]
        cases script with
        | nil =>
          -- The script does not end before the pages do.
          rw [← hx, List.headD_nil, heard_silence] at hheard
          exact absurd (congrArg Heard.key (Except.ok.inj hheard)).symm hlast
        | cons response rest =>
          have hcondition' : (Cursor.afterPage page.page cursor.spent).condition = c := hcondition
          have hmore : (Cursor.afterPage page.page cursor.spent).complete = false := by
            rw [hpage]
            rfl
          obtain ⟨xs, result, cursor', hdrain, hresponses, hreads⟩ :=
            ih hcondition' hmore rest (x.request :: sent) (Nat.lt_of_succ_lt_succ hlimit)
          refine ⟨x :: xs, result.map fun items => page.items ++ items, cursor', ?_, ?_, ?_⟩
          · simp only [List.drop_succ_cons, List.drop_zero, hdrain, List.length_cons, List.map_cons,
              List.reverse_cons, List.append_assoc, List.singleton_append]
          · rw [List.map_cons, hresponses, ← hx]
            rfl
          · rw [hpage] at hreads
            subst hx
            exact .more hheard hlast hreads

end Draining

/-- Draining a new cursor over a remote table reads on from the key that each response says, and
takes no more responses off the script than that. It scans the table, or queries it if the condition
has a key. -/
theorem drain_follows_keys {tablePrefix : String} {s : Schema} {t : Table Transport}
    (ht : (backend tablePrefix).table s = .ok t) (c : Condition) (script : List Response)
    (sent : List Request) {limit : Nat} (hlimit : script.length + 1 < limit) :
    ∃ xs result cursor,
      outcome (Cursor.drain t limit) (⟨script, sent⟩, { condition := c }) =
        (result, ⟨script.drop xs.length, (xs.map Exchange.request).reverse ++ sent⟩, cursor) ∧
      xs.map Exchange.response = (script ++ [silence]).take xs.length ∧
      (∀ x ∈ xs, x.request.target = match c.operation with
        | .query => "Query"
        | .scan => "Scan") ∧
      FollowsKeys (tablePrefix ++ s.table) (c.render s) xs result := by
  have hfetch : t.fetch = fetchPage (tablePrefix ++ s.table) s := by
    rw [← Except.ok.inj ht]
  have hnew : Cursor.condition { condition := c } = c := rfl
  obtain ⟨xs, result, cursor, hdrain, hresponses, hreads⟩ :=
    drainPages_readsFrom hfetch hnew rfl script sent hlimit
  refine ⟨xs, result, cursor, ?_, hresponses, fun x hx => ?_, hreads.followsKeys⟩
  · rw [Cursor.outcome_drain]
    simp only [hdrain]
    cases result <;> rfl
  · obtain ⟨start, hrequest⟩ := hreads.reads x hx
    rw [hrequest]
    rfl

end Remote

/-! ## Tags on three pages -/

namespace Sample

open Query Store Remote

/-- A prefixed table of tags whose pages include an empty one. -/
theorem drain_follows_keys_tags :
    ∃ t, (backend "dev-").table tags = .ok t ∧ paged.responses.length + 1 < 5 ∧
      ∃ xs result cursor,
        (Step.outcome (Cursor.drain t 5) (paged, { condition := .everything })).2 =
          (⟨paged.responses.drop xs.length, (xs.map Exchange.request).reverse⟩, cursor) ∧
        FollowsKeys ("dev-" ++ tags.table) (Condition.everything.render tags) xs result ∧
        result = .ok [tag "a", tag "c", tag "d"] := by
  obtain ⟨t, ht⟩ : ∃ t, (backend "dev-").table tags = .ok t := ⟨_, rfl⟩
  have hlimit : paged.responses.length + 1 < 5 := by decide
  obtain ⟨xs, result, cursor, hdrain, -, -, hfollows⟩ :=
    drain_follows_keys ht .everything paged.responses [] hlimit
  have hresult : (Step.outcome (Cursor.drain t 5) (paged, { condition := .everything })).1 =
      .ok [tag "a", tag "c", tag "d"] := by
    cases ht
    rfl
  refine ⟨t, ht, hlimit, xs, result, cursor, ?_, hfollows, ?_⟩
  · rw [← List.append_nil (xs.map Exchange.request).reverse]
    exact congrArg Prod.snd hdrain
  · rw [← hresult]
    exact (congrArg Prod.fst hdrain).symm

end Sample

end ItemStore
