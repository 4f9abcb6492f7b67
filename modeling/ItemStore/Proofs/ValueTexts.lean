import ItemStore.Proofs.Base64
import ItemStore.Proofs.Dictionaries
import ItemStore.Proofs.JsonTexts

/-!
# Values through their texts

Main statement: a value reads from its text as it was, if it is not nested deeper than texts are
read, and a text that says a value may be replaced by the value's own text
(`Value.texts_there_and_back`).

A value's tree has no numbers, since numbers are written as strings, and is read as the value
(`ofJson?_toJson`). What any tree says is a value whose maps are in order and whose own tree is no
deeper (`ofJson?_spec`). It may be less deep, as where a null is written as an object or a map has a
name twice.
-/

namespace ItemStore

namespace Value

open Json (NumberFree AllNumberFree MembersNumberFree depth depthOfElements depthOfMembers)

/-! ## Trees of values -/

mutual

/-- The numbers of values are written as strings. -/
theorem numberFree_toJson : ∀ v : Value, NumberFree (toJson v)
  | null | bool _ | text _ | number _ | binary _ => by
    simp [toJson, NumberFree, MembersNumberFree]
  | list values => by
    simp only [toJson, NumberFree, MembersNumberFree, and_true]
    exact allNumberFree_valuesToJson values
  | map entries => by
    simp only [toJson, NumberFree, MembersNumberFree, and_true]
    exact membersNumberFree_entriesToJson entries

theorem allNumberFree_valuesToJson : ∀ values : List Value, AllNumberFree (valuesToJson values)
  | [] => by simp [valuesToJson, AllNumberFree]
  | v :: rest => by
    rw [valuesToJson, AllNumberFree]
    exact ⟨numberFree_toJson v, allNumberFree_valuesToJson rest⟩

theorem membersNumberFree_entriesToJson :
    ∀ entries : List (String × Value), MembersNumberFree (entriesToJson entries)
  | [] => by simp [entriesToJson, MembersNumberFree]
  | (_, v) :: rest => by
    rw [entriesToJson, MembersNumberFree]
    exact ⟨numberFree_toJson v, membersNumberFree_entriesToJson rest⟩

end

mutual

/-- An ordered value is read back from its tree. -/
theorem ofJson?_toJson : ∀ {v : Value}, v.Ordered → ofJson? (toJson v) = some v
  | null, _ => by simp [toJson, ofJson?]
  | bool _, _ | text _, _ | number _, _ => by simp [toJson, ofJson?, ofMember?]
  | binary bytes, _ => by
    simp [toJson, ofJson?, ofMember?, bytesOfText?_encode]
  | list values, h => by
    have hvalues := valuesOfJson?_valuesToJson (by simpa only [Ordered] using h)
    rw [toJson, ofJson?, ofMember?, if_pos rfl, hvalues, Option.map_some]
  | map entries, h => by
    obtain ⟨hordered, hentries⟩ :
        entries.Pairwise (fun a b => a.1 < b.1) ∧ OrderedEntries entries := by
      simpa only [Ordered] using h
    rw [toJson, ofJson?, ofMember?, if_pos rfl, entriesOfJson?_entriesToJson hentries,
      Option.map_some, ofDict, Dict.ofList_entries ⟨entries, hordered⟩]

theorem valuesOfJson?_valuesToJson : ∀ {values : List Value}, OrderedValues values →
    valuesOfJson? (valuesToJson values) = some values
  | [], _ => by simp [valuesToJson, valuesOfJson?]
  | v :: rest, h => by
    obtain ⟨hv, hrest⟩ : v.Ordered ∧ OrderedValues rest := by simpa only [OrderedValues] using h
    rw [valuesToJson, valuesOfJson?, ofJson?_toJson hv, valuesOfJson?_valuesToJson hrest]
    rfl

theorem entriesOfJson?_entriesToJson : ∀ {entries : List (String × Value)},
    OrderedEntries entries → entriesOfJson? (entriesToJson entries) = some entries
  | [], _ => by simp [entriesToJson, entriesOfJson?]
  | (name, v) :: rest, h => by
    obtain ⟨hv, hrest⟩ : v.Ordered ∧ OrderedEntries rest := by simpa only [OrderedEntries] using h
    rw [entriesToJson, entriesOfJson?, ofJson?_toJson hv, entriesOfJson?_entriesToJson hrest]
    rfl

end

/-! ## What is read -/

theorem orderedEntries_iff : ∀ {entries : List (String × Value)},
    OrderedEntries entries ↔ ∀ e ∈ entries, Ordered e.2
  | [] => by simp [OrderedEntries]
  | (_, v) :: rest => by rw [OrderedEntries, orderedEntries_iff, List.forall_mem_cons]

theorem depthOfMembers_entriesToJson_le_iff {n : Nat} : ∀ {entries : List (String × Value)},
    depthOfMembers (entriesToJson entries) ≤ n ↔ ∀ e ∈ entries, (toJson e.2).depth ≤ n
  | [] => by simp [entriesToJson, depthOfMembers]
  | (_, v) :: rest => by
    rw [entriesToJson, depthOfMembers, Nat.max_le, depthOfMembers_entriesToJson_le_iff,
      List.forall_mem_cons]

/-- Collecting entries orders them and leaves none that was not there. -/
theorem ofDict_ofList_spec {entries : List (String × Value)} {n : Nat}
    (hordered : OrderedEntries entries) (hdepth : depthOfMembers (entriesToJson entries) ≤ n) :
    (ofDict (Dict.ofList entries)).Ordered ∧
      (toJson (ofDict (Dict.ofList entries))).depth ≤ n + 2 := by
  rw [orderedEntries_iff] at hordered
  rw [depthOfMembers_entriesToJson_le_iff] at hdepth
  have hdepth' : depthOfMembers (entriesToJson (Dict.ofList entries).entries) ≤ n :=
    depthOfMembers_entriesToJson_le_iff.2 fun e he => hdepth e (Dict.mem_of_mem_ofList he)
  rw [ofDict, Ordered]
  refine ⟨⟨(Dict.ofList entries).ordered, ?_⟩, ?_⟩
  · exact orderedEntries_iff.2 fun e he => hordered e (Dict.mem_of_mem_ofList he)
  · simpa [toJson, depth, depthOfMembers] using hdepth'

mutual

/-- A value that a tree says is ordered and not deeper than the tree. -/
theorem ofJson?_spec : ∀ {j : Json} {v : Value}, ofJson? j = some v →
    v.Ordered ∧ (toJson v).depth ≤ j.depth
  | .string s, v, h => by
    simp only [ofJson?, Option.ite_none_right_eq_some, Option.some.injEq] at h
    obtain ⟨-, rfl⟩ := h
    simp [Ordered, toJson, depth]
  | .object [(kind, content)], v, h => by
    obtain ⟨hordered, hdepth⟩ := ofMember?_spec (by simpa only [ofJson?] using h)
    exact ⟨hordered, by simpa [depth, depthOfMembers] using hdepth⟩
  | .null, v, h | .bool _, v, h | .number _, v, h | .array _, v, h | .object [], v, h
  | .object (_ :: _ :: _), v, h => by simp [ofJson?] at h

/-- What is read from a member is ordered, and writing it again is at most as deep as the member. -/
theorem ofMember?_spec : ∀ {kind : String} {j : Json} {v : Value}, ofMember? kind j = some v →
    v.Ordered ∧ (toJson v).depth ≤ j.depth + 1
  | kind, .null, v, h => by
    simp only [ofMember?, Option.ite_none_right_eq_some, Option.some.injEq] at h
    obtain ⟨-, rfl⟩ := h
    simp [Ordered, toJson, depth]
  | kind, .bool b, v, h => by
    simp only [ofMember?, Option.ite_none_right_eq_some, Option.some.injEq] at h
    obtain ⟨-, rfl⟩ := h
    simp [Ordered, toJson, depth, depthOfMembers]
  | kind, .string s, v, h => by
    rw [ofMember?] at h
    split at h
    · obtain rfl := Option.some.inj h
      simp [Ordered, toJson, depth, depthOfMembers]
    split at h
    · obtain rfl := Option.some.inj h
      simp [Ordered, toJson, depth, depthOfMembers]
    split at h
    · obtain ⟨bytes, -, rfl⟩ := Option.map_eq_some_iff.1 h
      simp [Ordered, toJson, depth, depthOfMembers]
    · exact nomatch h
  | kind, .number _, v, h => by simp [ofMember?] at h
  | kind, .array elements, v, h => by
    simp only [ofMember?, Option.ite_none_right_eq_some, Option.map_eq_some_iff] at h
    obtain ⟨-, values, hvalues, rfl⟩ := h
    obtain ⟨hordered, hdepth⟩ := valuesOfJson?_spec hvalues
    rw [Ordered]
    exact ⟨hordered, by simpa [toJson, depth, depthOfMembers] using hdepth⟩
  | kind, .object members, v, h => by
    simp only [ofMember?, Option.ite_none_right_eq_some, Option.map_eq_some_iff] at h
    obtain ⟨-, entries, hentries, rfl⟩ := h
    obtain ⟨hordered, hdepth⟩ := entriesOfJson?_spec hentries
    rw [depth]
    exact ofDict_ofList_spec hordered hdepth

theorem valuesOfJson?_spec : ∀ {elements : List Json} {values : List Value},
    valuesOfJson? elements = some values →
    OrderedValues values ∧ depthOfElements (valuesToJson values) ≤ depthOfElements elements
  | [], values, h => by
    obtain rfl : [] = values := by simpa [valuesOfJson?] using h
    simp [OrderedValues, valuesToJson, depthOfElements]
  | j :: rest, values, h => by
    simp only [valuesOfJson?, Option.bind_eq_some_iff, Option.map_eq_some_iff] at h
    obtain ⟨v, hv, values, hvalues, rfl⟩ := h
    obtain ⟨hordered, hdepth⟩ := ofJson?_spec hv
    obtain ⟨hordereds, hdepths⟩ := valuesOfJson?_spec hvalues
    rw [OrderedValues, valuesToJson, depthOfElements, depthOfElements]
    exact ⟨⟨hordered, hordereds⟩, by omega⟩

theorem entriesOfJson?_spec : ∀ {members : List (String × Json)}
    {entries : List (String × Value)}, entriesOfJson? members = some entries →
    OrderedEntries entries ∧ depthOfMembers (entriesToJson entries) ≤ depthOfMembers members
  | [], entries, h => by
    obtain rfl : [] = entries := by simpa [entriesOfJson?] using h
    simp [OrderedEntries, entriesToJson, depthOfMembers]
  | (name, j) :: rest, entries, h => by
    simp only [entriesOfJson?, Option.bind_eq_some_iff, Option.map_eq_some_iff] at h
    obtain ⟨v, hv, entries, hentries, rfl⟩ := h
    obtain ⟨hordered, hdepth⟩ := ofJson?_spec hv
    obtain ⟨hordereds, hdepths⟩ := entriesOfJson?_spec hentries
    rw [OrderedEntries, entriesToJson, depthOfMembers, depthOfMembers]
    exact ⟨⟨hordered, hordereds⟩, by omega⟩

end

/-! ## Texts of values -/

/-- An ordered value that is not too deep is read back from its text. -/
theorem read?_compact {v : Value} (hv : v.Ordered)
    (hdepth : (toJson v).depth ≤ Json.ReaderState.maxDepth) :
    read? (toJson v).compact = some v := by
  rw [read?, Json.read?_compact (numberFree_toJson v) hdepth, Option.bind_some, ofJson?_toJson hv]

/-- A value that was read is ordered and not too deep to be read again. -/
theorem read?_spec {text : String} {v : Value} (h : read? text = some v) :
    v.Ordered ∧ (toJson v).depth ≤ Json.ReaderState.maxDepth := by
  obtain ⟨j, hj, hv⟩ := Option.bind_eq_some_iff.1 h
  obtain ⟨hordered, hdepth⟩ := ofJson?_spec hv
  exact ⟨hordered, Nat.le_trans hdepth (Json.depth_le_of_read? hj)⟩

/-- A value reads from its own text as it was, unless it is nested deeper than texts are read. So no
two values that can be read have one text. Any text that says a value, however it is laid out, can
be replaced by that value's own text. -/
theorem texts_there_and_back :
    (∀ v : Value, v.Ordered → (read? (toJson v).compact = some v ↔
      (toJson v).depth ≤ Json.ReaderState.maxDepth)) ∧
    (∀ v w : Value, v.Ordered → w.Ordered → (toJson v).depth ≤ Json.ReaderState.maxDepth →
      (toJson w).depth ≤ Json.ReaderState.maxDepth → (toJson v).compact = (toJson w).compact →
      v = w) ∧
    ∀ text v, read? text = some v → v.Ordered ∧ read? (toJson v).compact = some v := by
  refine ⟨fun v hv => ⟨fun h => (read?_spec h).2, read?_compact hv⟩, ?_, ?_⟩
  · intro v w hv hw hdepth hdepth' htext
    have h := read?_compact hv hdepth
    rw [htext, read?_compact hw hdepth'] at h
    exact (Option.some.inj h).symm
  · intro text v h
    obtain ⟨hordered, hdepth⟩ := read?_spec h
    exact ⟨hordered, read?_compact hordered hdepth⟩

end Value

namespace Sample

/-- A value with every kind in it, and every kind of character in its texts. -/
def parcel : Value :=
  .map [("", .list [.null, .bool true, .list [], .map [], .text "\"a\\\n\x01é😀"]),
    ("raw", .list [.binary [], .binary [104], .binary [104, 105], .binary [104, 105, 33]]),
    ("weight", .number "1.50")]

/-- A text with blanks, a null as an object, and a name written twice. -/
def looseText : String :=
  " \x7b\"M\" : \x7b\"b\":\x7b\"NULL\": null\x7d, \"a\":\x7b\"S\":\"\\u00e9\"\x7d,\n" ++
    "\"b\":\x7b\"B\":\"aGk=\"\x7d\x7d\x7d "

/-- A parcel of all kinds, a number and a text that look alike, and a text with blanks and entries
out of order. -/
theorem texts_there_and_back_parcel :
    (parcel.Ordered ∧ parcel.toJson.depth = 6 ∧ Value.read? parcel.toJson.compact = some parcel) ∧
      (Value.toJson (.number "1.50")).compact ≠ (Value.toJson (.text "1.50")).compact ∧
      ∃ v, v = .map [("a", .text "é"), ("b", .binary [104, 105])] ∧
        Value.read? looseText = some v ∧ Value.read? v.toJson.compact = some v := by
  obtain ⟨hreads, hinj, hkeeps⟩ := Value.texts_there_and_back
  have hordered : parcel.Ordered := by
    simp only [parcel, Value.Ordered, Value.OrderedEntries, Value.OrderedValues, and_true]
    decide +kernel
  have hdepth : parcel.toJson.depth = 6 := by decide +kernel
  have hloose : Value.read? looseText =
      some (.map [("a", .text "é"), ("b", .binary [104, 105])]) := by
    decide +kernel
  refine ⟨⟨hordered, hdepth, (hreads parcel hordered).2 ?_⟩, fun htext => ?_, _, rfl, hloose,
    (hkeeps _ _ hloose).2⟩
  · rw [hdepth]
    decide
  · have heq := hinj (.number "1.50") (.text "1.50") (by simp [Value.Ordered])
      (by simp [Value.Ordered]) (by decide +kernel) (by decide +kernel) htext
    exact nomatch heq

end Sample

end ItemStore
