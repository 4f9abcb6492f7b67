import ItemStore.Proofs.Dictionaries
import ItemStore.Remote.Attribute

/-!
# Attributes and values

An item that goes to the wire comes back as it was. The other way there are more kinds of attributes
than of values. Main statement: a map on the wire is an item unless an attribute of an unknown kind
stands in it, however deep, and the item goes back with every set as a list and every null as the
one null; from then on nothing changes any more (`Attribute.toItem_there_and_back`).
-/

namespace ItemStore

namespace Remote.Attribute

/-! ## Kinds that come back -/

mutual

/-- No attribute of an unknown kind stands in it. -/
def Known : Attribute → Prop
  | list elements => AllKnown elements
  | map entries => EntriesKnown entries
  | unknown => False
  | _ => True

/-- No element of a list has an unknown kind in it. -/
def AllKnown : List Attribute → Prop
  | [] => True
  | a :: rest => Known a ∧ AllKnown rest

/-- No entry of a map has an unknown kind in it. -/
def EntriesKnown : List (String × Attribute) → Prop
  | [] => True
  | (_, a) :: rest => Known a ∧ EntriesKnown rest

end

mutual

/-- The attribute as it goes back to the wire: sets are lists, and there is one null. -/
def settled : Attribute → Attribute
  | null _ => null true
  | list elements => list (settledAll elements)
  | map entries => map (settledEntries entries)
  | textSet elements => list (elements.map text)
  | numberSet elements => list (elements.map number)
  | binarySet elements => list (elements.map binary)
  | a => a

/-- The elements of a list as they go back. -/
def settledAll : List Attribute → List Attribute
  | [] => []
  | a :: rest => settled a :: settledAll rest

/-- The entries of a map as they go back. -/
def settledEntries : List (String × Attribute) → List (String × Attribute)
  | [] => []
  | (name, a) :: rest => (name, settled a) :: settledEntries rest

end

/-! ## From values and back -/

mutual

/-- A value that goes to the wire comes back as it was. -/
theorem toValue_ofValue : ∀ v : Value, toValue (ofValue v) = .ok v
  | .null | .bool _ | .text _ | .number _ | .binary _ => by simp [ofValue, toValue]
  | .list values => by
    rw [ofValue, toValue, toValues_ofValues values]
    rfl
  | .map entries => by
    rw [ofValue, toValue, toEntries_ofEntries entries]
    rfl

theorem toValues_ofValues : ∀ values : List Value, toValues (ofValues values) = .ok values
  | [] => by simp [ofValues, toValues]
  | v :: rest => by
    rw [ofValues, toValues, toValue_ofValue v, toValues_ofValues rest]
    rfl

theorem toEntries_ofEntries :
    ∀ entries : List (String × Value), toEntries (ofEntries entries) = .ok entries
  | [] => by simp [ofEntries, toEntries]
  | (name, v) :: rest => by
    rw [ofEntries, toEntries, toValue_ofValue v, toEntries_ofEntries rest]
    rfl

end

theorem toItem_ofItem (item : Item) : toItem (ofItem item) = .ok item := by
  rw [toItem, ofItem, toEntries_ofEntries]
  exact congrArg Except.ok (Dict.ofList_entries item)

/-! ## From attributes and back -/

/-- Scalars of one kind go back as the list that they were read as. -/
theorem ofValues_map {α : Type} {f : α → Value} {g : α → Attribute}
    (h : ∀ x, ofValue (f x) = g x) (elements : List α) :
    ofValues (elements.map f) = elements.map g := by
  induction elements with
  | nil => simp [ofValues]
  | cons x rest ih => rw [List.map_cons, ofValues, h, ih, List.map_cons]

mutual

/-- An attribute of known kinds comes back as a value, which goes to the wire as the settled
attribute. -/
theorem toValue_of_known : ∀ {a : Attribute}, Known a →
    ∃ v, toValue a = .ok v ∧ ofValue v = settled a
  | null _, _ => ⟨.null, by simp [toValue, ofValue, settled]⟩
  | bool b, _ => ⟨.bool b, by simp [toValue, ofValue, settled]⟩
  | text s, _ => ⟨.text s, by simp [toValue, ofValue, settled]⟩
  | number digits, _ => ⟨.number digits, by simp [toValue, ofValue, settled]⟩
  | binary bytes, _ => ⟨.binary bytes, by simp [toValue, ofValue, settled]⟩
  | list elements, h => by
    obtain ⟨values, hvalues, hof⟩ := toValues_of_allKnown (by simpa only [Known] using h)
    refine ⟨.list values, ?_, by rw [ofValue, hof, settled]⟩
    rw [toValue, hvalues]
    rfl
  | map entries, h => by
    obtain ⟨values, hvalues, hof⟩ := toEntries_of_entriesKnown (by simpa only [Known] using h)
    refine ⟨.map values, ?_, by rw [ofValue, hof, settled]⟩
    rw [toValue, hvalues]
    rfl
  | textSet elements, _ => by
    refine ⟨.list (elements.map .text), by rw [toValue], ?_⟩
    rw [ofValue, ofValues_map (g := text) (fun s => by rw [ofValue]), settled]
  | numberSet elements, _ => by
    refine ⟨.list (elements.map .number), by rw [toValue], ?_⟩
    rw [ofValue, ofValues_map (g := number) (fun s => by rw [ofValue]), settled]
  | binarySet elements, _ => by
    refine ⟨.list (elements.map .binary), by rw [toValue], ?_⟩
    rw [ofValue, ofValues_map (g := binary) (fun s => by rw [ofValue]), settled]
  | unknown, h => by simp [Known] at h

theorem toValues_of_allKnown : ∀ {elements : List Attribute}, AllKnown elements →
    ∃ values, toValues elements = .ok values ∧ ofValues values = settledAll elements
  | [], _ => ⟨[], by simp [toValues, ofValues, settledAll]⟩
  | a :: rest, h => by
    obtain ⟨ha, hrest⟩ : Known a ∧ AllKnown rest := by simpa only [AllKnown] using h
    obtain ⟨v, hv, hof⟩ := toValue_of_known ha
    obtain ⟨values, hvalues, hofs⟩ := toValues_of_allKnown hrest
    refine ⟨v :: values, ?_, by rw [ofValues, hof, hofs, settledAll]⟩
    rw [toValues, hv, hvalues]
    rfl

theorem toEntries_of_entriesKnown : ∀ {entries : List (String × Attribute)},
    EntriesKnown entries →
      ∃ values, toEntries entries = .ok values ∧ ofEntries values = settledEntries entries
  | [], _ => ⟨[], by simp [toEntries, ofEntries, settledEntries]⟩
  | (name, a) :: rest, h => by
    obtain ⟨ha, hrest⟩ : Known a ∧ EntriesKnown rest := by simpa only [EntriesKnown] using h
    obtain ⟨v, hv, hof⟩ := toValue_of_known ha
    obtain ⟨values, hvalues, hofs⟩ := toEntries_of_entriesKnown hrest
    refine ⟨(name, v) :: values, ?_, by rw [ofEntries, hof, hofs, settledEntries]⟩
    rw [toEntries, hv, hvalues]
    rfl

end

mutual

/-- An unknown kind anywhere in an attribute makes it no value. -/
theorem toValue_of_not_known : ∀ {a : Attribute}, ¬Known a →
    toValue a = .error .unknownAttribute
  | list elements, h => by
    rw [toValue, toValues_of_not_allKnown (by simpa only [Known] using h)]
    rfl
  | map entries, h => by
    rw [toValue, toEntries_of_not_entriesKnown (by simpa only [Known] using h)]
    rfl
  | unknown, _ => by rw [toValue]
  | null _, h | bool _, h | text _, h | number _, h | binary _, h | textSet _, h
  | numberSet _, h | binarySet _, h => by simp [Known] at h

theorem toValues_of_not_allKnown : ∀ {elements : List Attribute}, ¬AllKnown elements →
    toValues elements = .error .unknownAttribute
  | [], h => by simp [AllKnown] at h
  | a :: rest, h => by
    by_cases ha : Known a
    · obtain ⟨v, hv, -⟩ := toValue_of_known ha
      have hrest : ¬AllKnown rest := fun hrest => h (by simpa only [AllKnown] using ⟨ha, hrest⟩)
      rw [toValues, hv, toValues_of_not_allKnown hrest]
      rfl
    · rw [toValues, toValue_of_not_known ha]
      rfl

theorem toEntries_of_not_entriesKnown : ∀ {entries : List (String × Attribute)},
    ¬EntriesKnown entries → toEntries entries = .error .unknownAttribute
  | [], h => by simp [EntriesKnown] at h
  | (name, a) :: rest, h => by
    by_cases ha : Known a
    · obtain ⟨v, hv, -⟩ := toValue_of_known ha
      have hrest : ¬EntriesKnown rest := fun hrest =>
        h (by simpa only [EntriesKnown] using ⟨ha, hrest⟩)
      rw [toEntries, hv, toEntries_of_not_entriesKnown hrest]
      rfl
    · rw [toEntries, toValue_of_not_known ha]
      rfl

end

/-! ## Maps and items -/

theorem fst_ofEntries : ∀ entries : List (String × Value),
    (ofEntries entries).map Prod.fst = entries.map Prod.fst
  | [] => by simp [ofEntries]
  | (name, v) :: rest => by rw [ofEntries, List.map_cons, fst_ofEntries rest, List.map_cons]

theorem fst_settledEntries : ∀ entries : List (String × Attribute),
    (settledEntries entries).map Prod.fst = entries.map Prod.fst
  | [] => by simp [settledEntries]
  | (name, a) :: rest => by
    rw [settledEntries, List.map_cons, fst_settledEntries rest, List.map_cons]

/-- A map of known attributes is an item, whose attributes are those of the map, settled. -/
theorem toItem_of_entriesKnown {map : Dict Attribute} (h : EntriesKnown map.entries) :
    ∃ item, toItem map.entries = .ok item ∧ ofItem item = settledEntries map.entries := by
  obtain ⟨values, hvalues, hof⟩ := toEntries_of_entriesKnown h
  have hnames : values.map Prod.fst = map.entries.map Prod.fst := by
    rw [← fst_ofEntries, hof, fst_settledEntries]
  have hordered : values.Pairwise fun a b => a.1 < b.1 := by
    rw [← List.pairwise_map (f := Prod.fst) (R := (· < ·)), hnames, List.pairwise_map]
    exact map.ordered
  have hitem : Dict.ofList values = ⟨values, hordered⟩ := Dict.ofList_entries ⟨values, hordered⟩
  refine ⟨⟨values, hordered⟩, ?_, hof⟩
  rw [toItem, hvalues, ← hitem]
  rfl

/-- Items come back from the wire as they were. A map on the wire is an item if all its attributes
are of known kinds, at every depth; the item's attributes are those of the map with sets as lists,
and reading them again gives the same item. A map with an unknown kind in it is refused. -/
theorem toItem_there_and_back :
    (∀ item : Item, toItem (ofItem item) = .ok item) ∧
      ∀ map : Dict Attribute,
        (EntriesKnown map.entries → ∃ item, toItem map.entries = .ok item ∧
          ofItem item = settledEntries map.entries ∧ toItem (ofItem item) = .ok item) ∧
        (¬EntriesKnown map.entries → toItem map.entries = .error .unknownAttribute) := by
  refine ⟨toItem_ofItem, fun map => ⟨fun h => ?_, fun h => ?_⟩⟩
  · obtain ⟨item, hitem, hof⟩ := toItem_of_entriesKnown h
    exact ⟨item, hitem, hof, toItem_ofItem item⟩
  · rw [toItem, toEntries_of_not_entriesKnown h]
    rfl

end Remote.Attribute

/-! ## Sets inside of lists and maps -/

namespace Sample

open Remote Attribute

/-- A map on the wire with a set of each kind in a list. -/
def crate : Dict Attribute where
  entries := [("empty", .map []),
    ("tags", .list [.textSet ["b", "a"], .null false,
      .map [("raw", .binarySet [[0, 255], []]), ("sizes", .numberSet ["1", "1.0"])]])]
  ordered := by decide +kernel

/-- The same with an attribute of an unknown kind in a list. -/
def oddCrate : Dict Attribute where
  entries := [("tags", .list [.textSet ["b", "a"], .list [.unknown]])]
  ordered := by decide +kernel

/-- A crate with sets, nulls and an empty map, and one with an unknown kind in a list. -/
theorem toItem_there_and_back_crate :
    EntriesKnown crate.entries ∧ ¬EntriesKnown oddCrate.entries ∧
      toItem oddCrate.entries = .error .unknownAttribute ∧
      ∃ item, toItem crate.entries = .ok item ∧ toItem (ofItem item) = .ok item ∧
        ofItem item = [("empty", .map []),
          ("tags", .list [.list [.text "b", .text "a"], .null true,
            .map [("raw", .list [.binary [0, 255], .binary []]),
              ("sizes", .list [.number "1", .number "1.0"])]])] := by
  have hcrate : EntriesKnown crate.entries := by
    simp [crate, EntriesKnown, Known, AllKnown]
  have hodd : ¬EntriesKnown oddCrate.entries := by
    simp [oddCrate, EntriesKnown, Known, AllKnown]
  obtain ⟨item, hitem, hof, hback⟩ := (toItem_there_and_back.2 crate).1 hcrate
  refine ⟨hcrate, hodd, (toItem_there_and_back.2 oddCrate).2 hodd, item, hitem, hback, ?_⟩
  rw [hof]
  simp [crate, settledEntries, settled, settledAll]

end Sample

end ItemStore
