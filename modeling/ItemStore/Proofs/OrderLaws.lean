import ItemStore.Proofs.KeyOrder
import ItemStore.Proofs.NumberTexts
import ItemStore.Proofs.Translation

/-!
# The laws of order

Sorting, paging and finding a row by its key need an order that keeps its laws. A number text has a
place in it if it says a number or an infinity (`Numeral.SaysPlace`). Main statement: comparing
values turns round with its sides and is transitive, equality is that of `Value.same` on all values
but lists and maps, and the keys of a table whose number texts have places are a total preorder
whose equality is that of `Key.same` (`order_laws`).
-/

namespace ItemStore

/-! ## Texts of numbers that have a place -/

/-- A number text says a number or an infinity, blanks at its ends aside. -/
def Numeral.SaysPlace (digits : String) : Prop :=
  ∃ l, Says (Text.trim digits.toList) l ∧ l ≠ .nan

open Numeral in
/-- Texts that have a place are those that the order knows as numbers. -/
theorem saysNumber_iff_saysPlace {digits : String} : SaysNumber digits ↔ SaysPlace digits := by
  constructor
  · intro h
    obtain ⟨place, hrank⟩ := Option.isSome_iff_exists.1 h
    obtain ⟨d, hread, hplace⟩ := Option.bind_eq_some_iff.1 hrank
    obtain ⟨l, hl, rfl⟩ := Option.map_eq_some_iff.1 hread
    refine ⟨l, read?_eq_some_iff.1 hl, ?_⟩
    rintro rfl
    cases hplace
  · rintro ⟨l, hl, hne⟩
    rw [SaysNumber, Value.numberRank?, Datum.read?, read?_eq_some_iff.2 hl]
    cases l with
    | nan => exact absurd rfl hne
    | infinite negative => rfl
    | finite negative digits exponent => rfl

instance : DecidablePred Numeral.SaysPlace := fun _ =>
  decidable_of_iff _ saysNumber_iff_saysPlace

/-- Two numbers compare if and only if both have a place. -/
theorem Value.isSome_compare?_number {d e : String} :
    ((number d).compare? (number e)).isSome = true ↔
      Numeral.SaysPlace d ∧ Numeral.SaysPlace e := by
  rw [← saysNumber_iff_saysPlace, ← saysNumber_iff_saysPlace, SaysNumber, SaysNumber, compare?]
  cases numberRank? d <;> simp

namespace Store

open Memory

/-- A key of the declared types whose number texts have places. -/
structure OrderedKey (s : Schema) (key : Key) : Prop where
  checked : checkKey s key = .ok ()
  numbers : ∀ digits ∈ key.numbers, Numeral.SaysPlace digits

theorem OrderedKey.placed {s : Schema} {key : Key} (h : OrderedKey s key) : Placed s key where
  checked := h.checked
  ranked := fun digits hd => saysNumber_iff_saysPlace.2 (h.numbers digits hd)

/-- The laws of order. Of values: a comparison is turned round with its sides; where two steps do
not go down, there is one from the first value to the last, which goes up if one of them does; two
scalars are the same if and only if they compare as equal; being the same is symmetric and
transitive on all values; any two texts compare, any two binary values, and two numbers if and only
if their texts have places. Of the keys of a table whose number texts have places: of two keys one
does not come after the other, a comparison is turned round with its sides and is transitive, and
equal are the keys that are the same. -/
theorem order_laws :
    (∀ a b : Value, b.compare? a = (a.compare? b).map Ordering.swap) ∧
    (∀ (a b c : Value) (o p : Ordering), a.compare? b = some o → b.compare? c = some p →
      o.isLE = true → p.isLE = true → a.compare? c = some (o.then p)) ∧
    (∀ a b : Value, a.isScalar = true → b.isScalar = true →
      (a.compare? b = some .eq ↔ a.same b = true)) ∧
    (∀ a b : Value, a.same b = b.same a) ∧
    (∀ a b c : Value, a.same b = true → b.same c = true → a.same c = true) ∧
    (∀ d e : String, ((Value.text d).compare? (.text e)).isSome = true) ∧
    (∀ d e : List UInt8, ((Value.binary d).compare? (.binary e)).isSome = true) ∧
    (∀ d e : String, ((Value.number d).compare? (.number e)).isSome = true ↔
      Numeral.SaysPlace d ∧ Numeral.SaysPlace e) ∧
    ∀ (s : Schema) (j k l : Key), OrderedKey s j → OrderedKey s k → OrderedKey s l →
      ((compareKeys j k).isLE = true ∨ (compareKeys k j).isLE = true) ∧
      compareKeys k j = (compareKeys j k).swap ∧
      ((compareKeys j k).isLE = true → (compareKeys k l).isLE = true →
        (compareKeys j l).isLE = true) ∧
      (compareKeys j k = .eq ↔ j.same k = true) := by
  refine ⟨Value.compare?_swap, fun a b c o p => Value.compare?_trans, ?_, Value.same_comm,
    fun a b c => Value.same_trans, fun _ _ => rfl, fun _ _ => rfl,
    fun _ _ => Value.isSome_compare?_number, ?_⟩
  · exact fun a b ha _ => (Value.same_iff_of_isScalar ha).symm
  · intro s j k l hj hk hl
    have hswap := compareKeys_swap k j
    refine ⟨?_, hswap, hj.placed.isLE_trans hk.placed hl.placed,
      (hj.placed.same_iff hk.placed).symm⟩
    rw [hswap]
    cases compareKeys j k <;> simp

end Store

/-! ## Readings in their order -/

namespace Sample

open Store

/-- The key of a reading of one sensor at a time. -/
def readingAt (digits : String) : Key :=
  ⟨.text "s1", some (.number digits)⟩

/-- Two texts of zero are one key, and an infinity comes after both. -/
theorem order_laws_readings :
    (∀ digits ∈ ["-0", " 0.0e9 ", "inf"], OrderedKey readings (readingAt digits)) ∧
      compareKeys (readingAt "-0") (readingAt " 0.0e9 ") = .eq ∧
      (readingAt "-0").same (readingAt " 0.0e9 ") = true ∧
      (compareKeys (readingAt "-0") (readingAt "inf")).isLE = true := by
  have hkeys : ∀ digits ∈ ["-0", " 0.0e9 ", "inf"], OrderedKey readings (readingAt digits) := by
    intro digits hd
    refine ⟨rfl, List.forall_mem_singleton.2 ?_⟩
    revert digits
    decide +kernel
  obtain ⟨-, -, -, -, -, -, -, -, hlaws⟩ := order_laws
  obtain ⟨-, -, htrans, hsame⟩ := hlaws readings (readingAt "-0") (readingAt " 0.0e9 ")
    (readingAt "inf") (hkeys _ (by simp)) (hkeys _ (by simp)) (hkeys _ (by simp))
  have heq : compareKeys (readingAt "-0") (readingAt " 0.0e9 ") = .eq := by
    decide +kernel
  have hlast : (compareKeys (readingAt " 0.0e9 ") (readingAt "inf")).isLE = true := by
    decide +kernel
  exact ⟨hkeys, heq, hsame.1 heq, htrans (heq ▸ rfl) hlast⟩

end Sample

end ItemStore
