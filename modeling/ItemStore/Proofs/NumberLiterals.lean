import ItemStore.Proofs.Literals
import ItemStore.Proofs.NumberKeys
import ItemStore.Proofs.OrderLaws

/-!
# Numbers on a command line

The content of a number literal is any number text, and one of them is `nan`, which says no number.
Main statement: a number literal says a decimal number, an infinity or no number, and only in the
last case its value does not match itself and no row that is put with it in its key is found by that
key (`Command.number_literals_exactly`).
-/

namespace ItemStore

open Numeral

/-! ## Values that match themselves -/

/-- A number text has a place in the order of numbers unless it says no number. -/
theorem saysNumber_iff {digits : String} {l : Literal} (h : Says digits.toList l) :
    SaysNumber digits ↔ l ≠ .nan := by
  rw [saysNumber_iff_saysPlace, SaysPlace, Text.trim_eq_self h.solid]
  exact ⟨fun ⟨l', h', hne⟩ => h.unique h' ▸ hne, fun hne => ⟨l, h, hne⟩⟩

/-- Of the number texts those have a place that do not say NaN. -/
theorem saysNumber_iff_not_nan {digits : String} (h : IsNumberText digits.toList) :
    SaysNumber digits ↔ ¬Says digits.toList .nan := by
  obtain ⟨l, hl⟩ := h
  rw [saysNumber_iff hl]
  exact not_congr ⟨fun h => h ▸ hl, fun h => hl.unique h⟩

/-- A number matches itself if its text has a place. -/
theorem Value.same_number_self {digits : String} :
    (number digits).same (number digits) = true ↔ SaysNumber digits := by
  rw [SaysNumber, same, compare?]
  cases numberRank? digits <;> simp

namespace Store

open Memory Step

/-- A row that is put is found by its own key if all number texts in the key have a place. -/
theorem outcome_getItem_putItem {o : MemoryOptions} {m : Memory} {s : Schema} {row : Item}
    {key : Key} (h : Readable o m s.table) (hkey : itemKey s row = .ok key) :
    ∃ m', outcome (putItem o s row) m = (.ok (), m') ∧
      (key.Ranked → (outcome (getItem o s key) m').1 = .ok (some row)) ∧
      (¬key.Ranked → (outcome (getItem o s key) m').1 = .ok none) := by
  obtain ⟨hkeyOf, hchecked⟩ := itemKey_eq_ok_iff.1 hkey
  obtain ⟨m', hput, hcontains, hrows⟩ := outcome_putItem hkey h
  refine ⟨m', hput, fun hranked => ?_, fun hranked => ?_⟩
  · rw [outcome_getItem o hchecked hcontains, hrows, findRow_storeRow hkeyOf hranked rfl]
  · have hnone : ∀ r ∈ m'.rowsOf s.table, hasKey s key r = false :=
      fun r _ => hasKey_of_not_ranked hranked r
    rw [outcome_getItem o hchecked hcontains, findRow, List.find?_eq_none.2 (by simpa using hnone)]

end Store

/-! ## Number literals -/

namespace Command

open Store Step
open Store.Memory (Readable itemKey)

/-- A number is read from the literals of its kind only, and from those that are number texts. -/
theorem parseValue_eq_number_iff {raw digits : String} :
    parseValue raw = .ok (.number digits) ↔ ∃ content, raw = Kind.number.literal content ∧
      digits.toList = Text.trim content.toList ∧ IsNumberText digits.toList := by
  constructor
  · intro h
    by_cases hnull : raw = "null"
    · rw [parseValue, if_pos hnull] at h
      cases h
    by_cases hliteral : ∃ (kind : Kind) (content : String), raw = kind.literal content
    · obtain ⟨kind, content, rfl⟩ := hliteral
      obtain ⟨v, hreads, hv⟩ | ⟨-, fault, hfault⟩ := kind.contentOf?_spec content
      · rw [Kind.parseValue_literal hv] at h
        obtain rfl : v = .number digits := Except.ok.inj h
        cases hreads with
        | number hnumber =>
          rw [String.toList_ofList]
          exact ⟨content, rfl, rfl, hnumber⟩
      · rw [Kind.parseValue_literal hfault] at h
        cases h
    · rw [parseValue_plain hnull fun kind content h => hliteral ⟨kind, content, h⟩] at h
      cases h
  · rintro ⟨content, rfl, hdigits, hnumber⟩
    rw [hdigits] at hnumber
    rw [Kind.parseValue_literal (Kind.contentOf?_number content), if_pos hnumber, ← hdigits,
      String.ofList_toList]
    rfl

/-- What a text is good for as a number literal. It gives a number if it is one of the number kind
and its content is a number text, blanks at the ends aside, and with any other content of that kind
it is refused. The number text says a decimal number, an infinity or no number. The value matches
itself unless the text says no number, and then no row that is put with it in its key is found by
that key. In all other cases the row is found, if the key's other number has a place. -/
theorem number_literals_exactly (raw : String) :
    (∀ digits : String, parseValue raw = .ok (.number digits) ↔
      ∃ content, raw = Kind.number.literal content ∧
        digits.toList = Text.trim content.toList ∧ IsNumberText digits.toList) ∧
    (∀ content : String, raw = Kind.number.literal content →
      ¬IsNumberText (Text.trim content.toList) →
      parseValue raw = .error (.invalidParameter raw .notNumber)) ∧
    ∀ digits : String, parseValue raw = .ok (.number digits) →
      (IsDecimal digits.toList ∨ (∃ negative, Says digits.toList (.infinite negative)) ∨
        Says digits.toList .nan) ∧
      ((Value.number digits).same (.number digits) = true ↔ ¬Says digits.toList .nan) ∧
      ∀ (o : MemoryOptions) (m : Memory) (s : Schema) (row : Item) (key : Key),
        Readable o m s.table → itemKey s row = .ok key → digits ∈ key.numbers →
        ∃ m', outcome (Memory.putItem o s row) m = (.ok (), m') ∧
          (Says digits.toList .nan → (outcome (Memory.getItem o s key) m').1 = .ok none) ∧
          (¬Says digits.toList .nan →
            (∀ other ∈ key.numbers, other = digits ∨ SaysNumber other) →
            (outcome (Memory.getItem o s key) m').1 = .ok (some row)) := by
  refine ⟨fun digits => parseValue_eq_number_iff, ?_, fun digits hraw => ?_⟩
  · rintro content rfl hnot
    rw [Kind.parseValue_literal (Kind.contentOf?_number content), if_neg hnot]
    rfl
  · obtain ⟨-, -, -, hnumber⟩ := parseValue_eq_number_iff.1 hraw
    have hplace : SaysNumber digits ↔ ¬Says digits.toList .nan := saysNumber_iff_not_nan hnumber
    refine ⟨?_, Value.same_number_self.trans hplace, fun o m s row key h hkey hmem => ?_⟩
    · obtain ⟨l, hl⟩ := hnumber
      cases l with
      | finite negative ds exponent => exact .inl ⟨negative, ds, exponent, hl⟩
      | infinite negative => exact .inr (.inl ⟨negative, hl⟩)
      | nan => exact .inr (.inr hl)
    · obtain ⟨m', hput, hfound, hlost⟩ := outcome_getItem_putItem h hkey
      refine ⟨m', hput, fun hnan => hlost fun hranked => ?_, fun hnan hothers => hfound ?_⟩
      · exact hplace.1 (hranked digits hmem) hnan
      · intro other hother
        obtain rfl | hranked := hothers other hother
        · exact hplace.2 hnan
        · exact hranked

end Command

/-! ## Counters from a command line -/

namespace Sample

open Store Memory Step
open Command (parseValue)

/-- A literal with blanks around the number, whose counter is found. -/
theorem number_literals_exactly_seven : parseValue "n: 7.0 " = .ok (.number "7.0") ∧
    ∃ m, outcome (putItem {} counters (counter "7.0")) {} = (.ok (), m) ∧
      (outcome (getItem {} counters ⟨.number "7.0", none⟩) m).1 = .ok (some (counter "7.0")) := by
  obtain ⟨hread, -, hnumber⟩ := Command.number_literals_exactly "n: 7.0 "
  have hseven : parseValue "n: 7.0 " = .ok (.number "7.0") :=
    (hread "7.0").2 ⟨" 7.0 ", rfl, by decide +kernel, by decide +kernel⟩
  obtain ⟨-, -, hfound⟩ := hnumber "7.0" hseven
  obtain ⟨m, hput, -, hget⟩ := hfound {} {} counters (counter "7.0") ⟨.number "7.0", none⟩
    (.inl rfl) rfl (.head _)
  have hnan : ¬Says "7.0".toList .nan := by
    decide +kernel
  exact ⟨hseven, m, hput, hget hnan (List.forall_mem_singleton.2 (.inl rfl))⟩

/-- Two literals that are accepted and say no decimal number. The counter of the second one is put
and not found. -/
theorem nan_literal_is_accepted :
    parseValue "n:inf" = .ok (.number "inf") ∧ ¬IsDecimal "inf".toList ∧
      parseValue "n:nan" = .ok (.number "nan") ∧ ¬IsDecimal "nan".toList ∧
      (Value.number "nan").same (.number "nan") = false ∧
      ∃ m, outcome (putItem {} counters (counter "nan")) {} = (.ok (), m) ∧
        (outcome (getItem {} counters ⟨.number "nan", none⟩) m).1 = .ok none := by
  have hinf : Says "inf".toList (.infinite false) := by
    decide +kernel
  have hnan : Says "nan".toList .nan := by
    decide +kernel
  refine ⟨by decide +kernel, ?_, by decide +kernel, ?_, by decide +kernel, _, rfl, ?_⟩
  · rintro ⟨negative, digits, exponent, h⟩
    cases h.unique hinf
  · rintro ⟨negative, digits, exponent, h⟩
    cases h.unique hnan
  · decide +kernel

end Sample

end ItemStore
