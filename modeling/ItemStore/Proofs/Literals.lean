import ItemStore.Command.Literal
import ItemStore.Proofs.Base64
import ItemStore.Proofs.NumberTexts

/-!
# Literals there and back

A text is split at its first colon, so the content of a literal can have colons of its own
(`splitAtFirst?_eq_some_iff`). Main statement: every scalar value has a literal, which is read as
that value; a text that does not start with a kind and a colon is taken as it stands; and a literal
of a kind says a value of that kind or is refused (`literals_there_and_back`).
-/

namespace ItemStore

namespace Command

open Query (Stops stops_dropWhile)

/-! ## Splitting a text -/

theorem drop_length_takeWhile (p : Char → Bool) (cs : List Char) :
    cs.drop (cs.takeWhile p).length = cs.dropWhile p := by
  have h := congrArg (List.drop (cs.takeWhile p).length) (cs.takeWhile_append_dropWhile (p := p))
  rw [List.drop_left] at h
  exact h.symm

section Split

variable {separator : Char} {text before after : String}

theorem splitAtFirst?_eq (separator : Char) (text : String) : splitAtFirst? separator text =
    match text.toList.dropWhile (· != separator) with
    | _ :: after => some (String.ofList (text.toList.takeWhile (· != separator)),
      String.ofList after)
    | [] => none := by
  rw [← drop_length_takeWhile]
  rfl

/-- A text is split at the first separator. -/
theorem splitAtFirst?_eq_some_iff : splitAtFirst? separator text = some (before, after) ↔
    text.toList = before.toList ++ separator :: after.toList ∧ separator ∉ before.toList := by
  rw [splitAtFirst?_eq]
  constructor
  · intro h
    split at h
    · rename_i c rest hrest
      obtain ⟨rfl, rfl⟩ := Prod.mk.inj (Option.some.inj h)
      obtain rfl : c = separator := by
        simpa using stops_dropWhile (· != separator) text.toList c (by rw [hrest]; rfl)
      rw [String.toList_ofList, String.toList_ofList, ← hrest, List.takeWhile_append_dropWhile]
      exact ⟨rfl, fun hmem => by simpa using List.mem_takeWhile_imp hmem⟩
    · cases h
  · rintro ⟨htext, hnot⟩
    have hstops : Stops (· != separator) (separator :: after.toList) := by
      intro c hc
      obtain rfl := Option.some.inj hc
      simp
    have hbefore : ∀ c ∈ before.toList, (c != separator) = true := by
      intro c hc
      refine bne_iff_ne.2 ?_
      rintro rfl
      exact hnot hc
    rw [htext, hstops.takeWhile hbefore, hstops.dropWhile hbefore]
    simp

/-- A text is not split if the separator is nowhere in it. -/
theorem splitAtFirst?_eq_none_iff :
    splitAtFirst? separator text = none ↔ separator ∉ text.toList := by
  rw [splitAtFirst?_eq]
  constructor
  · intro h hmem
    split at h
    · cases h
    · rename_i hnone
      simpa using List.dropWhile_eq_nil_iff.1 hnone separator hmem
  · intro h
    have hnone : text.toList.dropWhile (· != separator) = [] := by
      refine List.dropWhile_eq_nil_iff.2 fun c hc => bne_iff_ne.2 ?_
      rintro rfl
      exact h hc
    rw [hnone]

/-- A text with a separator after what has none is split there. -/
theorem splitAtFirst?_colon (h : ':' ∉ before.toList) (after : String) :
    splitAtFirst? ':' (before ++ ":" ++ after) = some (before, after) := by
  refine splitAtFirst?_eq_some_iff.2 ⟨?_, h⟩
  simp

end Split

/-! ## Kinds -/

/-- What a literal can say before its first colon. -/
inductive Kind where
  | text
  | number
  | binary
  | bool

namespace Kind

/-- The prefix of a kind. -/
def symbol : Kind → String
  | text => "s"
  | number => "n"
  | binary => "b"
  | bool => "bool"

/-- The literal of a kind with some content. -/
def literal (kind : Kind) (content : String) : String := kind.symbol ++ ":" ++ content

/-- The content of a literal of a kind says a value: a text itself, a number without the blanks
around it, bytes in base64, or one of two words. -/
inductive Reads : Kind → String → Value → Prop where
  | text (content : String) : Reads text content (.text content)
  | number {content : String} (h : Numeral.IsNumberText (Text.trim content.toList)) :
    Reads number content (.number (String.ofList (Text.trim content.toList)))
  | binary {content : String} {bytes : List UInt8}
    (h : Text.Base64.decode (Text.bytes content.toList) = .ok bytes) :
    Reads binary content (.binary bytes)
  | bool (b : Bool) : Reads bool (toString b) (.bool b)

end Kind

/-- The literal of a scalar value. -/
def literal? : Value → Option String
  | .null => some "null"
  | .bool b => some (Kind.bool.literal (toString b))
  | .text s => some (Kind.text.literal s)
  | .number digits => some (Kind.number.literal digits)
  | .binary bytes => some (Kind.binary.literal (String.ofList (Text.Base64.encode bytes)))
  | .list _ | .map _ => none

namespace Kind

variable {kind : Kind} {content : String}

theorem colon_not_mem (kind : Kind) : ':' ∉ kind.symbol.toList := by
  cases kind <;> decide

theorem contentOf?_text (content : String) :
    contentOf? text.symbol content = some (.ok (.text content)) :=
  rfl

/-- The content of a number is trimmed, and it has to say a number. -/
theorem contentOf?_number (content : String) : contentOf? number.symbol content =
    some (if Numeral.IsNumberText (Text.trim content.toList)
      then .ok (.number (String.ofList (Text.trim content.toList))) else .error .notNumber) := by
  show some (numberLiteral content) = _
  unfold numberLiteral
  dsimp only
  split
  · rename_i l hl
    rw [if_pos ⟨l, Numeral.read?_eq_some_iff.1 hl⟩]
  · rename_i hnone
    rw [if_neg]
    rintro ⟨l, hl⟩
    rw [Numeral.read?_eq_some_iff.2 hl] at hnone
    cases hnone

theorem contentOf?_binary (content : String) : contentOf? binary.symbol content =
    some (((Text.Base64.decode (Text.bytes content.toList)).map .binary).mapError .notBase64) :=
  rfl

theorem contentOf?_bool (b : Bool) :
    contentOf? bool.symbol (toString b) = some (.ok (.bool b)) := by
  cases b <;> rfl

/-- Any content but the two truth values is refused. -/
theorem contentOf?_bool_of_ne (h : ∀ b : Bool, content ≠ toString b) :
    contentOf? bool.symbol content = some (.error .notBool) := by
  simp only [symbol, contentOf?]
  split
  · exact absurd rfl (h true)
  · exact absurd rfl (h false)
  · rfl

/-- The content of a literal gives the value that it says, or a fault if it says none. -/
theorem contentOf?_spec (kind : Kind) (content : String) :
    (∃ v, Reads kind content v ∧ contentOf? kind.symbol content = some (.ok v)) ∨
      (¬∃ v, Reads kind content v) ∧
        ∃ fault, contentOf? kind.symbol content = some (.error fault) := by
  cases kind with
  | text => exact .inl ⟨_, .text content, contentOf?_text content⟩
  | number =>
    rw [contentOf?_number]
    by_cases htext : Numeral.IsNumberText (Text.trim content.toList)
    · rw [if_pos htext]
      exact .inl ⟨_, .number htext, rfl⟩
    · rw [if_neg htext]
      refine .inr ⟨?_, _, rfl⟩
      rintro ⟨v, _ | h⟩
      exact htext h
  | binary =>
    rw [contentOf?_binary]
    cases hdecode : Text.Base64.decode (Text.bytes content.toList) with
    | ok bytes => exact .inl ⟨_, .binary hdecode, rfl⟩
    | error e =>
      refine .inr ⟨?_, _, rfl⟩
      rintro ⟨v, _ | _ | h⟩
      rw [hdecode] at h
      cases h
  | bool =>
    by_cases hbool : ∃ b : Bool, content = toString b
    · obtain ⟨b, rfl⟩ := hbool
      exact .inl ⟨_, .bool b, contentOf?_bool b⟩
    · refine .inr ⟨?_, _, contentOf?_bool_of_ne fun b hb => hbool ⟨b, hb⟩⟩
      rintro ⟨v, _ | _ | _ | b⟩
      exact hbool ⟨b, rfl⟩

/-- A literal of a kind is its content's value, or is refused as a whole. -/
theorem parseValue_literal {r : Except LiteralFault Value}
    (h : contentOf? kind.symbol content = some r) :
    parseValue (kind.literal content) = r.mapError (.invalidParameter (kind.literal content)) := by
  have hnull : kind.literal content ≠ "null" := by
    intro heq
    have hmem : ':' ∈ (kind.literal content).toList := by
      simp [literal]
    rw [heq] at hmem
    exact absurd hmem (by decide)
  have hsplit : splitAtFirst? ':' (kind.literal content) = some (kind.symbol, content) :=
    splitAtFirst?_colon kind.colon_not_mem content
  rw [parseValue, if_neg hnull, hsplit, Option.bind_some, h]

/-- What stands before the colon of any other text is no kind. -/
theorem contentOf?_eq_none {name : String} (h : ∀ kind : Kind, name ≠ kind.symbol)
    (content : String) : contentOf? name content = none := by
  unfold contentOf?
  split
  · exact absurd rfl (h .text)
  · exact absurd rfl (h .number)
  · exact absurd rfl (h .binary)
  · exact absurd rfl (h .bool)
  · rfl

end Kind

/-- A text that starts like no literal is itself. -/
theorem parseValue_plain {raw : String} (hnull : raw ≠ "null")
    (h : ∀ (kind : Kind) content, raw ≠ kind.literal content) :
    parseValue raw = .ok (.text raw) := by
  rw [parseValue, if_neg hnull]
  cases hsplit : splitAtFirst? ':' raw with
  | none => rfl
  | some parts =>
    obtain ⟨name, content⟩ := parts
    have htext := (splitAtFirst?_eq_some_iff.1 hsplit).1
    have hname : ∀ kind : Kind, name ≠ kind.symbol := by
      rintro kind rfl
      refine h kind content (String.toList_inj.1 ?_)
      rw [htext, Kind.literal]
      simp
    rw [Option.bind_some, Kind.contentOf?_eq_none hname]

/-- The literal of a scalar value is read as the value. -/
theorem parseValue_literal? {v : Value} {literal : String} (hliteral : literal? v = some literal)
    (h : ∀ digits ∈ v.number?, Numeral.IsNumberText digits.toList) :
    parseValue literal = .ok v := by
  cases v with
  | null =>
    obtain rfl := Option.some.inj hliteral
    rfl
  | bool b =>
    obtain rfl := Option.some.inj hliteral
    rw [Kind.parseValue_literal (Kind.contentOf?_bool b)]
    rfl
  | text s =>
    obtain rfl := Option.some.inj hliteral
    rw [Kind.parseValue_literal (Kind.contentOf?_text s)]
    rfl
  | number digits =>
    obtain rfl := Option.some.inj hliteral
    have hdigits := h digits rfl
    obtain ⟨l, hl⟩ := hdigits
    have htrim : Text.trim digits.toList = digits.toList := Text.trim_eq_self hl.solid
    rw [Kind.parseValue_literal (Kind.contentOf?_number digits), htrim, if_pos ⟨l, hl⟩,
      String.ofList_toList]
    rfl
  | binary bytes =>
    obtain rfl := Option.some.inj hliteral
    rw [Kind.parseValue_literal (Kind.contentOf?_binary _), String.toList_ofList,
      Text.Base64.decode_encode]
    rfl
  | list values => cases hliteral
  | map entries => cases hliteral

/-- Every value other than a list or a map has a literal that is read as the value; a number has one
if its text says a number, which leaves no room for blanks. Any text that is not `null` and does not
start with a kind and a colon is a text value as it stands. What starts so says a value of its kind,
or is refused with the whole text in the error. -/
theorem literals_there_and_back :
    (∀ v : Value, (∀ values, v ≠ .list values) → (∀ entries, v ≠ .map entries) →
      (∀ digits ∈ v.number?, Numeral.IsNumberText digits.toList) →
      ∃ literal, literal? v = some literal ∧ parseValue literal = .ok v) ∧
    (∀ raw : String, raw ≠ "null" → (∀ (kind : Kind) content, raw ≠ kind.literal content) →
      parseValue raw = .ok (.text raw)) ∧
    ∀ (kind : Kind) (content : String),
      (∃ v, kind.Reads content v ∧ parseValue (kind.literal content) = .ok v) ∨
        (¬∃ v, kind.Reads content v) ∧ ∃ fault, parseValue (kind.literal content) =
          .error (.invalidParameter (kind.literal content) fault) := by
  refine ⟨fun v hlist hmap hnumber => ?_, fun raw => parseValue_plain, fun kind content => ?_⟩
  · obtain ⟨literal, hliteral⟩ : ∃ literal, literal? v = some literal := by
      cases v with
      | list values => exact absurd rfl (hlist values)
      | map entries => exact absurd rfl (hmap entries)
      | _ => exact ⟨_, rfl⟩
    exact ⟨literal, hliteral, parseValue_literal? hliteral hnumber⟩
  · obtain ⟨v, hreads, hv⟩ | ⟨hnone, fault, hfault⟩ := kind.contentOf?_spec content
    · exact .inl ⟨v, hreads, Kind.parseValue_literal hv⟩
    · exact .inr ⟨hnone, fault, Kind.parseValue_literal hfault⟩

end Command

namespace Sample

open Command

/-- A text that looks like a literal, a number with a point in front, a text with a capital as its
kind, a number between blanks and a word that is no truth value. -/
theorem literals_there_and_back_alike :
    parseValue "s:n:1" = .ok (.text "n:1") ∧
      parseValue "n:-.5E+3" = .ok (.number "-.5E+3") ∧
      parseValue "S:a" = .ok (.text "S:a") ∧
      parseValue "n:\t42 " = .ok (.number "42") ∧
      ∃ fault, parseValue "bool:yes" = .error (.invalidParameter "bool:yes" fault) := by
  obtain ⟨hback, hplain, hkind⟩ := literals_there_and_back
  refine ⟨?_, ?_, hplain "S:a" (by decide) ?_, ?_, ?_⟩
  · obtain ⟨_, hliteral, h⟩ := hback (.text "n:1") nofun nofun nofun
    obtain rfl := Option.some.inj hliteral
    exact h
  · have hnumber : ∀ digits ∈ (Value.number "-.5E+3").number?,
        Numeral.IsNumberText digits.toList := by
      rintro _ ⟨⟩
      decide +kernel
    obtain ⟨_, hliteral, h⟩ := hback (.number "-.5E+3") nofun nofun hnumber
    obtain rfl := Option.some.inj hliteral
    exact h
  · intro kind content h
    have hsplit := congrArg (splitAtFirst? ':') h
    rw [Kind.literal, splitAtFirst?_colon kind.colon_not_mem] at hsplit
    have hname : "S" = kind.symbol := (Prod.mk.inj (Option.some.inj hsplit)).1
    cases kind <;> exact absurd hname (by decide)
  · have hreads : Kind.number.Reads "\t42 " (.number "42") := .number (by decide +kernel)
    obtain ⟨v, hv, h⟩ | ⟨hnone, -⟩ := hkind .number "\t42 "
    · cases hv
      exact h
    · exact absurd ⟨_, hreads⟩ hnone
  · obtain ⟨v, hv, -⟩ | ⟨-, hrefused⟩ := hkind .bool "yes"
    · generalize hcontent : "yes" = content at hv
      obtain _ | _ | _ | b := hv
      cases b <;> exact absurd hcontent (by decide)
    · exact hrefused

end Sample

end ItemStore
