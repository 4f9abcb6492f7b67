import ItemStore.Json.Reader
import ItemStore.Json.Writer

/-!
# JSON trees through their texts

A tree without numbers that is not too deep reads from its text as it was (`Json.read?_compact`),
and no tree that was read from any text is too deep (`Json.depth_le_of_read?`).

Between a text and its tree are the tokens (`Json.tokens`). The writer's characters are read as them
wherever they stand (`Lexes`), and they take the reader from a place for a value to the state after
that value (`ReaderState.run_tokens`). That what the reader keeps never has too many levels is an
invariant of its states (`ReaderState.Fits`).

Numbers are left out because a number has no end of its own: digits after its text would belong
to it.
-/

namespace ItemStore.Json

open Token

/-! ## Strings -/

/-- An escape of one letter is read as its character. -/
theorem readString_short {e c : Char} (h : shortEscape? e = some c) (cs : List Char) :
    readString ('\\' :: e :: cs) = (readString cs).map (consChar c) := by
  rw [readString, h]
  rintro _ _ _ _ _ rfl
  exact nomatch h

theorem hexValue4?_hexDigit : ∀ n < 0x20,
    hexValue4? '0' '0' (hexDigit (n / 16)) (hexDigit (n % 16)) = some n := by
  decide +kernel

/-- A control character is read back from its four digits. -/
theorem readString_control {c : Char} (h : c.toNat < 0x20) (cs : List Char) :
    readString ('\\' :: 'u' :: '0' :: '0' :: hexDigit (c.toNat / 16) :: hexDigit (c.toNat % 16)
      :: cs) = (readString cs).map (consChar c) := by
  rw [readString, hexValue4?_hexDigit c.toNat h]
  dsimp only
  rw [if_pos (.inl (by omega)), Char.ofNat_toNat]

/-- Any other character is read as itself. -/
theorem readString_plain {c : Char} (hquote : c ≠ '"') (hslash : c ≠ '\\') (h : ¬c.toNat < 0x20)
    (cs : List Char) : readString (c :: cs) = (readString cs).map (consChar c) := by
  rw [readString, if_neg h]
  · exact hquote
  · exact fun _ _ _ _ _ hc => absurd hc hslash
  · exact fun _ _ hc => absurd hc hslash

/-- A character is written as a short escape, as a numbered one, or as it is. -/
theorem escape_cases (c : Char) :
    (∃ e, shortEscape? e = some c ∧ escape c = ['\\', e]) ∨
      (c.toNat < 0x20 ∧
        escape c = ['\\', 'u', '0', '0', hexDigit (c.toNat / 16), hexDigit (c.toNat % 16)]) ∨
      c ≠ '"' ∧ c ≠ '\\' ∧ ¬c.toNat < 0x20 ∧ escape c = [c] := by
  unfold escape
  -- The seven characters that have a short escape come first.
  iterate 7
    split
    · rename_i h
      refine .inl ⟨_, ?_, rfl⟩
      rw [h]
      rfl
  split
  · rename_i h
    exact .inr (.inl ⟨h, rfl⟩)
  · rename_i hquote hslash _ _ _ _ _ h
    exact .inr (.inr ⟨hquote, hslash, h, rfl⟩)

/-- A written character reads as the character it was. -/
theorem readString_escape (c : Char) (cs : List Char) :
    readString (escape c ++ cs) = (readString cs).map (consChar c) := by
  obtain ⟨e, he, hesc⟩ | ⟨h, hesc⟩ | ⟨hquote, hslash, h, hesc⟩ := escape_cases c
  · rw [hesc]
    exact readString_short he cs
  · rw [hesc]
    exact readString_control h cs
  · rw [hesc]
    exact readString_plain hquote hslash h cs

/-- A written string reads as the string it was. -/
theorem readString_written (s : List Char) (cs : List Char) :
    readString (s.flatMap escape ++ '"' :: cs) = some (s, cs) := by
  induction s with
  | nil => rw [List.flatMap_nil, List.nil_append, readString]
  | cons c s ih =>
    rw [List.flatMap_cons, List.append_assoc, readString_escape, ih]
    rfl

/-- A written string is read as one token, whatever comes after it. -/
theorem next?_writeString (s : String) (cs : List Char) :
    next? (writeString s ++ cs) = some (.string s, cs) := by
  rw [writeString, List.append_assoc, List.cons_append, List.singleton_append, next?,
    readString_written]
  dsimp only [Option.map_some]
  rw [String.ofList_toList]

theorem ofChars?_of_next? {c : Char} {cs left : List Char} {t : Token} (hblank : isBlank c = false)
    (h : next? (c :: cs) = some (t, left)) :
    ofChars? (c :: cs) = (ofChars? left).map (t :: ·) := by
  rw [ofChars?, if_neg (by simp [hblank])]
  split
  · rename_i hnone
    cases hnone.symm.trans h
  · rename_i hsome
    obtain ⟨rfl, rfl⟩ := Prod.mk.inj (Option.some.inj (hsome.symm.trans h))
    rfl

/-! ## Tokens -/

mutual

/-- The tokens that write a tree. -/
def tokens : Json → List Token
  | null => [.null]
  | bool b => [.bool b]
  | number digits => [.number digits]
  | string s => [.string s]
  | array elements => .beginArray :: elementTokens elements ++ [.endArray]
  | object members => .beginObject :: memberTokens members ++ [.endObject]

/-- Elements with commas between them. -/
def elementTokens : List Json → List Token
  | [] => []
  | [j] => tokens j
  | j :: rest => tokens j ++ .comma :: elementTokens rest

/-- Members with commas between them. -/
def memberTokens : List (String × Json) → List Token
  | [] => []
  | [(name, j)] => .string name :: .colon :: tokens j
  | (name, j) :: rest => .string name :: .colon :: tokens j ++ .comma :: memberTokens rest

end

mutual

/-- No number stands in the tree. -/
def NumberFree : Json → Prop
  | number _ => False
  | array elements => AllNumberFree elements
  | object members => MembersNumberFree members
  | _ => True

/-- No number stands in the elements of an array. -/
def AllNumberFree : List Json → Prop
  | [] => True
  | j :: rest => NumberFree j ∧ AllNumberFree rest

/-- No number stands in the members of an object. -/
def MembersNumberFree : List (String × Json) → Prop
  | [] => True
  | (_, j) :: rest => NumberFree j ∧ MembersNumberFree rest

end

/-- Wherever the characters stand, they are read as the tokens. -/
def Lexes (cs : List Char) (ts : List Token) : Prop :=
  ∀ rest, ofChars? (cs ++ rest) = (ofChars? rest).map (ts ++ ·)

namespace Lexes

variable {cs ds : List Char} {ts us : List Token}

/-- Texts that are read token by token can be put one after the other. -/
theorem append (h : Lexes cs ts) (h' : Lexes ds us) : Lexes (cs ++ ds) (ts ++ us) := by
  intro rest
  rw [List.append_assoc, h, h', Option.map_map]
  exact congrArg (fun f => (ofChars? rest).map f) (funext fun _ => (List.append_assoc _ _ _).symm)

/-- One token makes a text that is read as it. -/
theorem of_next? {c : Char} {t : Token} (hblank : isBlank c = false)
    (h : ∀ rest, next? (c :: (cs ++ rest)) = some (t, rest)) : Lexes (c :: cs) [t] :=
  fun rest => ofChars?_of_next? hblank (h rest)

/-- A mark before the characters is one more token. -/
theorem cons {c : Char} {t : Token} (h : Lexes cs ts) (hblank : isBlank c = false)
    (hmark : ∀ rest, next? (c :: rest) = some (t, rest)) : Lexes (c :: cs) (t :: ts) :=
  have hfirst : Lexes [c] [t] := of_next? hblank hmark
  hfirst.append h

end Lexes

theorem lexes_writeString (s : String) : Lexes (writeString s) [.string s] :=
  .of_next? rfl (next?_writeString s)

mutual

/-- A value without numbers is read as its tokens. -/
theorem lexes_compactChars : ∀ {j : Json}, NumberFree j → Lexes (compactChars j) (tokens j)
  | null, _ => .of_next? rfl fun _ => rfl
  | bool true, _ => .of_next? rfl fun _ => rfl
  | bool false, _ => .of_next? rfl fun _ => rfl
  | number _, h => by simp [NumberFree] at h
  | string s, _ => by
    rw [compactChars, tokens]
    exact lexes_writeString s
  | array elements, h => by
    have helements := lexes_compactElements (by simpa only [NumberFree] using h)
    rw [compactChars, tokens]
    exact (helements.cons rfl fun _ => rfl).append (.of_next? rfl fun _ => rfl)
  | object members, h => by
    have hmembers := lexes_compactMembers (by simpa only [NumberFree] using h)
    rw [compactChars, tokens]
    exact (hmembers.cons rfl fun _ => rfl).append (.of_next? rfl fun _ => rfl)

theorem lexes_compactElements : ∀ {elements : List Json}, AllNumberFree elements →
    Lexes (compactElements elements) (elementTokens elements)
  | [], _ => by
    intro rest
    simp [compactElements, elementTokens]
  | [j], h => by
    rw [compactElements, elementTokens]
    exact lexes_compactChars (by simpa [AllNumberFree] using h)
  | j :: k :: rest, h => by
    obtain ⟨hj, hrest⟩ : NumberFree j ∧ AllNumberFree (k :: rest) := by
      simpa only [AllNumberFree] using h
    rw [compactElements, elementTokens]
    · exact (lexes_compactChars hj).append
        ((lexes_compactElements hrest).cons rfl fun _ => rfl)
    · exact nofun
    · exact nofun

theorem lexes_compactMembers : ∀ {members : List (String × Json)}, MembersNumberFree members →
    Lexes (compactMembers members) (memberTokens members)
  | [], _ => by
    intro rest
    simp [compactMembers, memberTokens]
  | [(name, j)], h => by
    rw [compactMembers, memberTokens]
    exact (lexes_writeString name).append
      ((lexes_compactChars (by simpa [MembersNumberFree] using h)).cons rfl fun _ => rfl)
  | (name, j) :: m :: rest, h => by
    obtain ⟨hj, hrest⟩ : NumberFree j ∧ MembersNumberFree (m :: rest) := by
      simpa only [MembersNumberFree] using h
    rw [compactMembers, memberTokens]
    · exact ((lexes_writeString name).append ((lexes_compactChars hj).cons rfl fun _ => rfl)).append
        ((lexes_compactMembers hrest).cons rfl fun _ => rfl)
    · exact nofun
    · exact nofun

end

/-! ## Trees -/

mutual

/-- How many arrays and objects stand inside one another. -/
def depth : Json → Nat
  | array elements => depthOfElements elements + 1
  | object members => depthOfMembers members + 1
  | _ => 0

/-- The depth of the deepest element. -/
def depthOfElements : List Json → Nat
  | [] => 0
  | j :: rest => max (depth j) (depthOfElements rest)

/-- The depth of the deepest member. -/
def depthOfMembers : List (String × Json) → Nat
  | [] => 0
  | (_, j) :: rest => max (depth j) (depthOfMembers rest)

end

namespace ReaderState

variable {slots : List Slot} {rest : List Token}

/-- An array that may start is empty, or has elements of which the first is read as any other. -/
theorem run_beginArray (h : slots.length < maxDepth) (elements : List Json) :
    run (value slots) (.beginArray :: (elementTokens elements ++ .endArray :: rest)) =
      if elements = [] then run (fill (.array []) slots) rest
      else run (value (.element [] :: slots)) (elementTokens elements ++ .endArray :: rest) := by
  have hstart : start slots .beginArray = some (firstElement slots) := if_pos h
  rw [run, step, hstart, Option.bind_some]
  cases elements with
  | nil => rfl
  | cons j elements =>
    cases elements <;> cases j <;> rfl

/-- An object that may start is empty, or has members of which the first is read as any other. -/
theorem run_beginObject (h : slots.length < maxDepth) (members : List (String × Json)) :
    run (value slots) (.beginObject :: (memberTokens members ++ .endObject :: rest)) =
      if members = [] then run (fill (.object []) slots) rest
      else run (nextName [] slots) (memberTokens members ++ .endObject :: rest) := by
  have hstart : start slots .beginObject = some (firstName slots) := if_pos h
  rw [run, step, hstart, Option.bind_some]
  cases members with
  | nil => rfl
  | cons m members =>
    cases members <;> rfl

mutual

/-- The tokens of a tree fill the innermost slot with it. -/
theorem run_tokens : ∀ (j : Json) {slots : List Slot}, slots.length + j.depth ≤ maxDepth →
    ∀ rest, run (value slots) (tokens j ++ rest) = run (fill j slots) rest
  | null, slots, _, rest => rfl
  | bool b, slots, _, rest => rfl
  | number digits, slots, _, rest => rfl
  | string s, slots, _, rest => rfl
  | array elements, slots, h, rest => by
    rw [depth] at h
    rw [tokens, List.append_assoc, List.cons_append, List.singleton_append,
      run_beginArray (by omega)]
    split
    · rename_i hempty
      rw [hempty]
    · rename_i hne
      rw [run_elementTokens elements (by omega) hne, List.append_nil, run, step, Option.bind_some,
        List.reverse_reverse]
  | object members, slots, h, rest => by
    rw [depth] at h
    rw [tokens, List.append_assoc, List.cons_append, List.singleton_append,
      run_beginObject (by omega)]
    split
    · rename_i hempty
      rw [hempty]
    · rename_i hne
      rw [run_memberTokens members (by omega) hne, List.append_nil, run, step, Option.bind_some,
        List.reverse_reverse]

/-- The tokens of some elements stand in an open array, where an element has to come. -/
theorem run_elementTokens : ∀ (elements : List Json) {done : List Json} {slots : List Slot},
    slots.length + 1 + depthOfElements elements ≤ maxDepth → elements ≠ [] →
    ∀ rest, run (value (.element done :: slots)) (elementTokens elements ++ rest) =
      run (afterElement (elements.reverse ++ done) slots) rest
  | [], done, slots, _, hne, rest => absurd rfl hne
  | [j], done, slots, h, _, rest => by
    rw [depthOfElements] at h
    rw [elementTokens, run_tokens j (by simp only [List.length_cons]; omega)]
    rfl
  | j :: k :: elements, done, slots, h, _, rest => by
    rw [depthOfElements] at h
    rw [elementTokens, List.append_assoc, run_tokens j (by simp only [List.length_cons]; omega),
      List.cons_append, fill, run, step, Option.bind_some,
      run_elementTokens (k :: elements) (by omega) nofun, List.reverse_cons (a := j),
      List.append_assoc, List.singleton_append]
    · exact nofun

/-- The tokens of some members stand in an open object, where a name has to come. -/
theorem run_memberTokens : ∀ (members : List (String × Json)) {done : List (String × Json)}
    {slots : List Slot},
    slots.length + 1 + depthOfMembers members ≤ maxDepth → members ≠ [] →
    ∀ rest, run (nextName done slots) (memberTokens members ++ rest) =
      run (afterMember (members.reverse ++ done) slots) rest
  | [], done, slots, _, hne, rest => absurd rfl hne
  | [(name, j)], done, slots, h, _, rest => by
    rw [depthOfMembers] at h
    rw [memberTokens, List.cons_append, List.cons_append, run, step, Option.bind_some, run, step,
      Option.bind_some, run_tokens j (by simp only [List.length_cons]; omega)]
    rfl
  | (name, j) :: m :: members, done, slots, h, _, rest => by
    rw [depthOfMembers] at h
    rw [memberTokens, List.append_assoc, List.cons_append, List.cons_append, run, step,
      Option.bind_some, run, step, Option.bind_some,
      run_tokens j (by simp only [List.length_cons]; omega), List.cons_append, fill, run, step,
      Option.bind_some, run_memberTokens (m :: members) (by omega) nofun,
      List.reverse_cons (a := (name, j)), List.append_assoc, List.singleton_append]
    · exact nofun

end

end ReaderState

/-- A tree without numbers reads from its text, if it is not too deep. -/
theorem read?_compact {j : Json} (hfree : NumberFree j) (hdepth : j.depth ≤ ReaderState.maxDepth) :
    read? j.compact = some j := by
  have hlex : ofChars? (compactChars j) = some (tokens j) := by
    have h := lexes_compactChars hfree []
    rw [List.append_nil, ofChars?, Option.map_some, List.append_nil] at h
    exact h
  have hrun : ReaderState.run (.value []) (tokens j) = some (.finished j) := by
    have hopen : ([] : List Slot).length + j.depth ≤ ReaderState.maxDepth := by simpa using hdepth
    have h := ReaderState.run_tokens j hopen []
    rw [List.append_nil] at h
    exact h
  rw [read?, compact, String.toList_ofList, hlex, Option.bind_some, hrun]

/-! ## What is read is not too deep -/

theorem depthOfElements_le_iff {n : Nat} : ∀ {elements : List Json},
    depthOfElements elements ≤ n ↔ ∀ j ∈ elements, j.depth ≤ n
  | [] => by simp [depthOfElements]
  | j :: rest => by
    rw [depthOfElements, Nat.max_le, depthOfElements_le_iff, List.forall_mem_cons]

theorem depthOfMembers_le_iff {n : Nat} : ∀ {members : List (String × Json)},
    depthOfMembers members ≤ n ↔ ∀ m ∈ members, m.2.depth ≤ n
  | [] => by simp [depthOfMembers]
  | (_, j) :: rest => by
    rw [depthOfMembers, Nat.max_le, depthOfMembers_le_iff, List.forall_mem_cons]

/-- The trees that stand before a place. -/
def Slot.before : Slot → List Json
  | element done => done
  | member done _ => done.map Prod.snd

/-- The slots are not too many, and neither are the levels of what stands in them. -/
def SlotsFit : List Slot → Prop
  | [] => True
  | slot :: slots =>
    slots.length < ReaderState.maxDepth ∧
      (∀ j ∈ slot.before, slots.length + 1 + j.depth ≤ ReaderState.maxDepth) ∧ SlotsFit slots

theorem SlotsFit.length_le {slots : List Slot} (h : SlotsFit slots) :
    slots.length ≤ ReaderState.maxDepth := by
  cases slots with
  | nil => exact Nat.zero_le _
  | cons slot slots => exact h.1

namespace ReaderState

/-- What a state keeps of the text so far fits into the levels that are allowed. -/
def Fits : ReaderState → Prop
  | value slots => SlotsFit slots
  | firstElement slots => SlotsFit (.element [] :: slots)
  | afterElement done slots => SlotsFit (.element done :: slots)
  | firstName slots => SlotsFit (.member [] "" :: slots)
  | nextName done slots => SlotsFit (.member done "" :: slots)
  | colon done name slots => SlotsFit (.member done name :: slots)
  | afterMember done slots => SlotsFit (.member done "" :: slots)
  | finished j => j.depth ≤ maxDepth

variable {slots : List Slot} {j : Json} {s s' : ReaderState} {t : Token}

/-- A value that is complete leaves room where it goes. -/
theorem fits_fill (h : SlotsFit slots) (hj : slots.length + j.depth ≤ maxDepth) :
    Fits (fill j slots) := by
  cases slots with
  | nil => simpa [fill, Fits] using hj
  | cons slot slots =>
    obtain ⟨hlength, hbefore, hslots⟩ := h
    rw [List.length_cons] at hj
    cases slot with
    | element done => exact ⟨hlength, List.forall_mem_cons.2 ⟨hj, hbefore⟩, hslots⟩
    | member done name => exact ⟨hlength, List.forall_mem_cons.2 ⟨hj, hbefore⟩, hslots⟩

/-- The end of an array leaves as many levels as there were. -/
theorem fits_fill_array {done : List Json} (h : SlotsFit (.element done :: slots)) :
    Fits (fill (.array done.reverse) slots) := by
  obtain ⟨hlength, hbefore, hslots⟩ := h
  have hdepth : depthOfElements done.reverse ≤ maxDepth - (slots.length + 1) := by
    refine depthOfElements_le_iff.2 fun j hj => ?_
    have hj := hbefore j (List.mem_reverse.1 hj)
    omega
  refine fits_fill hslots ?_
  rw [depth]
  omega

theorem fits_fill_object {done : List (String × Json)} {name : String}
    (h : SlotsFit (.member done name :: slots)) : Fits (fill (.object done.reverse) slots) := by
  obtain ⟨hlength, hbefore, hslots⟩ := h
  have hdepth : depthOfMembers done.reverse ≤ maxDepth - (slots.length + 1) := by
    refine depthOfMembers_le_iff.2 fun m hm => ?_
    have hm := hbefore m.2 (List.mem_map_of_mem (List.mem_reverse.1 hm))
    omega
  refine fits_fill hslots ?_
  rw [depth]
  omega

/-- A value that begins where there is room leaves a fitting reader. -/
theorem fits_start (h : SlotsFit slots) (hstart : start slots t = some s') : Fits s' := by
  have hlength := h.length_le
  cases t with
  | null | bool b | string s | number digits =>
    obtain rfl := Option.some.inj hstart
    exact fits_fill h (by simpa [depth] using hlength)
  | beginArray | beginObject =>
    simp only [start, Option.ite_none_right_eq_some, Option.some.injEq] at hstart
    obtain ⟨hlt, rfl⟩ := hstart
    exact ⟨hlt, nofun, h⟩
  | endArray | endObject | comma | colon => exact nomatch hstart

/-- One token keeps the levels within what is allowed. -/
theorem fits_step (h : Fits s) (hstep : step s t = some s') : Fits s' := by
  cases s with
  | value slots => exact fits_start h hstep
  | firstElement slots =>
    by_cases ht : t = .endArray
    · subst ht
      exact Option.some.inj hstep ▸ fits_fill_array h
    · rw [step] at hstep
      · exact fits_start h hstep
      · exact ht
  | afterElement done slots =>
    cases t with
    | comma => exact Option.some.inj hstep ▸ h
    | endArray => exact Option.some.inj hstep ▸ fits_fill_array h
    | _ => exact nomatch hstep
  | firstName slots =>
    cases t with
    | string s => exact Option.some.inj hstep ▸ h
    | endObject => exact Option.some.inj hstep ▸ fits_fill_object h
    | _ => exact nomatch hstep
  | nextName done slots =>
    cases t with
    | string s => exact Option.some.inj hstep ▸ h
    | _ => exact nomatch hstep
  | colon done name slots =>
    cases t with
    | colon => exact Option.some.inj hstep ▸ h
    | _ => exact nomatch hstep
  | afterMember done slots =>
    cases t with
    | comma => exact Option.some.inj hstep ▸ h
    | endObject => exact Option.some.inj hstep ▸ fits_fill_object h
    | _ => exact nomatch hstep
  | finished j => exact nomatch hstep

/-- Reading tokens keeps the reader fitting. -/
theorem fits_run {ts : List Token} (h : Fits s) (hrun : run s ts = some s') : Fits s' := by
  induction ts generalizing s with
  | nil => exact Option.some.inj hrun ▸ h
  | cons t ts ih =>
    obtain ⟨s₁, hstep, hrest⟩ := Option.bind_eq_some_iff.1 hrun
    exact ih (fits_step h hstep) hrest

end ReaderState

/-- A tree that was read from a text is not too deep. -/
theorem depth_le_of_read? {text : String} {j : Json} (h : read? text = some j) :
    j.depth ≤ ReaderState.maxDepth := by
  obtain ⟨ts, -, hread⟩ := Option.bind_eq_some_iff.1 h
  split at hread
  · rename_i j' hrun
    obtain rfl := Option.some.inj hread
    exact ReaderState.fits_run (s := .value []) trivial hrun
  · exact nomatch hread

end ItemStore.Json
