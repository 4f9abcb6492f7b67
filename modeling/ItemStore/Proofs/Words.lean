import Mathlib.Data.List.SplitBy
import ItemStore.Query.Expression

/-!
# The words of an expression

A remote store takes the text of an expression apart into words: aliases, placeholders, operators,
keywords and punctuation marks. A word is a run of characters of one kind, and blanks only set words
apart. `Written` says that a text consists of certain words, with no blank at its ends. Such texts
can be put together (`Written.space`, `Written.group`, `Written.comma`), and aliases, placeholders
and the words of the language are written as themselves.
-/

namespace ItemStore.Remote

open Query

/-- The words of the expressions that a remote store reads. -/
inductive Word where
  | name (label : String)
  | value (placeholder : String)
  | op (o : CompareOp)
  | and
  | or
  | openGroup
  | closeGroup
  | set
  | remove
  | comma
  | other (text : String)
  deriving DecidableEq

/-- The words that stand for themselves. -/
def vocabulary : List (String × Word) :=
  [("AND", .and), ("OR", .or), ("SET", .set), ("REMOVE", .remove), ("(", .openGroup),
    (")", .closeGroup), (",", .comma), ("=", .op .eq), ("<>", .op .ne), ("<", .op .lt),
    ("<=", .op .le), (">", .op .gt), (">=", .op .ge)]

/-- What a character can be in a word. -/
inductive CharKind where
  | blank
  | sign
  | mark
  | letter
  deriving DecidableEq

/-- The kind of a character. -/
def charKind (c : Char) : CharKind :=
  if [' ', '\t', '\n'].contains c then .blank
  else if ['=', '<', '>'].contains c then .sign
  else if ['(', ')', ','].contains c then .mark
  else .letter

/-- Whether two neighbours belong to one word. A punctuation mark is a word by itself. -/
def joins (c d : Char) : Bool := charKind c == charKind d && charKind c != .mark

/-- The word that is written with some characters, which are not blank. -/
def wordOf (cs : List Char) : Word :=
  match cs with
  | '#' :: _ => .name (String.ofList cs)
  | ':' :: _ => .value (String.ofList cs)
  | _ => match vocabulary.find? fun e => e.1 == String.ofList cs with
    | some e => e.2
    | none => .other (String.ofList cs)

/-- The words of some characters: runs that belong together, without the blanks. -/
def wordsOf (cs : List Char) : List Word :=
  ((cs.splitBy joins).filter fun run => !run.all fun c => charKind c == .blank).map wordOf

/-- The words of a text. -/
def words (text : String) : List Word := wordsOf text.toList

/-! ## Words of parts -/

/-- The words of characters put together are those of both, if no word goes across. -/
theorem wordsOf_append {cs ds : List Char}
    (h : ∀ c ∈ cs.getLast?, ∀ d ∈ ds.head?, joins c d = false) :
    wordsOf (cs ++ ds) = wordsOf cs ++ wordsOf ds := by
  rw [wordsOf, List.splitBy_append h, List.filter_append, List.map_append, wordsOf, wordsOf]

theorem joins_eq_false {c d : Char} (h : charKind c ≠ charKind d) : joins c d = false := by
  simp [joins, h]

theorem joins_mark_left {c : Char} (hc : charKind c = .mark) (d : Char) : joins c d = false := by
  simp [joins, hc]

theorem joins_mark_right (c : Char) {d : Char} (hd : charKind d = .mark) : joins c d = false := by
  by_cases h : charKind c = charKind d
  · exact joins_mark_left (h.trans hd) d
  · exact joins_eq_false h

/-- A punctuation mark ends the word before it. -/
theorem wordsOf_append_mark {d : Char} (hd : charKind d = .mark) (cs ds : List Char) :
    wordsOf (cs ++ d :: ds) = wordsOf cs ++ wordsOf (d :: ds) := by
  refine wordsOf_append fun c _ d' hd' => ?_
  obtain rfl := Option.some.inj hd'
  exact joins_mark_right c hd

/-- A punctuation mark is a word by itself. -/
theorem wordsOf_mark {d : Char} (hd : charKind d = .mark) (ds : List Char) :
    wordsOf (d :: ds) = wordsOf [d] ++ wordsOf ds := by
  show wordsOf ([d] ++ ds) = _
  refine wordsOf_append fun c hc d' _ => ?_
  obtain rfl := Option.some.inj hc
  exact joins_mark_left hd d'

/-- Letters without a break are one word. -/
theorem wordsOf_letters {cs : List Char} (hne : cs ≠ []) (h : ∀ c ∈ cs, charKind c = .letter) :
    wordsOf cs = [wordOf cs] := by
  have hchain : cs.IsChain fun c d => joins c d = true := by
    refine List.Pairwise.isChain (List.pairwise_of_forall_mem_list fun c hc d hd => ?_)
    simp [joins, h c hc, h d hd]
  have hblank : (cs.all fun c => charKind c == .blank) = false := by
    rw [List.all_eq_false]
    obtain ⟨c, hc⟩ := List.exists_mem_of_ne_nil cs hne
    exact ⟨c, hc, by simp [h c hc]⟩
  simp [wordsOf, List.splitBy_of_isChain hne hchain, hblank]

theorem charKind_blank : charKind ' ' = .blank := by
  decide

/-- Whether there is a character, and it is not blank. -/
def isSolid (c : Option Char) : Bool := c.any fun c => charKind c != .blank

theorem joins_blank_right {c : Char} (h : isSolid (some c) = true) : joins c ' ' = false := by
  refine joins_eq_false fun heq => ?_
  simp [isSolid, heq, charKind_blank] at h

theorem joins_blank_left {d : Char} (h : isSolid (some d) = true) : joins ' ' d = false := by
  refine joins_eq_false fun heq => ?_
  simp [isSolid, ← heq, charKind_blank] at h

/-- A text consists of these words, and there is no blank at its ends. -/
structure Written (text : String) (ws : List Word) : Prop where
  words : words text = ws
  first : isSolid text.toList.head? = true
  last : isSolid text.toList.getLast? = true

namespace Written

variable {a b : String} {v w : List Word}

/-- A blank after a text belongs to none of its words. -/
theorem wordsOf_append_blank (h : Written a v) (ds : List Char) :
    wordsOf (a.toList ++ ' ' :: ds) = v ++ wordsOf (' ' :: ds) := by
  rw [wordsOf_append, ← h.words]
  · rfl
  · intro c hc d hd
    obtain rfl := Option.some.inj hd
    exact joins_blank_right (hc ▸ h.last)

/-- Neither does a blank before it. -/
theorem wordsOf_cons_blank (h : Written b w) : wordsOf (' ' :: b.toList) = w := by
  show wordsOf ([' '] ++ b.toList) = _
  rw [wordsOf_append]
  · exact h.words
  · intro c hc d hd
    obtain rfl := Option.some.inj hc
    exact joins_blank_left (hd ▸ h.first)

theorem head?_append (h : Written a v) (ds : List Char) :
    (a.toList ++ ds).head? = a.toList.head? := by
  rw [List.head?_append]
  cases ha : a.toList.head? with
  | some c => rfl
  | none =>
    have hfirst := h.first
    rw [ha] at hfirst
    exact nomatch hfirst

theorem getLast?_append (h : Written b w) (cs : List Char) :
    (cs ++ b.toList).getLast? = b.toList.getLast? := by
  rw [List.getLast?_append]
  cases hb : b.toList.getLast? with
  | some c => rfl
  | none =>
    have hlast := h.last
    rw [hb] at hlast
    exact nomatch hlast

/-- Words are set apart by a blank. -/
theorem space (ha : Written a v) (hb : Written b w) : Written (a ++ " " ++ b) (v ++ w) := by
  have hchars : (a ++ " " ++ b).toList = a.toList ++ ' ' :: b.toList := by
    simp
  have hcons : ' ' :: b.toList = [' '] ++ b.toList := rfl
  refine ⟨?_, ?_, ?_⟩
  · rw [Remote.words, hchars, ha.wordsOf_append_blank, hb.wordsOf_cons_blank]
  · rw [hchars, ha.head?_append]
    exact ha.first
  · rw [hchars, hcons, ← List.append_assoc, hb.getLast?_append]
    exact hb.last

/-- A word between blanks joins a text to those after it. -/
theorem intercalate {sep between : String} {u : List Word} {texts : List String}
    (hbetween : between = " " ++ sep ++ " ") (ha : Written a v) (hsep : Written sep u)
    (hb : Written (between.intercalate (b :: texts)) w) :
    Written (between.intercalate (a :: b :: texts)) (v ++ u ++ w) := by
  have htext : between.intercalate (a :: b :: texts) =
      a ++ " " ++ sep ++ " " ++ between.intercalate (b :: texts) := by
    rw [String.intercalate_cons_cons, hbetween]
    simp only [String.append_assoc]
  rw [htext]
  exact (ha.space hsep).space hb

/-- Parentheses are words by themselves, whatever is in them. -/
theorem parentheses (text : String) :
    Written ("(" ++ text ++ ")") (.openGroup :: Remote.words text ++ [.closeGroup]) := by
  have hchars : ("(" ++ text ++ ")").toList = '(' :: (text.toList ++ [')']) := by
    simp
  refine ⟨?_, ?_, ?_⟩
  · rw [Remote.words, hchars, wordsOf_mark (by decide), wordsOf_append_mark (by decide)]
    rfl
  · rw [hchars]
    rfl
  · rw [hchars, ← List.cons_append, List.getLast?_concat]
    rfl

theorem group (ha : Written a v) :
    Written ("(" ++ a ++ ")") (.openGroup :: v ++ [.closeGroup]) :=
  ha.words ▸ parentheses a

/-- A comma stands close to what is before it. -/
theorem comma (ha : Written a v) (hb : Written b w) :
    Written (a ++ ", " ++ b) (v ++ .comma :: w) := by
  have hchars : (a ++ ", " ++ b).toList = a.toList ++ ',' :: ' ' :: b.toList := by
    simp
  have hcons : ',' :: ' ' :: b.toList = [',', ' '] ++ b.toList := rfl
  refine ⟨?_, ?_, ?_⟩
  · rw [Remote.words, hchars, wordsOf_append_mark (by decide), wordsOf_mark (by decide),
      hb.wordsOf_cons_blank, ← Remote.words, ha.words]
    rfl
  · rw [hchars, ha.head?_append]
    exact ha.first
  · rw [hchars, hcons, ← List.append_assoc, hb.getLast?_append]
    exact hb.last

/-- A word of the language is written as itself. -/
theorem of_vocabulary {text : String} {word : Word} (h : (text, word) ∈ vocabulary) :
    Written text [word] := by
  have hall : ∀ e ∈ vocabulary, Remote.words e.1 = [e.2] ∧ isSolid e.1.toList.head? = true ∧
      isSolid e.1.toList.getLast? = true := by
    decide
  obtain ⟨hwords, hfirst, hlast⟩ := hall _ h
  exact ⟨hwords, hfirst, hlast⟩

theorem symbol (o : CompareOp) : Written o.symbol [.op o] := by
  cases o <;> exact of_vocabulary (by decide)

/-- A text of letters is one word. -/
theorem of_letters {text : String} (hne : text.toList ≠ [])
    (h : ∀ c ∈ text.toList, charKind c = .letter) : Written text [wordOf text.toList] := by
  refine ⟨wordsOf_letters hne h, ?_, ?_⟩
  · rw [List.head?_eq_some_head hne]
    simp [isSolid, h _ (List.head_mem hne)]
  · rw [List.getLast?_eq_some_getLast hne]
    simp [isSolid, h _ (List.getLast_mem hne)]

theorem charKind_of_isDigit {c : Char} (h : c.isDigit = true) : charKind c = .letter := by
  let others := [' ', '\t', '\n', '=', '<', '>', '(', ')', ',']
  have hdigit : (others.all fun d => !d.isDigit) = true := by
    decide
  have hnot : ∀ d ∈ others, c ≠ d := by
    rintro d hd rfl
    simpa [h] using List.all_eq_true.1 hdigit c hd
  simp only [others, List.forall_mem_cons] at hnot
  simp [charKind, hnot]

/-- Letters with a number after them are one word. -/
theorem numbered {start : String} (hne : start.toList ≠ [])
    (h : (start.toList.all fun c => charKind c == .letter) = true) (i : Nat) :
    Written (start ++ toString i) [wordOf (start.toList ++ (toString i).toList)] := by
  rw [← String.toList_append]
  refine of_letters (by simp [hne]) ?_
  rw [String.toList_append, List.forall_mem_append]
  refine ⟨fun c hc => eq_of_beq (List.all_eq_true.1 h c hc), fun c hc => ?_⟩
  rw [Nat.toString_eq_ofList_toDigits, String.toList_ofList] at hc
  exact charKind_of_isDigit (Nat.isDigit_of_mem_toDigits (by decide) (by decide) hc)

/-- The alias of a field is one word, a name. -/
theorem fieldAlias (i : Nat) : Written (Aliases.fieldAlias i) [.name (Aliases.fieldAlias i)] := by
  have hword : wordOf ("#f".toList ++ (toString i).toList) = .name (Aliases.fieldAlias i) := by
    show Word.name (String.ofList ("#f".toList ++ (toString i).toList)) = _
    rw [String.ofList_append, String.ofList_toList, String.ofList_toList, Aliases.fieldAlias]
  rw [← hword]
  exact numbered (by decide) (by decide) i

/-- The placeholder of a value is one word. -/
theorem valueAlias (i : Nat) : Written (Aliases.valueAlias i) [.value (Aliases.valueAlias i)] := by
  have hword : wordOf (":v".toList ++ (toString i).toList) = .value (Aliases.valueAlias i) := by
    show Word.value (String.ofList (":v".toList ++ (toString i).toList)) = _
    rw [String.ofList_append, String.ofList_toList, String.ofList_toList, Aliases.valueAlias]
  rw [← hword]
  exact numbered (by decide) (by decide) i

end Written

end ItemStore.Remote
