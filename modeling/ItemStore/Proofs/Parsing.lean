import Mathlib.Control.Monad.Basic
import ItemStore.Proofs.Grammar
import ItemStore.Query.Parser

/-!
# The parser reads the grammar

The parser takes one token at a time. The tokens of a derivation, read where a condition has to
come, add to the group what the derivation says (`run_disjunction`). Conversely, the tokens that
have led to a state are those of a derivation that stops where the state stands (`Reads`): every
step that goes well keeps that (`Reads.step`), and so does a run of steps (`Reads.run`). Main
statement: a text is a query if and only if its tokens have a derivation, and then it says what the
derivation says (`parse_derivations`).
-/

namespace ItemStore

namespace Query

open Grammar

/-! ## Runs of the parser -/

namespace ParserState

/-- Reads tokens, one after the other. -/
def run (s : ParserState) (ts : List Token) : Except SyntaxFault ParserState := ts.foldlM step s

theorem run_cons (s : ParserState) (t : Token) (ts : List Token) :
    s.run (t :: ts) = s.step t >>= fun s => s.run ts :=
  rfl

end ParserState

/-- Positions only say where a fault is. -/
theorem parseTokens_eq_ok_iff {textEnd : Nat} {s : ParserState} {lexemes : List Lexeme}
    {p : Predicate} : parseTokens textEnd s lexemes = .ok p ↔
      ∃ s', s.run (lexemes.map Lexeme.token) = .ok s' ∧ s'.finish = .ok p := by
  induction lexemes generalizing s with
  | nil =>
    have hrun : s.run [] = .ok s := rfl
    cases hfinish : s.finish <;> simp [parseTokens, hrun, hfinish, faultAt]
  | cons l rest ih =>
    rw [List.map_cons, ParserState.run_cons, parseTokens]
    cases s.step l.token with
    | error fault => simp [faultAt, bind, Except.bind]
    | ok s' => exact ih

/-! ## Reading a derivation -/

namespace Grammar

/-- The group after a conjunction. -/
def Conjunction.readInto (g : Group) : Conjunction → Group
  | .one p => g.push p.predicate
  | .and p rest => rest.readInto (g.push p.predicate)

/-- The group after a disjunction. -/
def Disjunction.readInto (g : Group) : Disjunction → Group
  | .one c => c.readInto g
  | .or c rest => rest.readInto (c.readInto g).endDisjunct

theorem Conjunction.readInto_eq : ∀ (c : Conjunction) (g : Group),
    c.readInto g = ⟨g.disjuncts, c.parts.reverse ++ g.conjuncts⟩
  | .one p, g => rfl
  | .and p rest, g => by
    rw [readInto, rest.readInto_eq, Conjunction.parts, List.reverse_cons, List.append_assoc]
    rfl

theorem Disjunction.endDisjunct_readInto : ∀ (d : Disjunction) (ps : List Predicate),
    (d.readInto ⟨ps, []⟩).endDisjunct.disjuncts = d.parts.reverse ++ ps
  | .one c, ps => by
    rw [readInto, c.readInto_eq, Group.endDisjunct, List.append_nil, List.reverse_reverse]
    rfl
  | .or c rest, ps => by
    have hfirst : (c.readInto ⟨ps, []⟩).endDisjunct = ⟨Predicate.conjoin c.parts :: ps, []⟩ := by
      rw [c.readInto_eq, Group.endDisjunct, List.append_nil, List.reverse_reverse]
    rw [readInto, hfirst, rest.endDisjunct_readInto, Disjunction.parts, List.reverse_cons,
      List.append_assoc]
    rfl

/-- A group that a disjunction fills says what the disjunction says. -/
theorem Disjunction.close_readInto (d : Disjunction) : (d.readInto {}).close = d.predicate := by
  rw [Group.close, d.endDisjunct_readInto, List.append_nil, List.reverse_reverse]
  rfl

end Grammar

namespace ParserState

variable (g : Group) (enclosing : List Group)

/-- The parser takes an entry of a map. -/
theorem run_entry (ps : List Predicate) (e : Entry) (us : List Token) :
    run ⟨.entryName ps, g, enclosing⟩ (e.tokens ++ us) =
      run ⟨.entryEnd (e.predicate :: ps), g, enclosing⟩ us := by
  obtain ⟨n, w⟩ := e
  cases n <;> cases w <;> rfl

/-- The parser takes the entries that are left and closes the map. -/
theorem run_moreTokens (ps : List Predicate) (es : List Entry) (us : List Token) :
    run ⟨.entryEnd ps, g, enclosing⟩ (moreTokens es ++ .closeMap :: us) =
      run ⟨.connective, g.push (.conjoin (ps.reverse ++ es.map Entry.predicate)), enclosing⟩
        us := by
  induction es generalizing ps with
  | nil =>
    rw [List.map_nil, List.append_nil]
    rfl
  | cons e es ih =>
    have hcomma : run ⟨.entryEnd ps, g, enclosing⟩ (moreTokens (e :: es) ++ .closeMap :: us) =
        run ⟨.entryName ps, g, enclosing⟩ (e.tokens ++ (moreTokens es ++ .closeMap :: us)) := by
      rw [moreTokens, List.flatMap_cons, List.append_assoc]
      rfl
    rw [hcomma, run_entry, ih, List.reverse_cons, List.append_assoc]
    rfl

mutual

/-- The parser takes what is derived, and adds its parts to the group. -/
theorem run_disjunction : ∀ (d : Disjunction) (g : Group) (enclosing : List Group)
    (us : List Token), run ⟨.condition, g, enclosing⟩ (d.tokens ++ us) =
      run ⟨.connective, d.readInto g, enclosing⟩ us
  | .one c, g, enclosing, us => run_conjunction c g enclosing us
  | .or c rest, g, enclosing, us => by
    rw [Disjunction.tokens, List.append_assoc, run_conjunction]
    exact run_disjunction rest _ enclosing us

theorem run_conjunction : ∀ (c : Conjunction) (g : Group) (enclosing : List Group)
    (us : List Token), run ⟨.condition, g, enclosing⟩ (c.tokens ++ us) =
      run ⟨.connective, c.readInto g, enclosing⟩ us
  | .one p, g, enclosing, us => run_primary p g enclosing us
  | .and p rest, g, enclosing, us => by
    rw [Conjunction.tokens, List.append_assoc, run_primary]
    exact run_conjunction rest _ enclosing us

theorem run_primary : ∀ (p : Primary) (g : Group) (enclosing : List Group) (us : List Token),
    run ⟨.condition, g, enclosing⟩ (p.tokens ++ us) =
      run ⟨.connective, g.push p.predicate, enclosing⟩ us
  | .group d, g, enclosing, us => by
    have hinner := run_disjunction d {} (g :: enclosing) (.closeGroup :: us)
    rw [Primary.tokens, List.cons_append, List.append_assoc]
    refine hinner.trans ?_
    show run ⟨.connective, g.push (d.readInto {}).close, enclosing⟩ us = _
    rw [d.close_readInto]
    rfl
  | .map first rest, g, enclosing, us => by
    have hfirst := run_entry g enclosing [] first (moreTokens rest ++ .closeMap :: us)
    rw [Primary.tokens, List.cons_append, List.append_assoc, List.append_assoc]
    refine hfirst.trans ?_
    rw [run_moreTokens]
    rfl
  | .compare field op w, g, enclosing, us => by
    cases w <;> rfl

end

end ParserState

/-! ## Only derivations are read -/

namespace Grammar

theorem Word.of_operand? {t : Token} {operand : Operand} (h : t.operand? = some operand) :
    ∃ w : Word, w.token = t ∧ w.operand = operand := by
  cases t with
  | positional index => exact ⟨.positional index, rfl, Option.some.inj h⟩
  | named name => exact ⟨.named name, rfl, Option.some.inj h⟩
  | text s => exact ⟨.text s, rfl, Option.some.inj h⟩
  | number digits => exact ⟨.number digits, rfl, Option.some.inj h⟩
  | null => exact ⟨.null, rfl, Option.some.inj h⟩
  | bool b => exact ⟨.bool b, rfl, Option.some.inj h⟩
  | _ => exact nomatch h

/-- Puts a condition and AND in front. -/
def Disjunction.after (p : Primary) : Disjunction → Disjunction
  | .one c => .one (.and p c)
  | .or c rest => .or (.and p c) rest

/-- Putting a condition and an AND in front puts their tokens in front. -/
theorem Disjunction.tokens_after (p : Primary) (d : Disjunction) :
    (d.after p).tokens = p.tokens ++ .and :: d.tokens := by
  cases d with
  | one c => rfl
  | or c rest =>
    rw [after, Disjunction.tokens, Conjunction.tokens, List.append_assoc]
    rfl

theorem Disjunction.readInto_after (p : Primary) (d : Disjunction) (g : Group) :
    (d.after p).readInto g = d.readInto (g.push p.predicate) := by
  cases d <;> rfl

/-- What has been read of a group when a condition has to come next. -/
inductive GroupReads : Group → List Token → Prop where
  | start : GroupReads {} []
  | and {g : Group} {ts : List Token} (before : GroupReads g ts) (p : Primary) :
    GroupReads (g.push p.predicate) (ts ++ p.tokens ++ [.and])
  | or {g : Group} {ts : List Token} (before : GroupReads g ts) (p : Primary) :
    GroupReads (g.push p.predicate).endDisjunct (ts ++ p.tokens ++ [.or])

/-- A disjunction completes what has been read of a group. -/
theorem GroupReads.completed {g : Group} {ts : List Token} (h : GroupReads g ts)
    (d : Disjunction) :
    ∃ d' : Disjunction, d'.tokens = ts ++ d.tokens ∧ d'.readInto {} = d.readInto g := by
  induction h generalizing d with
  | start => exact ⟨d, rfl, rfl⟩
  | and _ p ih =>
    obtain ⟨d', htokens, hinto⟩ := ih (d.after p)
    rw [d.tokens_after] at htokens
    rw [d.readInto_after] at hinto
    exact ⟨d', by simp [htokens], hinto⟩
  | or _ p ih =>
    obtain ⟨d', htokens, hinto⟩ := ih (.or (.one p) d)
    exact ⟨d', by simp [htokens, Disjunction.tokens, Conjunction.tokens], hinto⟩

/-- So does a single condition. -/
theorem GroupReads.closed {g : Group} {ts : List Token} (h : GroupReads g ts) (p : Primary) :
    ∃ d : Disjunction, d.tokens = ts ++ p.tokens ∧ d.predicate = (g.push p.predicate).close := by
  obtain ⟨d, htokens, hinto⟩ := h.completed (.one (.one p))
  refine ⟨d, htokens, ?_⟩
  rw [← d.close_readInto, hinto]
  rfl

/-- What has been read up to the group that is being read. -/
inductive EnclosingReads : List Group → List Token → Prop where
  | none : EnclosingReads [] []
  | group {g : Group} {gs : List Group} {ts us : List Token} (outer : EnclosingReads gs ts)
    (inner : GroupReads g us) : EnclosingReads (g :: gs) (ts ++ us ++ [.openGroup])

/-- What has been read of a map when an entry has to come next. -/
inductive EntriesRead : List Predicate → List Token → Prop where
  | none : EntriesRead [] [.openMap]
  | some (first : Entry) (rest : List Entry) :
    EntriesRead ((first :: rest).map Entry.predicate).reverse
      (.openMap :: (first.tokens ++ moreTokens rest ++ [.comma]))

/-- One more entry of a map was read. -/
theorem EntriesRead.entry {ps : List Predicate} {ts : List Token} (h : EntriesRead ps ts)
    (e : Entry) : ∃ first rest, ts ++ e.tokens = .openMap :: (first.tokens ++ moreTokens rest) ∧
      e.predicate :: ps = ((first :: rest).map Entry.predicate).reverse := by
  cases h with
  | none => exact ⟨e, [], by simp [moreTokens], rfl⟩
  | some first rest => exact ⟨first, rest ++ [e], by simp [moreTokens], by simp⟩

/-- What has been read since a condition had to come next, where a group was then and is now. -/
inductive PendingReads (g : Group) : Pending → Group → List Token → Prop where
  | condition : PendingReads g .condition g []
  | operator (field : String) : PendingReads g (.operator field) g [.name field]
  | operand (field : String) (op : CompareOp) :
    PendingReads g (.operand field op) g [.name field, .op op]
  | entryName {ps : List Predicate} {ts : List Token} (before : EntriesRead ps ts) :
    PendingReads g (.entryName ps) g ts
  | entryColon {ps : List Predicate} {ts : List Token} (before : EntriesRead ps ts)
    (n : EntryName) : PendingReads g (.entryColon ps n.field) g (ts ++ [n.token])
  | entryOperand {ps : List Predicate} {ts : List Token} (before : EntriesRead ps ts)
    (n : EntryName) : PendingReads g (.entryOperand ps n.field) g (ts ++ [n.token, .colon])
  | entryEnd (first : Entry) (rest : List Entry) :
    PendingReads g (.entryEnd ((first :: rest).map Entry.predicate).reverse) g
      (.openMap :: (first.tokens ++ moreTokens rest))
  | connective (p : Primary) : PendingReads g .connective (g.push p.predicate) p.tokens

end Grammar

namespace ParserState

/-- The tokens that have led to a state are those of a derivation that stops there. -/
inductive Reads (s : ParserState) (ts : List Token) : Prop where
  | intro {g : Group} {outer inner pending : List Token}
    (enclosing : EnclosingReads s.enclosing outer) (group : GroupReads g inner)
    (current : PendingReads g s.pending s.group pending)
    (tokens_eq : ts = outer ++ inner ++ pending)

theorem Reads.start : Reads {} [] := .intro .none .start .condition rfl

/-- Reading one more token keeps that there is such a derivation. -/
theorem Reads.step {s s' : ParserState} {ts : List Token} {t : Token} (h : s.Reads ts)
    (hstep : s.step t = .ok s') : s'.Reads (ts ++ [t]) := by
  obtain @⟨g, outer, inner, pending, henclosing, hgroup, hcurrent, rfl⟩ := h
  obtain ⟨awaited, current, enclosing⟩ := s
  cases hcurrent with
  | condition =>
    simp only [ParserState.step] at hstep
    split at hstep
    · obtain rfl := Except.ok.inj hstep
      exact .intro (henclosing.group hgroup) .start .condition (by simp)
    · obtain rfl := Except.ok.inj hstep
      exact .intro henclosing hgroup (.entryName .none) (by simp)
    · obtain rfl := Except.ok.inj hstep
      exact .intro henclosing hgroup (.operator _) (by simp)
    · cases hstep
  | operator field =>
    simp only [ParserState.step] at hstep
    split at hstep
    · obtain rfl := Except.ok.inj hstep
      exact .intro henclosing hgroup (.operand field _) (by simp)
    · cases hstep
  | operand field op =>
    simp only [ParserState.step] at hstep
    split at hstep
    · rename_i operand heq
      obtain ⟨w, rfl, rfl⟩ := Word.of_operand? heq
      obtain rfl := Except.ok.inj hstep
      exact .intro henclosing hgroup (.connective (.compare field op w)) (by simp [Primary.tokens])
    · cases hstep
  | entryName before =>
    simp only [ParserState.step] at hstep
    split at hstep
    · obtain rfl := Except.ok.inj hstep
      exact .intro henclosing hgroup (.entryColon before (.name _)) (List.append_assoc ..)
    · obtain rfl := Except.ok.inj hstep
      exact .intro henclosing hgroup (.entryColon before (.text _)) (List.append_assoc ..)
    · cases hstep
    · cases hstep
  | entryColon before n =>
    simp only [ParserState.step] at hstep
    split at hstep
    · obtain rfl := Except.ok.inj hstep
      exact .intro henclosing hgroup (.entryOperand before n) (by simp)
    · cases hstep
  | entryOperand before n =>
    simp only [ParserState.step] at hstep
    split at hstep
    · rename_i operand heq
      obtain ⟨w, rfl, rfl⟩ := Word.of_operand? heq
      obtain rfl := Except.ok.inj hstep
      obtain ⟨first, rest, htokens, hpredicates⟩ := before.entry ⟨n, w⟩
      have hend := PendingReads.entryEnd (g := current) first rest
      rw [← htokens, ← hpredicates] at hend
      exact .intro henclosing hgroup hend (by simp [Entry.tokens])
    · cases hstep
  | entryEnd first rest =>
    simp only [ParserState.step] at hstep
    split at hstep
    · obtain rfl := Except.ok.inj hstep
      exact .intro henclosing hgroup (.entryName (.some first rest)) (by simp)
    · obtain rfl := Except.ok.inj hstep
      rw [List.reverse_reverse]
      exact .intro henclosing hgroup (.connective (.map first rest)) (by simp [Primary.tokens])
    · cases hstep
  | connective p =>
    simp only [ParserState.step] at hstep
    split at hstep
    · obtain rfl := Except.ok.inj hstep
      exact .intro henclosing (hgroup.and p) .condition (by simp)
    · obtain rfl := Except.ok.inj hstep
      exact .intro henclosing (hgroup.or p) .condition (by simp)
    · rename_i around rest
      obtain rfl := Except.ok.inj hstep
      -- What is in the group is a whole query, and the group one condition of the group around it.
      obtain ⟨d, htokens, hpredicate⟩ := hgroup.closed p
      cases henclosing with
      | group houter hinner =>
        have hconnective := PendingReads.connective (g := around) (.group d)
        change PendingReads around .connective (around.push d.predicate) _ at hconnective
        rw [hpredicate] at hconnective
        exact .intro houter hinner hconnective (by simp [Primary.tokens, htokens])
    · cases hstep
    · cases hstep

/-- Reading tokens keeps that there is such a derivation. -/
theorem Reads.run {s s' : ParserState} {ts us : List Token} (h : s.Reads ts)
    (hrun : s.run us = .ok s') : s'.Reads (ts ++ us) := by
  induction us generalizing s ts with
  | nil =>
    obtain rfl := Except.ok.inj hrun
    rwa [List.append_nil]
  | cons t us ih =>
    rw [run_cons] at hrun
    cases hstep : s.step t with
    | error fault =>
      rw [hstep] at hrun
      cases hrun
    | ok middle =>
      rw [hstep] at hrun
      have hreads := ih (h.step hstep) hrun
      rwa [List.append_assoc] at hreads

/-- Where the text may end, its tokens are those of a query. -/
theorem Reads.finish {s : ParserState} {ts : List Token} {p : Predicate} (h : s.Reads ts)
    (hfinish : s.finish = .ok p) : ∃ d : Disjunction, d.tokens = ts ∧ d.predicate = p := by
  obtain @⟨g, outer, inner, pending, henclosing, hgroup, hcurrent, rfl⟩ := h
  obtain ⟨awaited, current, enclosing⟩ := s
  cases hcurrent with
  | connective q =>
    simp only [ParserState.finish] at hfinish
    split at hfinish
    · obtain rfl := Except.ok.inj hfinish
      cases henclosing
      exact hgroup.closed q
    · cases hfinish
  | _ => cases hfinish

end ParserState

/-! ## Queries -/

namespace Grammar

/-- Tokens are those of a query if and only if the parser takes all of them. -/
theorem run_finish_iff {ts : List Token} {p : Predicate} :
    (∃ s, ParserState.run {} ts = .ok s ∧ s.finish = .ok p) ↔
      ∃ d : Disjunction, d.tokens = ts ∧ d.predicate = p := by
  constructor
  · rintro ⟨s, hrun, hfinish⟩
    exact (ParserState.Reads.start.run hrun).finish hfinish
  · rintro ⟨d, rfl, rfl⟩
    have hrun := ParserState.run_disjunction d {} [] []
    rw [List.append_nil] at hrun
    exact ⟨_, hrun, congrArg Except.ok d.close_readInto⟩

theorem Disjunction.tokens_ne_nil (d : Disjunction) : d.tokens ≠ [] := by
  intro h
  have hrun := ParserState.run_disjunction d {} [] []
  rw [h] at hrun
  exact nomatch Except.ok.inj hrun

end Grammar

/-- A text is parsed to a predicate just when its tokens have a derivation that says it. -/
theorem parse_eq_ok_iff {text : String} {p : Predicate} :
    parse text = .ok p ↔ ∃ lexemes, lex text = .ok lexemes ∧
      ∃ d : Disjunction, d.tokens = lexemes.map Lexeme.token ∧ d.predicate = p := by
  cases h : lex text with
  | error e => simp [parse, h, bind, Except.bind]
  | ok lexemes =>
    cases lexemes with
    | nil => simp [parse, h, bind, Except.bind, Disjunction.tokens_ne_nil]
    | cons l rest =>
      have hparse : parse text = parseTokens text.utf8ByteSize {} (l :: rest) := by
        rw [parse, h]
        rfl
      rw [hparse, parseTokens_eq_ok_iff, run_finish_iff]
      simp

/-- The parser takes what the grammar derives, and nothing else: a text is a query if and only if
its tokens are those of a derivation, and then it says what that derivation says. Tokens have one
derivation at most. What a derivation says is flat, with its comparisons in the order of the text.
A text that cannot be read as tokens fails with the fault that is found there. -/
theorem parse_derivations (text : String) :
    (∀ p, parse text = .ok p ↔ ∃ lexemes, lex text = .ok lexemes ∧
      ∃ d : Disjunction, d.tokens = lexemes.map Lexeme.token ∧ d.predicate = p) ∧
      (∀ d d' : Disjunction, d.tokens = d'.tokens → d = d') ∧
      (∀ d : Disjunction, d.predicate.Flat ∧ d.predicate.comparisons = d.comparisons) ∧
      ∀ e, lex text = .error e → parse text = .error e := by
  refine ⟨fun _ => parse_eq_ok_iff, fun _ _ => Disjunction.tokens_inj,
    fun d => ⟨d.flat_predicate, d.comparisons_predicate⟩, fun e h => ?_⟩
  rw [parse, h]
  rfl

end Query

/-! ## A query on readings -/

namespace Sample

open Query Query.Grammar

/-- The derivation of a query with a map and a group that add to one conjunction. -/
def coldOrLate : Disjunction :=
  .or (.one (.compare "value" .lt (.number "0")))
    (.one (.and (.map ⟨.name "sensor", .positional 1⟩ [⟨.text "unit", .text "C"⟩])
      (.one (.group (.one (.one (.compare "time" .ge (.named "from"))))))))

/-- A map between an OR and an AND, with parameters of both kinds. -/
theorem parse_derivations_cold :
    parse "value < 0 OR \x7bsensor: ?1, 'unit': 'C'\x7d AND (time >= :from)" =
      .ok (.or [.compare ⟨"value", .lt, .literal (.number "0")⟩,
        .and [.compare ⟨"sensor", .eq, .placeholder (.positional 1)⟩,
          .compare ⟨"unit", .eq, .literal (.text "C")⟩,
          .compare ⟨"time", .ge, .placeholder (.named "from")⟩]]) ∧
      coldOrLate.predicate.Flat ∧ parse "value < 'x" = .error ⟨8, .unterminatedText⟩ := by
  have hlex : lex "value < 0 OR \x7bsensor: ?1, 'unit': 'C'\x7d AND (time >= :from)" =
      .ok [⟨.name "value", 0⟩, ⟨.op .lt, 6⟩, ⟨.number "0", 8⟩, ⟨.or, 10⟩, ⟨.openMap, 13⟩,
        ⟨.name "sensor", 14⟩, ⟨.colon, 20⟩, ⟨.positional 1, 22⟩, ⟨.comma, 24⟩, ⟨.text "unit", 26⟩,
        ⟨.colon, 32⟩, ⟨.text "C", 34⟩, ⟨.closeMap, 37⟩, ⟨.and, 39⟩, ⟨.openGroup, 43⟩,
        ⟨.name "time", 44⟩, ⟨.op .ge, 49⟩, ⟨.named "from", 52⟩, ⟨.closeGroup, 57⟩] := by
    decide +kernel
  have hunterminated : lex "value < 'x" = .error ⟨8, .unterminatedText⟩ := by
    decide +kernel
  exact ⟨((parse_derivations _).1 _).2 ⟨_, hlex, coldOrLate, rfl, rfl⟩,
    ((parse_derivations "").2.2.1 coldOrLate).1, (parse_derivations _).2.2.2 _ hunterminated⟩

end Sample

end ItemStore
