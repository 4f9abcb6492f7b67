import ItemStore.Value.Json

/-!
# Bytes through base64

The text of some bytes is full groups of three bytes in four symbols, and a last group that is
filled up with padding (`Groups`). Decoding goes through the groups one by one, and so it gives back
the bytes that were encoded (`decode_encode`), as reading a binary value does.
-/

namespace ItemStore.Text

theorem bytes_append (cs ds : List Char) : bytes (cs ++ ds) = bytes cs ++ bytes ds :=
  List.flatMap_append

namespace Base64

/-! ## Symbols -/

/-- The ASCII bytes of the symbols of some numbers. -/
def symbolBytes (ns : List Nat) : List UInt8 :=
  ns.map fun n => UInt8.ofNat (symbol n).toNat

/-- A symbol is one byte, which says the number of the symbol and is no padding. -/
theorem symbol_spec : ∀ n < 64,
    String.utf8EncodeChar (symbol n) = [UInt8.ofNat (symbol n).toNat] ∧
      sextet? (UInt8.ofNat (symbol n).toNat) = some n ∧ UInt8.ofNat (symbol n).toNat ≠ pad := by
  decide +kernel

variable {ns : List Nat} {offset : Nat}

theorem bytes_symbols (h : ∀ n ∈ ns, n < 64) : bytes (ns.map symbol) = symbolBytes ns := by
  induction ns with
  | nil => rfl
  | cons n ns ih =>
    obtain ⟨hn, hns⟩ := List.forall_mem_cons.1 h
    show String.utf8EncodeChar (symbol n) ++ bytes (ns.map symbol) = _
    rw [ih hns, (symbol_spec n hn).1]
    rfl

/-- Reading symbols gives their numbers. -/
theorem sextets_symbolBytes (h : ∀ n ∈ ns, n < 64) : sextets offset (symbolBytes ns) = .ok ns := by
  induction ns generalizing offset with
  | nil => rfl
  | cons n ns ih =>
    obtain ⟨hn, hns⟩ := List.forall_mem_cons.1 h
    show sextets offset (UInt8.ofNat (symbol n).toNat :: symbolBytes ns) = .ok (n :: ns)
    rw [sextets, (symbol_spec n hn).2.1, ih hns]
    rfl

theorem ne_pad_of_mem_symbolBytes (h : ∀ n ∈ ns, n < 64) : ∀ b ∈ symbolBytes ns, b ≠ pad := by
  intro b hb
  obtain ⟨n, hn, rfl⟩ := List.mem_map.1 hb
  exact (symbol_spec n (h n hn)).2.2

/-! ## Groups -/

/-- Numbers of symbols that stand for some bytes: one more than there are bytes, with no bit left
over. -/
structure Group (bs : List UInt8) (ns : List Nat) : Prop where
  lt : ∀ n ∈ ns, n < 64
  length : ns.length = bs.length + 1
  gives : groupBytes ns = (bs, 0)

/-- One byte makes two symbols. -/
theorem group_one (a : UInt8) : Group [a] [a.toNat * 16 / 64, a.toNat * 16 % 64] := by
  have ha := a.toNat_lt
  refine ⟨?_, rfl, ?_⟩
  · simp only [List.forall_mem_cons, List.not_mem_nil, false_imp_iff, implies_true, and_true]
    omega
  · have hn : a.toNat * 16 / 64 * 64 + a.toNat * 16 % 64 = a.toNat * 16 := by omega
    simp only [groupBytes, hn]
    rw [Nat.mul_div_cancel _ (by decide), Nat.mul_mod_left, UInt8.ofNat_toNat]

/-- Two bytes make three symbols. -/
theorem group_two (a b : UInt8) :
    let n := (a.toNat * 256 + b.toNat) * 4
    Group [a, b] [n / 4096, n / 64 % 64, n % 64] := by
  intro n
  have ha := a.toNat_lt
  have hb := b.toNat_lt
  refine ⟨?_, rfl, ?_⟩
  · simp only [List.forall_mem_cons, List.not_mem_nil, false_imp_iff, implies_true, and_true]
    omega
  · have hn : (n / 4096 * 64 + n / 64 % 64) * 64 + n % 64 = n := by omega
    have hfirst : n / 1024 = a.toNat := by omega
    have hsecond : n / 4 % 256 = b.toNat := by omega
    have hleft : n % 4 = 0 := by omega
    simp only [groupBytes, hn, hfirst, hsecond, hleft, UInt8.ofNat_toNat]

/-- Three bytes make four symbols. -/
theorem group_three (a b c : UInt8) :
    let n := (a.toNat * 256 + b.toNat) * 256 + c.toNat
    Group [a, b, c] [n / 262144, n / 4096 % 64, n / 64 % 64, n % 64] := by
  intro n
  have ha := a.toNat_lt
  have hb := b.toNat_lt
  have hc := c.toNat_lt
  refine ⟨?_, rfl, ?_⟩
  · simp only [List.forall_mem_cons, List.not_mem_nil, false_imp_iff, implies_true, and_true]
    omega
  · have hn : ((n / 262144 * 64 + n / 4096 % 64) * 64 + n / 64 % 64) * 64 + n % 64 = n := by omega
    have hfirst : n / 65536 = a.toNat := by omega
    have hsecond : n / 256 % 256 = b.toNat := by omega
    have hthird : n % 256 = c.toNat := by omega
    simp only [groupBytes, hn, hfirst, hsecond, hthird, UInt8.ofNat_toNat]

/-- The last group is padded. -/
theorem Group.decodeLast {bs : List UInt8} (h : Group bs ns) (hne : bs ≠ []) (hle : bs.length ≤ 3) :
    decodeLast offset (symbolBytes ns ++ List.replicate (3 - bs.length) pad) = .ok bs := by
  have hpos := List.length_pos_iff.2 hne
  have hlength : (symbolBytes ns).length = bs.length + 1 := by
    rw [symbolBytes, List.length_map, h.length]
  have htake : (symbolBytes ns ++ List.replicate (3 - bs.length) pad).takeWhile (· != pad) =
      symbolBytes ns := by
    rw [List.takeWhile_append_of_pos (by simpa using ne_pad_of_mem_symbolBytes h.lt)]
    cases 3 - bs.length <;> simp [List.replicate_succ]
  have hpadding : (List.replicate (3 - bs.length) pad).any (· != pad) = false := by
    simp [List.any_replicate]
  have hnil : (symbolBytes ns ++ List.replicate (3 - bs.length) pad).isEmpty = false := by
    cases hns : symbolBytes ns with
    | nil => simp [hns] at hlength
    | cons b rest => rfl
  have hmany : ¬(symbolBytes ns).length < 2 := by omega
  have hfour : (symbolBytes ns ++ List.replicate (3 - bs.length) pad).length % 4 = 0 := by
    rw [List.length_append, List.length_replicate, hlength]
    omega
  unfold Base64.decodeLast
  simp only [htake, List.drop_left, sextets_symbolBytes h.lt, hpadding, hnil, hmany, hfour, h.gives,
    decide_false, Bool.and_false, Bool.false_eq_true, if_false, ne_eq, not_true_eq_false]

/-- A text of at most four symbols is its own last group. -/
theorem decodeFrom_of_le {group : List UInt8} (h : group.length ≤ 4) :
    decodeFrom offset group = decodeLast offset group := by
  match group, h with
  | [], _ | [_], _ | [_, _], _ | [_, _, _], _ | [_, _, _, _], _ => rfl

/-- A group at the end, with its padding. -/
theorem Group.decodeFrom_last {bs : List UInt8} (h : Group bs ns) (hne : bs ≠ [])
    (hle : bs.length ≤ 3) :
    decodeFrom offset (symbolBytes ns ++ List.replicate (3 - bs.length) pad) = .ok bs := by
  rw [decodeFrom_of_le, h.decodeLast hne hle]
  rw [List.length_append, symbolBytes, List.length_map, h.length, List.length_replicate]
  omega

/-- A full group with others after it. -/
theorem Group.decodeFrom_append {bs : List UInt8} (h : Group bs ns) (hfull : bs.length = 3)
    {text : List UInt8} (hne : text ≠ []) :
    decodeFrom offset (symbolBytes ns ++ text) =
      (decodeFrom (offset + 4) text).map (bs ++ ·) := by
  obtain ⟨w, x, y, z, rfl⟩ : ∃ w x y z, ns = [w, x, y, z] := by
    have hlength := h.length
    rw [hfull] at hlength
    match ns, hlength with
    | [w, x, y, z], _ => exact ⟨w, x, y, z, rfl⟩
  obtain ⟨b, rest, rfl⟩ := List.exists_cons_of_ne_nil hne
  have hsextets : sextets offset (symbolBytes [w, x, y, z]) = .ok [w, x, y, z] :=
    sextets_symbolBytes h.lt
  simp only [symbolBytes, List.map_cons, List.map_nil] at hsextets
  simp only [symbolBytes, List.map_cons, List.map_nil, List.cons_append, List.nil_append]
  rw [Base64.decodeFrom, hsextets]
  simp only [h.gives]

/-! ## Texts -/

/-- The encoding of bytes: full groups, and a last one with padding. -/
inductive Groups : List UInt8 → List UInt8 → Prop where
  | last {bs : List UInt8} {ns : List Nat} (h : Group bs ns) (hne : bs ≠ []) (hle : bs.length ≤ 3) :
    Groups bs (symbolBytes ns ++ List.replicate (3 - bs.length) pad)
  | full {bs rest text : List UInt8} {ns : List Nat} (h : Group bs ns) (hfull : bs.length = 3)
    (hrest : Groups rest text) : Groups (bs ++ rest) (symbolBytes ns ++ text)

theorem bytes_padding (count : Nat) :
    bytes (List.replicate count '=') = List.replicate count pad := by
  induction count with
  | zero => rfl
  | succ count ih =>
    show String.utf8EncodeChar '=' ++ bytes (List.replicate count '=') = _
    rw [ih]
    rfl

/-- A group at the end of an encoding. -/
theorem Group.groups_last {bs : List UInt8} (h : Group bs ns) (hne : bs ≠ [])
    (hle : bs.length ≤ 3) :
    Groups bs (bytes (ns.map symbol ++ List.replicate (3 - bs.length) '=')) := by
  rw [bytes_append, bytes_symbols h.lt, bytes_padding]
  exact .last h hne hle

/-- A full group before others. -/
theorem Group.groups_full {bs rest : List UInt8} {cs : List Char} (h : Group bs ns)
    (hfull : bs.length = 3) (hrest : Groups rest (bytes cs)) :
    Groups (bs ++ rest) (bytes (ns.map symbol ++ cs)) := by
  rw [bytes_append, bytes_symbols h.lt]
  exact .full h hfull hrest

/-- What is written stands in groups of four symbols. -/
theorem groups_encode : ∀ {bs : List UInt8}, bs ≠ [] → Groups bs (bytes (encode bs))
  | [a], _ => (group_one a).groups_last (by simp) (by simp)
  | [a, b], _ => (group_two a b).groups_last (by simp) (by simp)
  | [a, b, c], _ => (group_three a b c).groups_last (by simp) (by simp)
  | a :: b :: c :: d :: rest, _ =>
    (group_three a b c).groups_full rfl (groups_encode (List.cons_ne_nil d rest))

namespace Groups

variable {bs text : List UInt8}

theorem length_mod (h : Groups bs text) : text.length % 4 = 0 := by
  induction h with
  | last h hne hle =>
    have hpos := List.length_pos_iff.2 hne
    rw [List.length_append, symbolBytes, List.length_map, h.length, List.length_replicate]
    omega
  | full h hfull _ ih =>
    rw [List.length_append, symbolBytes, List.length_map, h.length, hfull]
    omega

theorem ne_nil (h : Groups bs text) : text ≠ [] := by
  -- Whatever follows, a group has a symbol.
  have hsymbols {bs : List UInt8} {ns : List Nat} (h : Group bs ns) (more : List UInt8) :
      symbolBytes ns ++ more ≠ [] := by
    intro hnil
    have hlength := congrArg List.length hnil
    rw [List.length_append, symbolBytes, List.length_map, h.length, List.length_nil] at hlength
    omega
  cases h with
  | last h _ _ => exact hsymbols h _
  | full h _ _ => exact hsymbols h _

/-- Groups are read to the bytes that they stand for. -/
theorem decodeFrom (h : Groups bs text) (offset : Nat) : decodeFrom offset text = .ok bs := by
  induction h generalizing offset with
  | last h hne hle => exact h.decodeFrom_last hne hle
  | full h hfull hrest ih =>
    rw [h.decodeFrom_append hfull hrest.ne_nil, ih]
    rfl

end Groups

/-- What is encoded is read back. -/
theorem decode_encode (bs : List UInt8) : decode (bytes (encode bs)) = .ok bs := by
  cases bs with
  | nil => rfl
  | cons a rest =>
    have h := groups_encode (List.cons_ne_nil a rest)
    obtain ⟨b, hb⟩ := Option.ne_none_iff_exists'.1 (mt List.getLast?_eq_none_iff.1 h.ne_nil)
    -- No character is left over.
    rw [decode, hb, h.length_mod]
    exact h.decodeFrom 0

end Base64

end ItemStore.Text

namespace ItemStore.Value

/-- The text of a binary value says its bytes. -/
theorem bytesOfText?_encode (bytes : List UInt8) :
    bytesOfText? (String.ofList (Text.Base64.encode bytes)) = some bytes := by
  rw [bytesOfText?, String.toList_ofList, Text.Base64.decode_encode]
  rfl

end ItemStore.Value
