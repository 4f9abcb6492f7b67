import Mathlib.Algebra.Order.Ring.Nat
import ItemStore.Proofs.NumberTexts
import ItemStore.Proofs.OwnKeys

/-!
# Integers as keys

A key field of number type takes the text of any integer, and keys are compared in double precision.
Main statement: two rows whose keys are integers are both kept if and only if the integers have
different nearest numbers of 53 binary digits; otherwise the one that is put last takes the place of
the other (`Memory.number_keys_exactly`). Integers up to `2 ^ 53` are their own nearest numbers
(`Numeral.nearest_of_le`).
-/

namespace ItemStore

namespace Numeral

/-! ## Integers in double precision -/

/-- The first power of two past the range of double precision. -/
def pastRange : Nat := 2 ^ 1024

theorem le_pastRange {n k : Nat} (h : n ≤ 2 ^ k) (hk : k ≤ 1024) : n ≤ pastRange := by
  obtain ⟨d, hd⟩ := Nat.exists_eq_add_of_le hk
  rw [pastRange, hd, Nat.pow_add]
  exact Nat.le_trans h (Nat.le_mul_of_pos_right _ (Nat.two_pow_pos d))

/-- A natural number rounded to 53 binary digits, a half to the even one, if it is in the range. -/
def nearestNat (n : Nat) : Nat :=
  min pastRange (roundHalfEven n (2 ^ (n.log2 - 52)) * 2 ^ (n.log2 - 52))

/-- An integer rounded to 53 binary digits. -/
def nearest (x : Int) : Int :=
  if x < 0 then -nearestNat x.natAbs else nearestNat x.natAbs

/-- Rounding gives the quotient or the number after it. -/
theorem roundHalfEven_cases (num den : Nat) :
    roundHalfEven num den = num / den ∨ roundHalfEven num den = num / den + 1 := by
  unfold roundHalfEven
  dsimp only
  split_ifs <;> omega

theorem roundHalfEven_one (n : Nat) : roundHalfEven n 1 = n := by
  simp [roundHalfEven, Nat.mod_one]

/-- The digits of a rounded number as 53 of them, or a power of two with one more. -/
def significand (n : Nat) : Nat :=
  roundHalfEven n (2 ^ (n.log2 - 52)) * 2 ^ (52 - n.log2)

/-- The integers that count as 53 binary digits. -/
def Normal (m : Nat) : Prop :=
  2 ^ 52 ≤ m ∧ m ≤ 2 ^ 53

/-- The significand of the double nearest to a number has 53 bits. -/
theorem normal_significand {n : Nat} (hn : n ≠ 0) : Normal (significand n) := by
  have hlow : 2 ^ n.log2 ≤ n := Nat.log2_self_le hn
  have hhigh : n < 2 ^ (n.log2 + 1) := Nat.lt_log2_self
  unfold Normal significand
  rcases Nat.le_total 52 n.log2 with hk | hk
  · obtain ⟨d, hd⟩ := Nat.exists_eq_add_of_le hk
    rw [hd] at hlow hhigh
    have hpos : 0 < 2 ^ d := Nat.two_pow_pos d
    have hdiv : 2 ^ 52 ≤ n / 2 ^ d := by
      rw [Nat.le_div_iff_mul_le hpos, ← Nat.pow_add]
      exact hlow
    have hlt : n / 2 ^ d < 2 ^ 53 := by
      rw [Nat.div_lt_iff_lt_mul hpos, ← Nat.pow_add]
      rwa [show 53 + d = 52 + d + 1 by omega]
    rw [hd, Nat.add_sub_cancel_left, Nat.sub_eq_zero_of_le (Nat.le_add_right 52 d), Nat.pow_zero,
      Nat.mul_one]
    rcases roundHalfEven_cases n (2 ^ d) with h | h <;> omega
  · rw [Nat.sub_eq_zero_of_le hk, Nat.pow_zero, roundHalfEven_one]
    constructor
    · calc 2 ^ 52 = 2 ^ n.log2 * 2 ^ (52 - n.log2) := by
            rw [← Nat.pow_add, Nat.add_sub_cancel' hk]
        _ ≤ n * 2 ^ (52 - n.log2) := Nat.mul_le_mul_right _ hlow
    · calc n * 2 ^ (52 - n.log2) ≤ 2 ^ (n.log2 + 1) * 2 ^ (52 - n.log2) :=
            Nat.mul_le_mul_right _ (Nat.le_of_lt hhigh)
        _ = 2 ^ 53 := by
            rw [← Nat.pow_add]
            congr 1
            omega

/-- Numbers of the format are in the order of their exponents and significands. -/
theorem scaled_le_iff {m m' : Nat} (hm : Normal m) (hm' : Normal m') (k k' : Nat) :
    k * 2 ^ 52 + m ≤ k' * 2 ^ 52 + m' ↔ m * 2 ^ k ≤ m' * 2 ^ k' := by
  obtain ⟨hlow, hhigh⟩ := hm
  obtain ⟨hlow', hhigh'⟩ := hm'
  rcases Nat.lt_trichotomy k k' with hk | rfl | hk
  · obtain ⟨d, rfl⟩ := Nat.exists_eq_add_of_lt hk
    refine iff_of_true (by omega) ?_
    calc m * 2 ^ k ≤ 2 ^ 53 * 2 ^ k := Nat.mul_le_mul_right _ hhigh
      _ = 2 ^ 52 * 2 ^ (k + 1) := by rw [← Nat.pow_add, ← Nat.pow_add]; congr 1; omega
      _ ≤ m' * 2 ^ (k + d + 1) := Nat.mul_le_mul hlow' (Nat.pow_le_pow_right (by decide) (by omega))
  · rw [Nat.add_le_add_iff_left, Nat.mul_le_mul_right_iff (Nat.two_pow_pos k)]
  · obtain ⟨d, rfl⟩ := Nat.exists_eq_add_of_lt hk
    have hpow : m * 2 ^ (k' + d + 1) = m * 2 ^ (d + 1) * 2 ^ k' := by
      rw [Nat.mul_assoc, ← Nat.pow_add]
      congr 2
      omega
    rw [hpow, Nat.mul_le_mul_right_iff (Nat.two_pow_pos k')]
    cases d with
    | zero => omega
    | succ d =>
      -- Two exponents apart, even the largest significand is too small.
      have hfour : m * 4 ≤ m * 2 ^ (d + 1 + 1) := by
        refine Nat.mul_le_mul_left m ?_
        exact Nat.pow_le_pow_right (n := 2) (by decide) (by omega : 2 ≤ d + 1 + 1)
      exact iff_of_false (by omega) (by omega)

/-- The significand, scaled by the exponent, is the rounded number. -/
theorem significand_mul (n : Nat) : significand n * 2 ^ n.log2 =
    roundHalfEven n (2 ^ (n.log2 - 52)) * 2 ^ (n.log2 - 52) * 2 ^ 52 := by
  rw [significand, Nat.mul_assoc, Nat.mul_assoc, ← Nat.pow_add, ← Nat.pow_add]
  congr 2
  omega

theorem floorLog2_one {n : Nat} (hn : n ≠ 0) : floorLog2 n 1 = n.log2 := by
  have hlow : 2 ^ n.log2 ≤ n := Nat.log2_self_le hn
  have hone : Nat.log2 1 = 0 := rfl
  simp [floorLog2, hone, Nat.shiftLeft_eq, hlow]

/-- The encoding of an integer puts its exponent before its significand. -/
theorem encode_one {n : Nat} (hn : n ≠ 0) : Format.double.encode n 1 =
    min Format.double.infinity ((n.log2 + 1022) * 2 ^ 52 + significand n) := by
  have hexponent : max ((n.log2 : Int) - (53 - 1 : Nat)) (-1074) = (n.log2 : Int) - 52 := by
    omega
  have hoffset : ((n.log2 : Int) - 52 - -1074).toNat = n.log2 + 1022 := by
    omega
  have hsignificand : (if 0 ≤ (n.log2 : Int) - 52 then
      roundHalfEven n (1 <<< ((n.log2 : Int) - 52).toNat)
      else roundHalfEven (n <<< (-((n.log2 : Int) - 52)).toNat) 1) = significand n := by
    rw [significand]
    split
    · have hzero : 52 - n.log2 = 0 := by omega
      have hdigits : ((n.log2 : Int) - 52).toNat = n.log2 - 52 := by omega
      rw [hzero, hdigits, Nat.shiftLeft_eq, Nat.one_mul, Nat.pow_zero, Nat.mul_one]
    · have hzero : n.log2 - 52 = 0 := by omega
      have hdigits : (-((n.log2 : Int) - 52)).toNat = 52 - n.log2 := by omega
      rw [hzero, hdigits, Nat.shiftLeft_eq, Nat.pow_zero, roundHalfEven_one, roundHalfEven_one]
  rw [Format.encode, floorLog2_one hn]
  simp only [Format.double, hexponent, hoffset]
  rw [hsignificand, Nat.shiftLeft_eq]

/-- The number nearest to another one is its significand at its power of two, or past the range. -/
theorem nearestNat_mul (n : Nat) :
    nearestNat n * 2 ^ 52 = min (2 ^ 52 * pastRange) (significand n * 2 ^ n.log2) := by
  rw [nearestNat, significand_mul, ← Nat.mul_min_mul_right, Nat.mul_comm (2 ^ 52)]

/-- Two integers have one encoding if they are nearest to one number. -/
theorem encode_eq_iff {n n' : Nat} (hn : n ≠ 0) (hn' : n' ≠ 0) :
    Format.double.encode n 1 = Format.double.encode n' 1 ↔ nearestNat n = nearestNat n' := by
  have hs := normal_significand hn
  have hs' := normal_significand hn'
  have hinfinity : Normal (2 ^ 52) := ⟨Nat.le_refl _, by decide⟩
  have h := scaled_le_iff hs hs' n.log2 n'.log2
  have h' := scaled_le_iff hs' hs n'.log2 n.log2
  have hi := scaled_le_iff hinfinity hs 1024 n.log2
  have hi' := scaled_le_iff hinfinity hs' 1024 n'.log2
  rw [← pastRange] at hi hi'
  have hnearest : nearestNat n = nearestNat n' ↔ nearestNat n * 2 ^ 52 = nearestNat n' * 2 ^ 52 :=
    (Nat.mul_left_inj (by decide)).symm
  rw [encode_one hn, encode_one hn', hnearest, nearestNat_mul, nearestNat_mul]
  have hshift : ∀ k m, (k + 1022) * 2 ^ 52 + m = k * 2 ^ 52 + m + 1022 * 2 ^ 52 := by
    intro k m
    omega
  have hdouble : Format.double.infinity = 1024 * 2 ^ 52 + 2 ^ 52 + 1022 * 2 ^ 52 := rfl
  rw [hshift, hshift, hdouble]
  omega

/-- The place of a natural number among those of double precision. -/
def place (n : Nat) : Nat :=
  Format.double.encodeDecimal n 0

theorem place_of_ne_zero {n : Nat} (hn : n ≠ 0) : place n = Format.double.encode n 1 := by
  have hlarge : ¬(0 : Int) + (n.log2 / 3 + 1 : Nat) < -400 := by
    omega
  rw [place, Format.encodeDecimal, if_neg hn, if_neg (by decide), if_neg hlarge, if_pos (by decide)]
  show Format.double.encode (n * 1) 1 = _
  rw [Nat.mul_one]

/-- Zero is the only number at the place of zero. -/
theorem place_eq_zero_iff {n : Nat} : place n = 0 ↔ n = 0 := by
  constructor
  · intro h
    by_contra hn
    have hinfinity : 0 < Format.double.infinity := by
      decide
    rw [place_of_ne_zero hn, encode_one hn] at h
    omega
  · rintro rfl
    rfl

theorem nearestNat_eq_zero_iff {n : Nat} : nearestNat n = 0 ↔ n = 0 := by
  constructor
  · intro h
    by_contra hn
    have hscaled : 0 < significand n * 2 ^ n.log2 :=
      Nat.mul_pos (Nat.lt_of_lt_of_le (by decide) (normal_significand hn).1) (Nat.two_pow_pos _)
    have hpast : 1 ≤ pastRange := le_pastRange (Nat.le_refl (2 ^ 0)) (by decide)
    have hmul := nearestNat_mul n
    omega
  · rintro rfl
    rw [nearestNat, Nat.log2_zero, Nat.zero_sub, Nat.pow_zero, roundHalfEven_one, Nat.mul_one,
      Nat.min_zero]

/-- Two natural numbers have one place if they are nearest to one number. -/
theorem place_eq_iff (n n' : Nat) : place n = place n' ↔ nearestNat n = nearestNat n' := by
  by_cases hn : n = 0
  · have hplace := @place_eq_zero_iff n'
    have hnearest := @nearestNat_eq_zero_iff n'
    rw [place_eq_zero_iff.2 hn, nearestNat_eq_zero_iff.2 hn]
    omega
  · by_cases hn' : n' = 0
    · rw [place_eq_zero_iff.2 hn', nearestNat_eq_zero_iff.2 hn', place_eq_zero_iff,
        nearestNat_eq_zero_iff]
    · rw [place_of_ne_zero hn, place_of_ne_zero hn', encode_eq_iff hn hn']

/-- Natural numbers up to `2 ^ 53` need no rounding. -/
theorem nearestNat_of_le {n : Nat} (h : n ≤ 2 ^ 53) : nearestNat n = n := by
  have hround : roundHalfEven n (2 ^ (n.log2 - 52)) * 2 ^ (n.log2 - 52) = n := by
    rcases Nat.lt_or_eq_of_le h with hlt | rfl
    · have hzero : n.log2 - 52 = 0 := by
        by_cases hn : n = 0
        · rw [hn, Nat.log2_zero]
        · have hlog := (Nat.log2_lt hn).2 hlt
          omega
      rw [hzero, Nat.pow_zero, roundHalfEven_one, Nat.mul_one]
    · rw [Nat.log2_two_pow]
      decide
  rw [nearestNat, hround, Nat.min_eq_right (le_pastRange h (by decide))]

/-- Integers up to `2 ^ 53` are their own nearest numbers. -/
theorem nearest_of_le {x : Int} (h : x.natAbs ≤ 2 ^ 53) : nearest x = x := by
  rw [nearest, nearestNat_of_le h]
  split <;> omega

/-- The place of an integer. -/
def signedPlace (x : Int) : Int :=
  if x < 0 then -place x.natAbs else place x.natAbs

/-- Integers have the same place just when they have the same nearest number. -/
theorem signedPlace_eq_iff (x y : Int) : signedPlace x = signedPlace y ↔ nearest x = nearest y := by
  have h := place_eq_iff x.natAbs y.natAbs
  have hx := @place_eq_zero_iff x.natAbs
  have hy := @place_eq_zero_iff y.natAbs
  have hx' := @nearestNat_eq_zero_iff x.natAbs
  have hy' := @nearestNat_eq_zero_iff y.natAbs
  unfold signedPlace nearest
  split <;> split <;> omega

theorem signedPlace_natCast (n : Nat) : signedPlace n = place n := by
  rw [signedPlace, if_neg (Int.not_lt.2 (Int.natCast_nonneg n)), Int.natAbs_natCast]

theorem signedPlace_neg_natCast (n : Nat) : signedPlace (-n) = -(place n : Int) := by
  rw [signedPlace, Int.natAbs_neg, Int.natAbs_natCast]
  split
  · rfl
  · have hn : n = 0 := by
      omega
    rw [place_eq_zero_iff.2 hn]
    rfl

end Numeral

open Numeral

/-- The text of an integer has the place of the integer. -/
theorem Value.numberRank?_of_readSigned? {digits : String} {x : Int}
    (h : readSigned? digits.toList = some x) : numberRank? digits = some (signedPlace x) := by
  rw [numberRank?]
  generalize digits.toList = cs at h ⊢
  obtain @⟨negative, sign, ds, hsign, hdigits⟩ := readSigned?_eq_some_iff.1 h
  have hsays : Says (sign ++ ds) (.finite negative (ofDigits ds) 0) := by
    have hdecimal := Says.intro hsign (.decimal (.whole hdigits) .none)
    rwa [List.append_nil] at hdecimal
  rw [Text.trim_eq_self hsays.solid, Datum.read?, read?_eq_some_iff.2 hsays]
  cases negative with
  | false =>
    rw [if_neg Bool.false_ne_true, signedPlace_natCast]
    rfl
  | true =>
    rw [if_pos rfl, signedPlace_neg_natCast]
    rfl

namespace Store

open Memory Step

/-! ## Rows that are put -/

variable {o : MemoryOptions} {m : Memory} {s : Schema} {rows : List Item} {row : Item}
  {key k : Key}

/-- A row that was put is found by the keys that say what its key says. -/
theorem findRow_storeRow (hrow : s.keyOf row = .ok k) (hranked : k.Ranked) (hid : k.id = key.id)
    (rows : List Item) : findRow s key (storeRow s k row rows) = some row := by
  have hhas : hasKey s key row = true := (hasKey_iff_id hrow).2 ⟨hranked, hid⟩
  induction rows with
  | nil => rw [storeRow, findRow, List.find?_cons_of_pos hhas]
  | cons r rest ih =>
    rw [storeRow]
    split
    · rw [findRow, List.find?_cons_of_pos hhas]
    · next hr =>
      rw [hasKey_of_id hid] at hr
      rw [findRow, List.find?_cons_of_neg hr]
      exact ih

/-- Any other key finds what it found before. -/
theorem findRow_storeRow_of_ne (hrow : s.keyOf row = .ok k) (hid : k.id ≠ key.id)
    (rows : List Item) : findRow s key (storeRow s k row rows) = findRow s key rows := by
  have hhas : ¬hasKey s key row = true := fun h => hid ((hasKey_iff_id hrow).1 h).2
  induction rows with
  | nil => rw [storeRow, findRow, List.find?_cons_of_neg hhas, findRow]
  | cons r rest ih =>
    rw [storeRow]
    split
    · next hr =>
      have hother : ¬hasKey s key r = true := by
        intro hkey
        cases hl : s.keyOf r with
        | error fault => simp [hasKey, hl] at hr
        | ok l => exact hid (((hasKey_iff_id hl).1 hr).2.symm.trans ((hasKey_iff_id hl).1 hkey).2)
      rw [findRow, findRow, List.find?_cons_of_neg hhas, List.find?_cons_of_neg hother]
    · rw [findRow, findRow, List.find?_cons, List.find?_cons, ← findRow, ← findRow, ih]

/-- An item with a number as its key. -/
theorem itemKey_number (htype : s.partitionKey.type = .number) (hsort : s.sortKey = none)
    {digits : String} (h : row.get? s.partitionKey.name = some (.number digits)) :
    itemKey s row = .ok ⟨.number digits, none⟩ := by
  refine itemKey_eq_ok_iff.2 ⟨Schema.keyOf_eq_ok_iff.2 ⟨h, ?_⟩, checkKey_eq_ok_iff.2 ⟨?_, ?_⟩⟩
  · rw [hsort]
  · rw [htype]
    rfl
  · rw [hsort]
    trivial

theorem id_of_readSigned? {digits : String} {x : Int} (h : readSigned? digits.toList = some x) :
    (⟨.number digits, none⟩ : Key).id = ⟨.number (some (signedPlace x)), none⟩ := by
  rw [Key.id, Value.part, Value.numberRank?_of_readSigned? h, Option.map_none]

/-- A text that says an integer is a ranked key. -/
theorem ranked_of_readSigned? {digits : String} {x : Int}
    (h : readSigned? digits.toList = some x) : (⟨.number digits, none⟩ : Key).Ranked := by
  rw [Key.ranked_iff_id, id_of_readSigned? h]
  simp

/-- Two rows that are put with integers as their keys. The second one is found by its key, and the
first one by its own if the integers have different nearest numbers. Otherwise the key of the first
one finds the second one. Integers up to `2 ^ 53` have different nearest numbers if they differ. -/
theorem Memory.number_keys_exactly (h : Readable o m s.table)
    (htype : s.partitionKey.type = .number) (hsort : s.sortKey = none)
    {a b : Item} {da db : String} {x y : Int}
    (ha : a.get? s.partitionKey.name = some (.number da)) (hx : readSigned? da.toList = some x)
    (hb : b.get? s.partitionKey.name = some (.number db)) (hy : readSigned? db.toList = some y) :
    ∃ m' m'', outcome (putItem o s a) m = (.ok (), m') ∧
      outcome (putItem o s b) m' = (.ok (), m'') ∧
      (outcome (getItem o s ⟨.number db, none⟩) m'').1 = .ok (some b) ∧
      (outcome (getItem o s ⟨.number da, none⟩) m'').1 =
        .ok (some (if nearest x = nearest y then b else a)) ∧
      (x.natAbs ≤ 2 ^ 53 → y.natAbs ≤ 2 ^ 53 → nearest x = nearest y → x = y) := by
  have hkeyA := itemKey_number htype hsort ha
  have hkeyB := itemKey_number htype hsort hb
  obtain ⟨hkeyOfA, hcheckedA⟩ := itemKey_eq_ok_iff.1 hkeyA
  obtain ⟨hkeyOfB, hcheckedB⟩ := itemKey_eq_ok_iff.1 hkeyB
  have hid : (⟨.number db, none⟩ : Key).id = (⟨.number da, none⟩ : Key).id ↔
      nearest x = nearest y := by
    rw [id_of_readSigned? hx, id_of_readSigned? hy, ← signedPlace_eq_iff, eq_comm]
    simp
  have hrankedA := ranked_of_readSigned? hx
  have hrankedB := ranked_of_readSigned? hy
  obtain ⟨m', hputA, hcontains, hrowsA⟩ := outcome_putItem hkeyA h
  obtain ⟨m'', hputB, hcontains', hrowsB⟩ := outcome_putItem hkeyB (.inr hcontains)
  refine ⟨m', m'', hputA, hputB, ?_, ?_, fun hx hy hnearest => ?_⟩
  · rw [outcome_getItem o hcheckedB hcontains', hrowsB, findRow_storeRow hkeyOfB hrankedB rfl]
  · rw [outcome_getItem o hcheckedA hcontains', hrowsB]
    split
    · next hnearest => rw [findRow_storeRow hkeyOfB hrankedB (hid.2 hnearest)]
    · next hnearest =>
      rw [findRow_storeRow_of_ne hkeyOfB (mt hid.1 hnearest), hrowsA,
        findRow_storeRow hkeyOfA hrankedA rfl]
  · rwa [nearest_of_le hx, nearest_of_le hy] at hnearest

end Store

/-! ## Large counters -/

namespace Sample

open Numeral Store Memory Step

/-- Two even numbers past `2 ^ 53` are kept apart. -/
theorem number_keys_exactly_even :
    ∃ m m', outcome (putItem {} counters (counter "9007199254740992")) {} = (.ok (), m) ∧
      outcome (putItem {} counters (counter "9007199254740994")) m = (.ok (), m') ∧
      (outcome (getItem {} counters ⟨.number "9007199254740994", none⟩) m').1 =
        .ok (some (counter "9007199254740994")) ∧
      (outcome (getItem {} counters ⟨.number "9007199254740992", none⟩) m').1 =
        .ok (some (counter "9007199254740992")) := by
  have hx : readSigned? "9007199254740992".toList = some 9007199254740992 := by
    decide +kernel
  have hy : readSigned? "9007199254740994".toList = some 9007199254740994 := by
    decide +kernel
  have hnearest : nearest 9007199254740992 ≠ nearest 9007199254740994 := by
    decide +kernel
  obtain ⟨m, m', hput, hput', hget', hget, -⟩ :=
    Memory.number_keys_exactly (o := {}) (m := {}) (s := counters) (a := counter "9007199254740992")
      (b := counter "9007199254740994") (.inl rfl) rfl rfl rfl hx rfl hy
  rw [if_neg hnearest] at hget
  exact ⟨m, m', hput, hput', hget', hget⟩

/-- Two different integers past `2 ^ 53`, the second of which takes the place of the first. -/
theorem large_counter_is_lost :
    readSigned? "9007199254740992".toList = some 9007199254740992 ∧
      readSigned? "9007199254740993".toList = some 9007199254740993 ∧
      ∃ m m', outcome (putItem {} counters (counter "9007199254740992")) {} = (.ok (), m) ∧
        outcome (putItem {} counters (counter "9007199254740993")) m = (.ok (), m') ∧
        (outcome (getItem {} counters ⟨.number "9007199254740992", none⟩) m').1 =
          .ok (some (counter "9007199254740993")) := by
  refine ⟨by decide +kernel, by decide +kernel, _, _, rfl, rfl, ?_⟩
  decide +kernel

end Sample

end ItemStore
