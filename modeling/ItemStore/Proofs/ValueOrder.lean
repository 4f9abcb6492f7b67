import ItemStore.Value.Order

/-!
# Comparing values

`Compares` says how two values compare: null with null, a truth value with itself, and texts, binary
values and numbers that have a place with their like. These are the pairs on which `compare?` is
defined (`compare?_eq_some_iff`). So it turns round with its two sides (`compare?_swap`), and steps
that do not go down compose to such a step (`compare?_trans`). Two values are the same if they
compare as equal, and lists and maps, which do not compare, if they are equal (`same_iff`).
-/

namespace ItemStore

/-- Of two steps in an order that do not go down, the first one that goes up decides. -/
theorem compare_eq_then {α : Type} [Ord α] [Std.TransOrd α] {x y z : α}
    (hxy : (compare x y).isLE = true) (hyz : (compare y z).isLE = true) :
    compare x z = (compare x y).then (compare y z) := by
  cases h : compare x y with
  | lt => exact Std.TransCmp.lt_of_lt_of_isLE h hyz
  | eq => exact Std.TransCmp.congr_left h
  | gt =>
    rw [h] at hxy
    cases hxy

namespace Value

/-- Whether a value has no values in it. -/
def isScalar : Value → Bool
  | list _ | map _ => false
  | _ => true

/-- How two values compare that do. -/
inductive Compares : Value → Value → Ordering → Prop where
  | null : Compares .null .null .eq
  | bool (b : Bool) : Compares (.bool b) (.bool b) .eq
  | text (s t : String) : Compares (.text s) (.text t) (compare s t)
  | binary (s t : List UInt8) : Compares (.binary s) (.binary t) (compare s t)
  | number {d e : String} {m n : Int} (hd : numberRank? d = some m) (he : numberRank? e = some n) :
    Compares (.number d) (.number e) (compare m n)

variable {a b c : Value} {o p : Ordering}

theorem compare?_of_compares (h : Compares a b o) : a.compare? b = some o := by
  cases h with
  | null => rfl
  | bool b => exact if_pos rfl
  | text s t => rfl
  | binary s t => rfl
  | number hd he => simp [compare?, hd, he]

theorem compares_of_compare? (h : a.compare? b = some o) : Compares a b o := by
  revert h
  fun_cases compare? a b with
  | case1 s t =>
    rintro ⟨⟩
    exact .text s t
  | case2 s t =>
    rintro ⟨⟩
    exact .binary s t
  | case3 d e =>
    intro h
    obtain ⟨m, hd, h⟩ := Option.bind_eq_some_iff.1 h
    obtain ⟨n, he, rfl⟩ := Option.map_eq_some_iff.1 h
    exact .number hd he
  | case4 b =>
    rintro ⟨⟩
    exact .bool b
  | case5 => rintro ⟨⟩
  | case6 =>
    rintro ⟨⟩
    exact .null
  | case7 => rintro ⟨⟩

/-- Values compare as the relation says, and do not compare otherwise. -/
theorem compare?_eq_some_iff : a.compare? b = some o ↔ Compares a b o :=
  ⟨compares_of_compare?, compare?_of_compares⟩

namespace Compares

/-- Comparing the other way round gives the swapped order. -/
theorem swap (h : Compares a b o) : Compares b a o.swap := by
  cases h with
  | null => exact .null
  | bool b => exact .bool b
  | text s t =>
    rw [← Std.OrientedOrd.eq_swap]
    exact .text t s
  | binary s t =>
    rw [← Std.OrientedOrd.eq_swap]
    exact .binary t s
  | number hd he =>
    rw [← Std.OrientedOrd.eq_swap]
    exact .number he hd

/-- Order goes from one value over another to a third. -/
theorem trans (hab : Compares a b o) (hbc : Compares b c p) (ho : o.isLE = true)
    (hp : p.isLE = true) : Compares a c (o.then p) := by
  cases hab with
  | null =>
    cases hbc
    exact .null
  | bool b =>
    cases hbc
    exact .bool b
  | text s t =>
    cases hbc with
    | text _ u =>
      rw [← compare_eq_then ho hp]
      exact .text s u
  | binary s t =>
    cases hbc with
    | binary _ u =>
      rw [← compare_eq_then ho hp]
      exact .binary s u
  | number hd he =>
    cases hbc with
    | number he' hf =>
      obtain rfl := Option.some.inj (he.symm.trans he')
      rw [← compare_eq_then ho hp]
      exact .number hd hf

theorem isScalar_left (h : Compares a b o) : a.isScalar = true := by
  cases h <;> rfl

end Compares

/-- A comparison is turned round with its two sides. -/
theorem compare?_swap (a b : Value) : b.compare? a = (a.compare? b).map Ordering.swap := by
  ext o
  rw [compare?_eq_some_iff, Option.map_eq_some_iff]
  constructor
  · intro h
    exact ⟨o.swap, compare?_of_compares h.swap, o.swap_swap⟩
  · rintro ⟨p, hp, rfl⟩
    exact (compares_of_compare? hp).swap

/-- Two steps that do not go down are one, which goes up if one of them does. -/
theorem compare?_trans (hab : a.compare? b = some o) (hbc : b.compare? c = some p)
    (ho : o.isLE = true) (hp : p.isLE = true) : a.compare? c = some (o.then p) :=
  compare?_of_compares ((compares_of_compare? hab).trans (compares_of_compare? hbc) ho hp)

/-! ## Values that are the same -/

/-- Two values are the same if they compare as equal, or if they are one list or one map. -/
theorem same_iff : a.same b = true ↔ Compares a b .eq ∨ a.isScalar = false ∧ a = b := by
  rw [← compare?_eq_some_iff]
  cases a <;> cases b <;> simp [same, compare?, isScalar]

theorem same_iff_of_isScalar (h : a.isScalar = true) :
    a.same b = true ↔ a.compare? b = some .eq := by
  simp [same_iff, compare?_eq_some_iff, h]

theorem same_symm (h : a.same b = true) : b.same a = true := by
  obtain hcompares | ⟨hscalar, rfl⟩ := same_iff.1 h
  · exact same_iff.2 (.inl hcompares.swap)
  · exact h

theorem same_comm (a b : Value) : a.same b = b.same a :=
  Bool.eq_iff_iff.2 ⟨same_symm, same_symm⟩

theorem same_trans (hab : a.same b = true) (hbc : b.same c = true) : a.same c = true := by
  obtain hab' | ⟨-, rfl⟩ := same_iff.1 hab
  · obtain hbc' | ⟨-, rfl⟩ := same_iff.1 hbc
    · exact same_iff.2 (.inl (hab'.trans hbc' rfl rfl))
    · exact hab
  · exact hbc

end Value

end ItemStore
