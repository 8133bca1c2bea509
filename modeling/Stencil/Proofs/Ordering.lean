import Stencil.Number.Nearest
import Stencil.Proofs.Operands
import Stencil.Value.Bytes

/-!
# `Stencil/Proofs/Ordering.lean` — the orderings, among themselves and beside equality

Two integers are compared exactly, and an integer beside a float only after it has been rounded. So
there is no one line on which all numbers have their places, and it has to be asked whether what the
operators say of several numbers fits together. It does:

> **the orderings are those of a strict order, of which equality is the rest**,

on any two values that can be ordered at all.

The order is `Value.Below`, in three clauses. Numbers with different places are in the order of
their places, be they integers or not; integers are also in order that have one place. The clauses
overlap, and this is what makes the order transitive by cases on two of them, with nothing to
calculate: conversion keeps the order (`Binary64.placeOfInt_mono`), so a clause for integers can be
read as one for places that does not tell them apart.

That equality is *not* transitive is no contradiction. Of three numbers, each equal to the next, the
first may be below the last (`Stencil/Proofs/Equivalence.lean`).
-/

set_option autoImplicit false

namespace Stencil

open Binary64 (Place placeOfInt)

namespace Value

def isFloat : Value → Bool
  | .float _ => true
  | _ => false

/-- The place of a number among the floats, the one of the nearest float if it is an integer. -/
def place? : Value → Option Place
  | .int n => some (placeOfInt n.toInt)
  | .float x => Binary64.place? x
  | _ => none

/-- As soon as one of two values is a float, their places decide. -/
theorem compare?_eq_places {l r : Value} (float : l.isFloat ∨ r.isFloat) :
    l.compare? r = l.place?.bind fun p => r.place?.map (compare p) := by
  cases l <;> cases r <;>
    simp_all [isFloat, compare?, Numbers.of?, Numbers.compare?, place?,
      Binary64.compare?_eq_places, Binary64.place?_ofInt64]

theorem equals_eq_compare? {l r : Value} (comparable : (l.compare? r).isSome) :
    l.equals r = (l.compare? r == some .eq) := by
  have ints (m n : Int64) : (m == n) = (some (compare m.toInt n.toInt) == some .eq) := by
    rw [Bool.eq_iff_iff, beq_iff_eq, beq_iff_eq, Option.some_inj, compare_eq_iff_eq,
      Int64.toInt_inj]
  have strings (s t : String) : (s == t) = (some (compare s t) == some .eq) := by
    rw [Bool.eq_iff_iff, beq_iff_eq, beq_iff_eq, Option.some_inj, Std.compare_eq_iff_eq]
  cases l <;> cases r <;>
    first
    | exact ints _ _
    | exact strings _ _
    | exact Binary64.beq_eq _ _
    | cases comparable

theorem compare?_swap (l r : Value) : l.compare? r = (r.compare? l).map Ordering.swap := by
  have floats (x y : Float) :
      Binary64.compare? x y = (Binary64.compare? y x).map Ordering.swap := by
    rw [Binary64.compare?_eq, Binary64.compare?_eq, Binary64.compare_swap]
  have ints (m n : Int) : some (compare m n) = (some (compare n m)).map Ordering.swap :=
    congrArg some Std.OrientedCmp.eq_swap
  have strings (s t : String) : some (compare s t) = (some (compare t s)).map Ordering.swap :=
    congrArg some Std.OrientedCmp.eq_swap
  cases l <;> cases r <;>
    first
    | exact ints _ _
    | exact strings _ _
    | exact floats _ _
    | rfl

/-! ## What comes first -/

/-- The one value comes before the other. Integers that are in order may have one place. -/
inductive Below : Value → Value → Prop where
  | strings {s t : String} (less : s < t) : Below (.string s) (.string t)
  | ints {m n : Int64} (less : m.toInt < n.toInt) : Below (.int m) (.int n)
  | places {l r : Value} {p q : Place} (left : l.place? = some p) (right : r.place? = some q)
      (less : p < q) : Below l r

theorem compare_strings_eq_lt_iff {s t : String} : compare s t = .lt ↔ s < t := by
  show compareOfLessAndEq s t = .lt ↔ s < t
  unfold compareOfLessAndEq
  split
  case isTrue less => simp [less]
  case isFalse notLess => split <;> simp [notLess]

theorem Below.of_float {l r : Value} (float : l.isFloat ∨ r.isFloat)
    (less : l.compare? r = some .lt) : l.Below r := by
  rw [compare?_eq_places float] at less
  obtain ⟨p, left, less⟩ := Option.bind_eq_some_iff.1 less
  obtain ⟨q, right, less⟩ := Option.map_eq_some_iff.1 less
  exact .places left right (compare_lt_iff_lt.1 less)

theorem compare?_of_places {l r : Value} {p q : Place} (left : l.place? = some p)
    (right : r.place? = some q) (less : p < q) : l.compare? r = some .lt := by
  by_cases float : l.isFloat ∨ r.isFloat
  · rw [compare?_eq_places float, left, right]
    exact congrArg some (compare_lt_iff_lt.2 less)
  · cases l with
    | int m =>
      cases r with
      | int n =>
        cases left
        cases right
        have : m.toInt < n.toInt := lt_of_not_ge fun ge =>
          not_le_of_gt less (Binary64.placeOfInt_mono ge)
        exact congrArg some (compare_lt_iff_lt.2 this)
      | float y => exact absurd (.inr rfl) float
      | _ => cases right
    | float x => exact absurd (.inl rfl) float
    | _ => cases left

theorem compare?_eq_lt_iff {l r : Value} : l.compare? r = some .lt ↔ l.Below r := by
  constructor
  · intro less
    cases l with
    | string s =>
      cases r with
      | string t => exact .strings (compare_strings_eq_lt_iff.1 (Option.some.inj less))
      | _ => cases less
    | int m =>
      cases r with
      | int n => exact .ints (compare_lt_iff_lt.1 (Option.some.inj less))
      | float y => exact .of_float (.inr rfl) less
      | _ => cases less
    | float x => exact .of_float (.inl rfl) less
    | _ => cases r <;> cases less
  · intro below
    cases below with
    | strings less => exact congrArg some (compare_strings_eq_lt_iff.2 less)
    | ints less => exact congrArg some (compare_lt_iff_lt.2 less)
    | places left right less => exact compare?_of_places left right less

/-- What is before something that comes before is before it too. Where an integer stands beside a
float in between, it is enough that conversion keeps the order. -/
theorem Below.trans {a b c : Value} (first : a.Below b) (second : b.Below c) : a.Below c := by
  cases first with
  | strings less =>
    cases second with
    | strings less' => exact .strings (String.lt_trans less less')
    | places left => cases left
  | ints less =>
    cases second with
    | ints less' => exact .ints (Int.lt_trans less less')
    | places left right less' =>
      cases left
      exact .places rfl right (lt_of_le_of_lt (Binary64.placeOfInt_mono less.le) less')
  | places left right less =>
    cases second with
    | strings => cases right
    | ints less' =>
      cases right
      exact .places left rfl (lt_of_lt_of_le less (Binary64.placeOfInt_mono less'.le))
    | places left' right' less' =>
      obtain rfl := Option.some.inj (left'.symm.trans right)
      exact .places left right' (less.trans less')

end Value

/-! ## The operators -/

/-- None of the orderings is defined on the two values. -/
def Incomparable (l r : Value) : Prop :=
  ∀ op ∈ [BinaryOp.less, .lessEqual, .greater, .greaterEqual],
    op.apply l r = .error (.notComparable l r)

/-- The orderings and equality are defined on the two values and have these answers. -/
structure Comparable (l r : Value) (lt eq gt : Bool) : Prop where
  less : BinaryOp.less.apply l r = .ok (.bool lt)
  equal : BinaryOp.equal.apply l r = .ok (.bool eq)
  greater : BinaryOp.greater.apply l r = .ok (.bool gt)
  lessEqual : BinaryOp.lessEqual.apply l r = .ok (.bool !gt)
  greaterEqual : BinaryOp.greaterEqual.apply l r = .ok (.bool !lt)

theorem incomparable_of_compare? {l r : Value} (unordered : l.compare? r = none) :
    Incomparable l r := by
  intro op mem
  have fails (test : Ordering → Bool) : Value.ordered test l r = .error (.notComparable l r) := by
    rw [Value.ordered, unordered]
  simp only [List.mem_cons, List.not_mem_nil, or_false] at mem
  rcases mem with rfl | rfl | rfl | rfl <;> exact fails _

theorem comparable_of_compare? {l r : Value} {ordering : Ordering}
    (ordered : l.compare? r = some ordering) :
    Comparable l r (ordering == .lt) (ordering == .eq) (ordering == .gt) := by
  have succeeds (test : Ordering → Bool) :
      Value.ordered test l r = .ok (.bool (test ordering)) := by
    rw [Value.ordered, ordered]
  have equal : l.equals r = (ordering == .eq) := by
    rw [Value.equals_eq_compare? (ordered ▸ rfl), ordered]
    rfl
  exact
    { less := by cases ordering <;> exact succeeds _
      equal := congrArg (Except.ok ∘ Value.bool) equal
      greater := by cases ordering <;> exact succeeds _
      lessEqual := by cases ordering <;> exact succeeds _
      greaterEqual := by cases ordering <;> exact succeeds _ }

theorem less_iff_below {l r : Value} :
    BinaryOp.less.apply l r = .ok (.bool true) ↔ l.Below r := by
  rw [← Value.compare?_eq_lt_iff]
  show Value.ordered Ordering.isLT l r = _ ↔ _
  unfold Value.ordered
  cases l.compare? r with
  | none => exact ⟨nofun, nofun⟩
  | some ordering => cases ordering <;> simp

/-- **The orderings agree with each other and with equality.** Either none of them is defined on two
values, in neither order, or all of them are in both; then just one of "less", "equal" and "greater"
holds, the other two orderings are the negations, and to exchange the values is to exchange "less"
and "greater". What is less than something that is less is less too. Strings are in the order of
their bytes. -/
theorem orderings_agree :
    (∀ l r : Value, Incomparable l r ∧ Incomparable r l ∨
      ∃ lt eq gt, [lt, eq, gt].count true = 1 ∧ Comparable l r lt eq gt ∧ Comparable r l gt eq lt) ∧
    (∀ a b c : Value, BinaryOp.less.apply a b = .ok (.bool true) →
      BinaryOp.less.apply b c = .ok (.bool true) → BinaryOp.less.apply a c = .ok (.bool true)) ∧
    ∀ s t : String,
      BinaryOp.less.apply (.string s) (.string t) = .ok (.bool (decide (bytes s < bytes t))) := by
  refine ⟨fun l r => ?agree, fun a b c => ?trans, fun s t => ?strings⟩
  case agree =>
    have swap := Value.compare?_swap r l
    cases answer : l.compare? r with
    | none =>
      rw [answer] at swap
      exact .inl ⟨incomparable_of_compare? answer, incomparable_of_compare? swap⟩
    | some ordering =>
      rw [answer] at swap
      refine .inr ⟨ordering == .lt, ordering == .eq, ordering == .gt, ?_,
        comparable_of_compare? answer, ?_⟩
      · cases ordering <;> decide
      · have exchanged := comparable_of_compare? swap
        cases ordering <;> exact exchanged
  case trans =>
    rw [less_iff_below, less_iff_below, less_iff_below]
    exact Value.Below.trans
  case strings =>
    have bytes : (compare s t).isLT = decide (bytes s < bytes t) := by
      rw [Bool.eq_iff_iff, decide_eq_true_iff, ← lt_iff_bytes_lt,
        ← Value.compare_strings_eq_lt_iff]
      cases compare s t <;> decide
    exact congrArg (Except.ok ∘ Value.bool) bytes

/-- Two integers of 54 bits that no float is equal to, with a float between them. One of them is
rounded down to be compared with it, the other one up. -/
theorem orderings_agree_past_53_bits :
    let a := Value.int 9007199254740993
    let b := Value.float 9007199254740994
    let c := Value.int 9007199254740995
    BinaryOp.less.apply a b = .ok (.bool true) ∧ BinaryOp.less.apply b c = .ok (.bool true) ∧
      BinaryOp.less.apply a c = .ok (.bool true) := by
  intro a b c
  have first : BinaryOp.less.apply a b = .ok (.bool true) := rfl
  have second : BinaryOp.less.apply b c = .ok (.bool true) := rfl
  exact ⟨first, second, orderings_agree.2.1 a b c first second⟩

end Stencil
