import Mathlib.Data.Prod.Lex
import Stencil.Number.Binary64

/-!
# `Stencil/Number/Place.lean` — the places of the floats on a line

`compare?` decides the order of two floats by cases on what they are. Whether such an order is
transitive would be a question about three of them at once, and that is some hundreds of cases.
This file gives every float but NaN a *place* in a linear order that is known already:

> **to compare two floats is to compare their places.**

What holds of a linear order then holds of floats, and nothing else in the library goes into the
cases again.

A place is the side of zero, the exponent and the mantissa, compared in this order. On the negative
side all three are negated, because a greater magnitude comes earlier there. The zeros share one
place, and the infinities lie outside of everything finite. Nothing is said about the number that a
place stands for; the places of integers are found in `Stencil/Number/Nearest.lean`.
-/

set_option autoImplicit false

namespace Stencil.Binary64

open Float.Model (UnpackedFloat)
open Float.Model.UnpackedFloat (Sign)

/-- A side of zero, an exponent and a mantissa, the first that differs deciding. -/
abbrev Place := Int ×ₗ Int ×ₗ Int

namespace Place

variable {side exponent mantissa side' exponent' mantissa' : Int}

def of (side exponent mantissa : Int) : Place := toLex (side, toLex (exponent, mantissa))

theorem compare_of : compare (of side exponent mantissa) (of side' exponent' mantissa') =
    (compare side side').then ((compare exponent exponent').then (compare mantissa mantissa')) := by
  simp only [of, Prod.Lex.compare_def, compareLex, compareOn, ofLex_toLex]

theorem of_lt_iff : of side exponent mantissa < of side' exponent' mantissa' ↔
    side < side' ∨ side = side' ∧
      (exponent < exponent' ∨ exponent = exponent' ∧ mantissa < mantissa') := by
  simp only [of, Prod.Lex.toLex_lt_toLex]

theorem of_le_iff : of side exponent mantissa ≤ of side' exponent' mantissa' ↔
    side < side' ∨ side = side' ∧
      (exponent < exponent' ∨ exponent = exponent' ∧ mantissa ≤ mantissa') := by
  simp only [of, Prod.Lex.toLex_le_toLex]

end Place

def placeOf? : UnpackedFloat → Option Place
  | .notANumber => none
  | .infinity sign => some (.of (sign.apply 2) 0 0)
  | .zero _ => some (.of 0 0 0)
  | .finite sign m e _ => some (.of (sign.apply 1) (sign.apply e) (sign.apply m))

theorem compare_eq_places (x y : UnpackedFloat) :
    x.compare y = (placeOf? x).bind fun p => (placeOf? y).map (compare p) := by
  have negated (m n : Int) : compare (-m) (-n) = (compare m n).swap := by
    have swapped : compare n m = (compare m n).swap := Std.OrientedCmp.eq_swap
    rw [← swapped]
    simp only [compare, compareOfLessAndEq]
    grind
  have naturals (m n : Nat) : compare m n = compare (m : Int) n := by
    simp only [compare, compareOfLessAndEq]
    grind
  rcases x with (_ | _) | _ | (_ | _) | ⟨_ | _, m, e, -⟩ <;>
    rcases y with (_ | _) | _ | (_ | _) | ⟨_ | _, n, f, -⟩ <;>
    dsimp only [placeOf?, Option.bind_some, Option.map_some, Option.bind_none, Option.map_none,
      Sign.apply, UnpackedFloat.compare] <;>
    first
    | rfl
    | simp only [Place.compare_of, negated, naturals, Ordering.swap_then]
      rfl

/-- The place of a float, which NaN does not have. -/
def place? (x : Float) : Option Place := placeOf? x.toModel.unpack

theorem isSome_place?_iff {x : Float} : (place? x).isSome ↔ x.isNaN = false := by
  show (placeOf? x.toModel.unpack).isSome ↔ x.toModel.unpack.isNaN = false
  cases x.toModel.unpack with
  | notANumber => exact iff_of_false Bool.false_ne_true Bool.noConfusion
  | _ => exact iff_of_true rfl rfl

theorem compare?_eq_places (x y : Float) :
    compare? x y = (place? x).bind fun p => (place? y).map (compare p) := by
  rw [compare?_eq, compare_eq_places, place?, place?]

/-- **To compare two floats is to compare their places.** -/
theorem compare?_eq_some_iff {x y : Float} {ordering : Ordering} :
    compare? x y = some ordering ↔
      ∃ p q, place? x = some p ∧ place? y = some q ∧ compare p q = ordering := by
  simp only [compare?_eq_places, Option.bind_eq_some_iff, Option.map_eq_some_iff]
  grind

theorem beq_eq (x y : Float) : (x == y) = (compare? x y == some .eq) := by
  rw [compare?_eq]
  rfl

/-- Floats are equal that have one and the same place. -/
theorem beq_iff {x y : Float} : x == y ↔ ∃ p, place? x = some p ∧ place? y = some p := by
  rw [beq_eq, beq_iff_eq, compare?_eq_some_iff]
  simp only [compare_eq_iff_eq]
  grind

end Stencil.Binary64
