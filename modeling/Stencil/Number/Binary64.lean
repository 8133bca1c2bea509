/-!
# `Stencil/Number/Binary64.lean` — what `Float` is missing

A template number is a 64-bit integer or a binary64 float, and the two meet in every operator: an
integer beside a float is converted first, and `%` is defined on floats as well. Core can do
neither inside a proof. Its `Int64.toFloat` is a constant without a definition, and a floating-point
remainder it does not have; and where the library wants an ordering of floats it has tests. So this
file supplies three small definitions, each written in terms of operations that core *does* define
in the logic:

* `ofInt64`, the nearest float to an integer, an exact half going to the even significand;
* `remainder`, the exact remainder of a division truncated toward zero;
* `compare?`, the ordering by value, with no answer when an operand is NaN.

**The remainder needs no rounding.** Two finite floats are whole multiples of one power of two,
the remainder of those whole numbers is again such a multiple, and it is too small to need more
significand bits than its operands had. The division happens on naturals and the result is
packed unchanged.
-/

set_option autoImplicit false

namespace Stencil.Binary64

open Float.Model (UnpackedFloat Format)
open Float.Model.UnpackedFloat (Sign)

/-- The float nearest to `n`, ties to the even significand. The magnitude is converted and the
sign put back, so that the least integer, which has no negation, is converted like the rest. -/
def ofInt64 (n : Int64) : Float :=
  if n < 0 then -(-n).toUInt64.toFloat else n.toUInt64.toFloat

/-- The ordering of two floats by value: the zeros are equal, and NaN compares with nothing. -/
def compare? (x y : Float) : Option Ordering :=
  if x < y then some .lt
  else if x == y then some .eq
  else if y < x then some .gt
  else none

/-- The float `r * 2 ^ e` with the given sign, which a zero keeps too. -/
def ofParts (sign : Sign) (r : Nat) (e : Int) : Float :=
  .ofModel <| .pack <|
    UnpackedFloat.normalize Format.binary64 (sign.apply (r : Int)) e sign

/-- The remainder `x - n * y`, where `n` is `x / y` truncated toward zero. It has the sign of `x`,
also when it is zero; an infinite dividend or a zero divisor leaves NaN, and a finite dividend is
its own remainder by an infinity. -/
def remainder (x y : Float) : Float :=
  match x.toModel.unpack, y.toModel.unpack with
  | .notANumber, _ | _, .notANumber => 0 / 0
  | .infinity _, _ | _, .zero _ => 0 / 0
  | .zero _, _ | _, .infinity _ => x
  | .finite sign m e _, .finite _ m' e' _ =>
    let unit := min e e'
    ofParts sign ((m <<< (e - unit).toNat) % (m' <<< (e' - unit).toNat)) unit

/-! ## Equality and order -/

/-- To compare the other way around is to turn the answer around; NaN has none either way. -/
theorem compare_swap (x y : UnpackedFloat) : x.compare y = (y.compare x).map Ordering.swap := by
  have magnitudes (e f : Int) (m n : Nat) : (compare e f).then (compare m n) =
      ((compare f e).then (compare n m)).swap := by
    have exponents : compare e f = (compare f e).swap := Std.OrientedCmp.eq_swap
    have mantissas : compare m n = (compare n m).swap := Std.OrientedCmp.eq_swap
    rw [Ordering.swap_then, exponents, mantissas]
  rcases x with (_ | _) | _ | (_ | _) | ⟨_ | _, m, e, -⟩ <;>
    rcases y with (_ | _) | _ | (_ | _) | ⟨_ | _, n, f, -⟩ <;>
    first
    | rfl
    | exact congrArg some (magnitudes e f m n)
    | exact congrArg (some ∘ Ordering.swap) (magnitudes e f m n)

theorem beq_comm (x y : Float) : (x == y) = (y == x) := by
  show (x.toModel.unpack.compare y.toModel.unpack == some .eq) =
    (y.toModel.unpack.compare x.toModel.unpack == some .eq)
  rw [compare_swap]
  cases y.toModel.unpack.compare x.toModel.unpack with
  | none => rfl
  | some ordering => cases ordering <;> rfl

theorem lt_iff (x y : Float) : x < y ↔ x.toModel.unpack.compare y.toModel.unpack = some .lt := by
  have lt : x < y ↔ decide (x.toModel < y.toModel) = true := Iff.rfl
  have less : x.toModel < y.toModel ↔
      (x.toModel.unpack.compare y.toModel.unpack == some .lt) = true := Iff.rfl
  rw [lt, decide_eq_true_iff, less, beq_iff_eq]

theorem compare?_eq (x y : Float) : compare? x y = x.toModel.unpack.compare y.toModel.unpack := by
  have equal : (x == y) = (x.toModel.unpack.compare y.toModel.unpack == some .eq) := rfl
  unfold compare?
  simp only [lt_iff, equal]
  rw [compare_swap y.toModel.unpack]
  cases x.toModel.unpack.compare y.toModel.unpack with
  | none => rfl
  | some ordering => cases ordering <;> rfl

/-! ## NaN -/

/-- The ordering has an answer unless it is asked about NaN. -/
theorem isSome_compare?_iff (x y : Float) :
    (compare? x y).isSome ↔ x.isNaN = false ∧ y.isNaN = false := by
  rw [compare?_eq]
  show _ ↔ x.toModel.unpack.isNaN = false ∧ y.toModel.unpack.isNaN = false
  rcases x.toModel.unpack with (_ | _) | _ | (_ | _) | ⟨_ | _, m, e, -⟩ <;>
    rcases y.toModel.unpack with (_ | _) | _ | (_ | _) | ⟨_ | _, n, f, -⟩ <;>
    first
    | exact iff_of_true rfl ⟨rfl, rfl⟩
    | exact iff_of_false Bool.false_ne_true fun numbers => Bool.noConfusion numbers.1
    | exact iff_of_false Bool.false_ne_true fun numbers => Bool.noConfusion numbers.2

theorem isNaN_dite {c : Prop} [Decidable c] {x : c → UnpackedFloat} {y : ¬ c → UnpackedFloat}
    (left : ∀ h, (x h).isNaN = false) (right : ∀ h, (y h).isNaN = false) :
    (dite c x y).isNaN = false := by
  by_cases h : c
  · rw [dif_pos h, left]
  · rw [dif_neg h, right]

/-- Only the greatest exponent makes a NaN, and only beside a mantissa other than zero. -/
theorem isNaN_packComponents (sign : Sign) {exponent : BitVec Format.binary64.exponentBits}
    {mantissa : BitVec Format.binary64.mantissaBitsWithoutImplicit}
    (number : exponent ≠ -1#_ ∨ mantissa = 0#_) :
    (UnpackedFloat.unpack .binary64
      (UnpackedFloat.packComponents .binary64 sign exponent mantissa)).isNaN = false := by
  unfold UnpackedFloat.unpack
  refine isNaN_dite (fun greatest => ?_) fun _ =>
    isNaN_dite (fun _ => isNaN_dite (fun _ => rfl) fun _ => rfl) fun _ => rfl
  rw [UnpackedFloat.unpackExponent_packComponents] at greatest
  obtain small | zero := number
  · exact absurd greatest small
  · rw [if_pos (by rw [UnpackedFloat.unpackMantissa_packComponents, zero])]
    rfl

theorem isNaN_pack (x : UnpackedFloat) : (Float.Model.pack x).isNaN = x.isNaN := by
  show (UnpackedFloat.unpack .binary64 (UnpackedFloat.pack .binary64 x)).isNaN = x.isNaN
  unfold UnpackedFloat.pack
  cases x with
  | notANumber => decide
  | infinity sign => exact isNaN_packComponents sign (.inr rfl)
  | zero sign => exact isNaN_packComponents sign (.inr rfl)
  | finite sign m e positive =>
    show UnpackedFloat.isNaN _ = false
    dsimp only
    split
    case isTrue => exact isNaN_packComponents sign (.inr rfl)
    case isFalse fits =>
      split
      case isTrue =>
        refine isNaN_packComponents sign (.inl fun greatest => ?_)
        have same := congrArg BitVec.toNat greatest
        have top : (-1#11).toNat = 2 ^ 11 - 1 := by decide
        rw [BitVec.toNat_ofNat, top, Nat.mod_eq_of_lt (by omega)] at same
        omega
      case isFalse => exact isNaN_packComponents sign (.inl (by decide))

theorem isNaN_round (sign : Sign) (m : Nat) (e : Int) :
    (UnpackedFloat.round .binary64 sign m e).isNaN = false := by
  unfold UnpackedFloat.round UnpackedFloat.roundWithAccuracy
  exact isNaN_dite (fun _ => rfl) fun _ => rfl

theorem isNaN_toFloat (n : UInt64) : n.toFloat.isNaN = false := by
  show (Float.Model.pack (UnpackedFloat.ofInt .binary64 n.toNat)).isNaN = false
  rw [isNaN_pack]
  unfold UnpackedFloat.ofInt UnpackedFloat.normalize
  split
  · exact isNaN_round _ _ _
  · rfl
  · exact isNaN_round _ _ _

theorem isNaN_neg (x : Float) : (-x).isNaN = x.isNaN := by
  show (Float.Model.pack x.toModel.unpack.neg).isNaN = x.toModel.unpack.isNaN
  rw [isNaN_pack]
  cases x.toModel.unpack <;> rfl

/-- Every integer has a nearest float. -/
theorem isNaN_ofInt64 (n : Int64) : (ofInt64 n).isNaN = false := by
  unfold ofInt64
  split
  · rw [isNaN_neg, isNaN_toFloat]
  · exact isNaN_toFloat _

end Stencil.Binary64
