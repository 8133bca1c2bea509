import Mathlib.Algebra.Group.Int.Defs
import Stencil.Proofs.Operands

/-!
# `Stencil/Proofs/Residues.lean` — integer expressions over the integers

Sums, differences, products and the sign wrap, and they may do so anywhere in an expression. This
file says what is left of the value in the end:

> **an integer expression evaluates to the residue of its value over the integers**, modulo `2 ^ 64`
> and in the range of the signed integers of 64 bits.

Nothing has to be known about what happens on the way. Taking the residue commutes with the
operators, so the induction (`Expr.eval_of_integer?`) is an equation at each step, and the range
comes in only after it.

The remainder is not among these operators, for it does not commute with taking the residue. It does
not wrap either: its result is the exact one for every divisor but zero.
-/

set_option autoImplicit false

namespace Stencil

/-! ## Values over the integers -/

/-- The operation on the integers that the operator is the residue of. -/
def BinaryOp.onIntegers? : BinaryOp → Option (Int → Int → Int)
  | add => some (· + ·)
  | subtract => some (· - ·)
  | multiply => some (· * ·)
  | _ => none

/-- The value over the integers of an expression that is made of integers and of names bound to
integers, with `+`, `-`, `*` and the sign alone. -/
def Expr.integer? (find? : String → Option Value) : Expr → Option Int
  | .const v => v.int?.map Int64.toInt
  | .var name => ((find? name).bind Value.int?).map Int64.toInt
  | .negate operand => (operand.integer? find?).map fun x => -x
  | .binary op l r => do return (← op.onIntegers?) (← l.integer? find?) (← r.integer? find?)
  | _ => none
termination_by structural e => e

/-! ## Evaluation takes residues -/

theorem Value.eq_ofInt_of_int? {v : Value} {z : Int} (integer : v.int?.map Int64.toInt = some z) :
    v = .int (.ofInt z) := by
  cases v with
  | int n =>
    obtain rfl : n.toInt = z := Option.some.inj integer
    rw [Int64.ofInt_toInt]
  | _ => cases integer

theorem BinaryOp.apply_ofInt {op : BinaryOp} {f : Int → Int → Int} (ring : op.onIntegers? = some f)
    (x y : Int) :
    op.apply (.int (.ofInt x)) (.int (.ofInt y)) = .ok (.int (.ofInt (f x y))) := by
  cases op with
  | add =>
    cases ring
    rw [Int64.ofInt_add]
    rfl
  | subtract =>
    cases ring
    rw [Int64.ofInt_sub]
    rfl
  | multiply =>
    cases ring
    rw [Int64.ofInt_mul]
    rfl
  | _ => cases ring

theorem Expr.eval_of_integer? {find? : String → Option Value} :
    (e : Expr) → {z : Int} → e.integer? find? = some z → e.eval find? = .ok (.int (.ofInt z))
  | .const v, z, integer => congrArg Except.ok (Value.eq_ofInt_of_int? integer)
  | .var name, z, integer => by
    cases bound : find? name with
    | none =>
      rw [integer?, bound] at integer
      cases integer
    | some v =>
      rw [integer?, bound] at integer
      rw [eval, bound, Option.getD_some, Value.eq_ofInt_of_int? integer]
  | .negate operand, z, integer => by
    obtain ⟨x, value, rfl⟩ := Option.map_eq_some_iff.1 integer
    rw [eval, eval_of_integer? operand value, Int64.ofInt_neg]
    rfl
  | .binary op l r, z, integer => by
    simp only [integer?, bind, Option.bind_eq_some_iff] at integer
    obtain ⟨f, ring, x, left, y, right, ⟨⟩⟩ := integer
    rw [eval, eval_of_integer? l left, eval_of_integer? r right]
    exact BinaryOp.apply_ofInt ring x y
  | .field .., _, integer | .not _, _, integer | .and .., _, integer | .or .., _, integer
  | .list _, _, integer | .isDefined _, _, integer => nomatch integer
termination_by structural e => e

/-! ## Residues -/

/-- The integer of 64 bits that differs from `z` by a multiple of `2 ^ 64`. -/
structure IsResidue (z n : Int) : Prop where
  lower : -2 ^ 63 ≤ n
  upper : n < 2 ^ 63
  congruent : (2 ^ 64 : Int) ∣ n - z

namespace IsResidue

theorem ofInt (z : Int) : IsResidue z (Int64.ofInt z).toInt where
  lower := Int64.le_toInt _
  upper := Int64.toInt_lt _
  congruent := by
    rw [Int64.toInt_ofInt]
    exact Int.dvd_bmod_sub_self

theorem unique {z m n : Int} (hm : IsResidue z m) (hn : IsResidue z n) : m = n := by
  have multiple : (2 ^ 64 : Int) ∣ m - n := by
    have := Int.dvd_sub hm.congruent hn.congruent
    rwa [show m - z - (n - z) = m - n by omega] at this
  have := hm.lower
  have := hm.upper
  have := hn.lower
  have := hn.upper
  omega

end IsResidue

/-! ## The remainder -/

/-- The remainder of a division truncated toward zero. -/
structure IsRemainder (l r m : Int) : Prop where
  multiple : r ∣ l - m
  small : m.natAbs < r.natAbs
  sign : m = 0 ∨ m.sign = l.sign

namespace IsRemainder

theorem tmod (l : Int) {r : Int} (nonzero : r ≠ 0) : IsRemainder l r (l.tmod r) where
  multiple := ⟨l.tdiv r, by have := Int.mul_tdiv_add_tmod l r; omega⟩
  small := by
    rw [Int.natAbs_tmod]
    exact Nat.mod_lt _ (Int.natAbs_pos.2 nonzero)
  sign := by
    by_cases divides : r ∣ l
    · exact .inl (Int.tmod_eq_zero_of_dvd divides)
    · exact .inr (by rw [Int.sign_tmod, if_neg divides])

theorem nonneg {l r m : Int} (h : IsRemainder l r m) (dividend : 0 ≤ l) : 0 ≤ m := by
  obtain rfl | same := h.sign
  · exact Int.le_refl 0
  · rw [← Int.sign_nonneg_iff, same]
    exact Int.sign_nonneg_iff.2 dividend

theorem nonpos {l r m : Int} (h : IsRemainder l r m) (dividend : l ≤ 0) : m ≤ 0 := by
  obtain rfl | same := h.sign
  · exact Int.le_refl 0
  · rw [← Int.sign_nonpos_iff, same]
    exact Int.sign_nonpos_iff.2 dividend

/-- Two remainders differ by a multiple of the divisor. They are on the same side of zero, so the
difference is as small as they are. -/
theorem unique {l r m k : Int} (hm : IsRemainder l r m) (hk : IsRemainder l r k) : m = k := by
  have multiple : r ∣ m - k := by
    have := Int.dvd_sub hk.multiple hm.multiple
    rwa [show l - k - (l - m) = m - k by omega] at this
  have small : (m - k).natAbs < r.natAbs := by
    -- The sign of the dividend says on which side of zero both of them are.
    have := hm.small
    have := hk.small
    rcases Int.le_total 0 l with dividend | dividend
    · have := hm.nonneg dividend
      have := hk.nonneg dividend
      omega
    · have := hm.nonpos dividend
      have := hk.nonpos dividend
      omega
  have := Int.eq_zero_of_dvd_of_natAbs_lt_natAbs multiple small
  omega

end IsRemainder

/-! ## The result -/

/-- **Integer expressions compute modulo `2 ^ 64`.** An expression that has a value over the
integers evaluates to the one residue of that value in the range of the signed integers of 64 bits.
The remainder of two of these is the exact one unless the divisor is zero, which is an error; that
of the smallest by minus one is no exception. -/
theorem integers_compute_modulo_two_pow :
    (∀ (find? : String → Option Value) (e : Expr) (z : Int), e.integer? find? = some z →
      ∃ n : Int64, e.eval find? = .ok (.int n) ∧
        IsResidue z n.toInt ∧ ∀ k, IsResidue z k → k = n.toInt) ∧
    (∀ l r : Int64, r ≠ 0 →
      ∃ m : Int64, BinaryOp.remainder.apply (.int l) (.int r) = .ok (.int m) ∧
        IsRemainder l.toInt r.toInt m.toInt ∧
        ∀ k, IsRemainder l.toInt r.toInt k → k = m.toInt) ∧
    BinaryOp.remainder.apply (.int Int64.minValue) (.int (-1)) = .ok (.int 0) ∧
    ∀ l : Int64, BinaryOp.remainder.apply (.int l) (.int 0) = .error (.zeroDivisor (.int l)) := by
  refine ⟨fun find? e z integer => ?expression, fun l r nonzero => ?remainder, ?smallest,
    fun l => rfl⟩
  case expression =>
    exact ⟨.ofInt z, e.eval_of_integer? integer, .ofInt z, fun k residue =>
      residue.unique (.ofInt z)⟩
  case remainder =>
    have isRemainder : IsRemainder l.toInt r.toInt (l % r).toInt := by
      rw [Int64.toInt_mod]
      exact .tmod _ fun zero => nonzero (Int64.toInt_inj.1 zero)
    exact ⟨l % r, Value.remainder_ints l nonzero, isRemainder, fun k other =>
      other.unique isRemainder⟩
  case smallest =>
    exact Value.remainder_ints Int64.minValue (show (-1 : Int64) ≠ 0 by decide)

/-- With the largest integer for `x`, the sum in `-((x + 1) * 2 - 5)` overflows and so does the
product. Over the integers the value is `5 - 2 ^ 64`. -/
theorem integers_compute_past_overflow :
    let find? : String → Option Value := fun _ => some (.int Int64.maxValue)
    let sum : Expr := .binary .add (.var "x") (.const (.int 1))
    let e : Expr := .negate (.binary .subtract (.binary .multiply sum (.const (.int 2)))
      (.const (.int 5)))
    e.integer? find? = some (5 - 2 ^ 64) ∧ e.eval find? = .ok (.int 5) ∧
      ∃ m : Int64, BinaryOp.remainder.apply (.int (-7)) (.int 2) = .ok (.int m) ∧ m.toInt = -1 := by
  intro find? sum e
  have integer : e.integer? find? = some (5 - 2 ^ 64) := by decide
  obtain ⟨expressions, remainders, -⟩ := integers_compute_modulo_two_pow
  refine ⟨integer, ?_, ?_⟩
  · obtain ⟨n, value, -, unique⟩ := expressions find? e _ integer
    have five : Int64.toInt 5 = n.toInt := unique 5 ⟨by decide, by decide, by decide⟩
    rw [value, Int64.toInt_inj.1 five]
  · obtain ⟨m, value, -, unique⟩ := remainders (-7) 2 (by decide)
    refine ⟨m, value, (unique (-1) ⟨?_, ?_, ?_⟩).symm⟩ <;> decide

end Stencil
