import Stencil.Expr.Error
import Stencil.Value.Equality

/-!
# `Stencil/Expr/Operator.lean` — what the operators do to values

**Integer arithmetic is arithmetic modulo `2 ^ 64`.** Sums, differences, products and negation wrap,
so the only arithmetic that can fail on two numbers is the remainder of an integer by the integer
zero; by a float zero the remainder is NaN, as floats have it. The remainder has the sign of the
dividend for both kinds.

`+` is also concatenation of strings and of lists. That is why it reports operands it cannot add
with an error of its own.
-/

set_option autoImplicit false

namespace Stencil

/-- An operator with two operands, both of which are always evaluated. -/
inductive BinaryOp where
  | add
  | subtract
  | multiply
  | remainder
  | equal
  | notEqual
  | less
  | lessEqual
  | greater
  | greaterEqual
deriving DecidableEq, Repr

/-- The result of an operation that has a form for each type of number. -/
def Numbers.combine (onInts : Int64 → Int64 → Int64) (onFloats : Float → Float → Float) :
    Numbers → Value
  | .ints l r => .int (onInts l r)
  | .floats l r => .float (onFloats l r)

namespace Value

def arithmetic (onInts : Int64 → Int64 → Int64) (onFloats : Float → Float → Float)
    (l r : Value) : Except EvalError Value :=
  match Numbers.of? l r with
  | some numbers => .ok (numbers.combine onInts onFloats)
  | none => .error (.notNumbers l r)

/-- The sum of two numbers, or two strings or two lists one after the other. -/
def add (l r : Value) : Except EvalError Value :=
  match l, r with
  | .string s, .string t => .ok (.string (s ++ t))
  | .list s, .list t => .ok (.list (s.append t))
  | _, _ => (arithmetic (· + ·) (· + ·) l r).mapError fun _ => .notAddable l r

/-- The remainder of a division truncated toward zero. -/
def remainder (l r : Value) : Except EvalError Value :=
  match l, r with
  | .int _, .int 0 => .error (.zeroDivisor l)
  | _, _ => arithmetic (· % ·) Binary64.remainder l r

theorem remainder_ints (m : Int64) {n : Int64} (nonzero : n ≠ 0) :
    (int m).remainder (.int n) = .ok (.int (m % n)) := by
  unfold remainder
  split
  case h_1 same => exact absurd (int.inj same) nonzero
  case h_2 => rfl

/-- Whether the ordering of two values satisfies a test. -/
def ordered (test : Ordering → Bool) (l r : Value) : Except EvalError Value :=
  match l.compare? r with
  | some ordering => .ok (.bool (test ordering))
  | none => .error (.notComparable l r)

def negate : Value → Except EvalError Value
  | .int n => .ok (.int (-n))
  | .float x => .ok (.float (-x))
  | v => .error (.notNumber v)

end Value

def BinaryOp.apply (op : BinaryOp) (l r : Value) : Except EvalError Value :=
  match op with
  | add => l.add r
  | subtract => Value.arithmetic (· - ·) (· - ·) l r
  | multiply => Value.arithmetic (· * ·) (· * ·) l r
  | remainder => l.remainder r
  | equal => .ok (.bool (l.equals r))
  | notEqual => .ok (.bool !(l.equals r))
  | less => Value.ordered Ordering.isLT l r
  | lessEqual => Value.ordered Ordering.isLE l r
  | greater => Value.ordered Ordering.isGT l r
  | greaterEqual => Value.ordered Ordering.isGE l r

end Stencil
