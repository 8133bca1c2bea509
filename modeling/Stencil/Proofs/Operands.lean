import Stencil.Expr.Basic

/-!
# `Stencil/Proofs/Operands.lean` — which operands an operator refuses

The operators of `Stencil/Expr/Operator.lean` fail where the work is done, each in its own way: the
conversion of two numbers to one type finds no numbers, the ordering has no answer, a divisor is
caught beforehand. This file has the other view of the same thing, a table:

> **an operator refuses operands by their kinds**, and by nothing else but the zero divisor and NaN.

`Application.fault?` is the table and `Application.result_eq_error_iff` says that it is right. Who
asks whether an evaluation fails (`Stencil/Proofs/Faults.lean`) need not look into an operator
again.

That no integer is refused by an ordering is less obvious than it looks. Beside a float it is
converted, and the nearest float to an integer could have been none (`Binary64.isNaN_ofInt64`).
-/

set_option autoImplicit false

namespace Stencil

/-! ## Kinds of values -/

/-- What an operator tells values apart by. An integer and a float are both numbers. -/
inductive Kind where
  | empty
  | bool
  | number
  | string
  | list
  | map
deriving DecidableEq, Repr

namespace Value

def kind : Value → Kind
  | .empty => .empty
  | .bool _ => .bool
  | .int _ | .float _ => .number
  | .string _ => .string
  | .list _ => .list
  | .map _ => .map

/-- Both values are of this kind. -/
abbrev Both (kind : Kind) (l r : Value) : Prop := l.kind = kind ∧ r.kind = kind

def isNaN : Value → Bool
  | .float x => x.isNaN
  | _ => false

/-- The integer that the value is, if it is one. -/
def int? : Value → Option Int64
  | .int n => some n
  | _ => none

end Value

/-! ## The table -/

open Value (Both)

/-- The error that an operator makes of two operands, unless it is defined on them. -/
def BinaryOp.fault? (op : BinaryOp) (l r : Value) : Option EvalError :=
  match op with
  | add =>
    if Both .number l r ∨ Both .string l r ∨ Both .list l r then none else some (.notAddable l r)
  | subtract | multiply => if Both .number l r then none else some (.notNumbers l r)
  | remainder =>
    if ¬Both .number l r then some (.notNumbers l r)
    else if l.int?.isSome ∧ r.int? = some 0 then some (.zeroDivisor l)
    else none
  | equal | notEqual => none
  | less | lessEqual | greater | greaterEqual =>
    if Both .string l r ∨ Both .number l r ∧ l.isNaN = false ∧ r.isNaN = false then none
    else some (.notComparable l r)

/-- An operator with the values it is applied to. That is all operators but `and` and `or`, which
take whatever they are given. -/
inductive Application where
  | not (operand : Value)
  | negate (operand : Value)
  | binary (op : BinaryOp) (l r : Value)

namespace Application

def result : Application → Except EvalError Value
  | not v => .ok (.bool !v.isTruthy)
  | negate v => v.negate
  | binary op l r => op.apply l r

/-- The error that comes of the application, unless it has a result. -/
def fault? : Application → Option EvalError
  | not _ => none
  | negate v => if v.kind = .number then none else some (.notNumber v)
  | binary op l r => op.fault? l r

end Application

/-! ## The table is right -/

/-- The error that a computation has ended with. -/
def EvalError.of? {α : Type} : Except EvalError α → Option EvalError
  | .ok _ => none
  | .error e => some e

theorem EvalError.of?_eq_some_iff {α : Type} {x : Except EvalError α} {e : EvalError} :
    EvalError.of? x = some e ↔ x = .error e := by
  cases x with
  | ok a => simp [EvalError.of?]
  | error e' => simp [EvalError.of?]

theorem Numbers.isSome_of?_iff (l r : Value) : (Numbers.of? l r).isSome ↔ Both .number l r := by
  cases l <;> cases r <;> simp [Numbers.of?, Value.kind, Both]

namespace Value

open EvalError (of?)

theorem fault_arithmetic (onInts : Int64 → Int64 → Int64) (onFloats : Float → Float → Float)
    (l r : Value) :
    of? (arithmetic onInts onFloats l r) =
      if Both .number l r then none else some (.notNumbers l r) := by
  unfold arithmetic
  simp only [← Numbers.isSome_of?_iff]
  cases Numbers.of? l r with
  | none => rfl
  | some numbers => rfl

theorem fault_add (l r : Value) : of? (l.add r) = BinaryOp.add.fault? l r := by
  cases l <;> cases r <;> rfl

theorem fault_remainder (l r : Value) :
    of? (l.remainder r) = BinaryOp.remainder.fault? l r := by
  cases l with
  | int m =>
    cases r with
    | int n =>
      by_cases zero : n = 0
      · subst zero
        rfl
      · rw [remainder_ints m zero]
        simp [of?, BinaryOp.fault?, kind, int?, zero]
    | _ => rfl
  | _ => cases r <;> rfl

/-- Numbers compare unless one of them is NaN. -/
theorem isSome_compare?_iff (l r : Value) :
    (l.compare? r).isSome ↔
      Both .string l r ∨ Both .number l r ∧ l.isNaN = false ∧ r.isNaN = false := by
  cases l <;> cases r <;>
    simp only [compare?, Numbers.of?, Numbers.compare?, Option.bind_some, Option.bind_none,
      Option.isSome_some, Option.isSome_none, Both, kind, isNaN, Binary64.isSome_compare?_iff,
      Binary64.isNaN_ofInt64, reduceCtorEq, and_self, and_false, false_and, true_and, or_false,
      false_or, Bool.false_eq_true]

theorem fault_ordered (test : Ordering → Bool) (l r : Value) :
    of? (ordered test l r) =
      if Both .string l r ∨ Both .number l r ∧ l.isNaN = false ∧ r.isNaN = false then none
      else some (.notComparable l r) := by
  unfold ordered
  simp only [← isSome_compare?_iff]
  cases l.compare? r with
  | none => rfl
  | some ordering => rfl

theorem fault_negate (v : Value) :
    of? v.negate = if v.kind = .number then none else some (.notNumber v) := by
  cases v <;> rfl

end Value

open EvalError (of?)

theorem BinaryOp.fault_apply (op : BinaryOp) (l r : Value) :
    of? (op.apply l r) = op.fault? l r := by
  cases op with
  | add => exact l.fault_add r
  | subtract | multiply => exact Value.fault_arithmetic _ _ l r
  | remainder => exact l.fault_remainder r
  | equal | notEqual => rfl
  | less | lessEqual | greater | greaterEqual => exact Value.fault_ordered _ l r

theorem Application.fault_result (a : Application) : of? a.result = a.fault? := by
  cases a with
  | not v => rfl
  | negate v => exact v.fault_negate
  | binary op l r => exact op.fault_apply l r

/-- **An application fails just where the table says, and with the error that it says.** -/
theorem Application.result_eq_error_iff {a : Application} {e : EvalError} :
    a.result = .error e ↔ a.fault? = some e := by
  rw [← fault_result, EvalError.of?_eq_some_iff]

end Stencil
