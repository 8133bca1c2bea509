import Stencil.Expr.Operator
import Stencil.Value.View

/-!
# `Stencil/Expr/Basic.lean` — expressions and their values

An expression is evaluated against a lookup of names, which is all it can see of the render it is
part of. Operands are evaluated from left to right and the first error is the error of the whole;
`and` and `or` evaluate their right side only when the left does not decide, and give back the
deciding operand itself rather than a truth value.

## Being defined

`x is defined` asks whether a name or a field is *bound*, which is not the same as having a value
other than `empty`: a name bound to `empty` is defined. `isBound` follows a path of fields from its
root and stops at the first one that is missing, without an error; an error in evaluating the root
is an error of the question too. Anything that is no name and no field counts as bound, and is not
evaluated at all.
-/

set_option autoImplicit false

namespace Stencil

inductive Expr where
  | const (value : Value)
  | var (name : String)
  | field (object : Expr) (name : String)
  | not (operand : Expr)
  | negate (operand : Expr)
  | binary (op : BinaryOp) (l r : Expr)
  | and (l r : Expr)
  | or (l r : Expr)
  | list (items : List Expr)
  | isDefined (subject : Expr)

namespace Expr

mutual

def eval (find? : String → Option Value) : Expr → Except EvalError Value
  | .const value => .ok value
  | .var name => .ok ((find? name).getD .empty)
  | .field object name => do return (← object.eval find?).field name
  | .not operand => do return .bool !(← operand.eval find?).isTruthy
  | .negate operand => do (← operand.eval find?).negate
  | .binary op l r => do
    let l ← l.eval find?
    let r ← r.eval find?
    op.apply l r
  | .and l r => do
    let l ← l.eval find?
    if l.isTruthy then r.eval find? else return l
  | .or l r => do
    let l ← l.eval find?
    if l.isTruthy then return l else r.eval find?
  | .list items => do return .ofList (← evalAll find? items)
  | .isDefined subject => do return .bool (← subject.isBound find?)
termination_by structural e => e

/-- Whether what the expression names is bound. -/
def isBound (find? : String → Option Value) : Expr → Except EvalError Bool
  | .var name => .ok (find? name).isSome
  | .field object name => do
    if ← object.isBound find? then return (← object.eval find?).hasField name else return false
  | _ => .ok true
termination_by structural e => e

def evalAll (find? : String → Option Value) : List Expr → Except EvalError (List Value)
  | [] => .ok []
  | e :: rest => do
    let v ← e.eval find?
    return v :: (← evalAll find? rest)
termination_by structural es => es

end

end Expr

end Stencil
