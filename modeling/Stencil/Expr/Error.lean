import Stencil.Value.Text

/-!
# `Stencil/Expr/Error.lean` — why an expression has no value

An operator fails when it is applied to values of a kind it is not defined on, or to a zero
divisor, and the error carries the operands as they were. These are all the ways in which an
expression can fail: a name that is not bound and a field that is not there are no errors, they are
`empty`.
-/

set_option autoImplicit false

namespace Stencil

/-- The application of an operator that has no result, with its operands. -/
inductive EvalError where
  /-- The operand of a sign is no number. -/
  | notNumber (operand : Value)
  /-- The operands of an arithmetic operator other than `+` are not both numbers. -/
  | notNumbers (l r : Value)
  /-- The operands of `+` are not both numbers, both strings or both lists. -/
  | notAddable (l r : Value)
  /-- The operands of an ordering are not both strings, or both numbers other than NaN. -/
  | notComparable (l r : Value)
  /-- The remainder of an integer by the integer zero. -/
  | zeroDivisor (dividend : Value)

namespace EvalError

def code : EvalError → String
  | notNumber _ => "EV001"
  | notNumbers _ _ => "EV002"
  | notAddable _ _ => "EV003"
  | notComparable _ _ => "EV004"
  | zeroDivisor _ => "EV005"

def operands : EvalError → List Value
  | notNumber v | zeroDivisor v => [v]
  | notNumbers l r | notAddable l r | notComparable l r => [l, r]

def pair (l r : Value) : String := "[" ++ l.text ++ " , " ++ r.text ++ "]"

def message : EvalError → String
  | notNumber v => "Non-Number \x7bUnary\x7d: " ++ v.text
  | notNumbers l r => "Non-Numbers \x7bBinary\x7d: " ++ pair l r
  | notAddable l r => "Non-Numbers/Non-Strings \x7bBinary\x7d: " ++ pair l r
  | notComparable l r => "Non-Comparable \x7bBinary\x7d: " ++ pair l r
  | zeroDivisor v => "Division By Zero: " ++ v.text

end EvalError

end Stencil
