import Stencil.Expr.Error

/-!
# `Stencil/Render/Error.lean` — why a render stops

A render stops at the first expression that has no value, and at a template that must not be
entered: one that is under way already, or one more than the settings allow at once. Nothing else
stops it. A template that cannot be found, a block nobody renders and a loop over a scalar are
noticed (`Stencil/Render/Notice.lean`) and the render goes on.
-/

set_option autoImplicit false

namespace Stencil

/-- What a render stopped at. -/
inductive RenderError where
  | evaluation (error : EvalError)
  /-- The templates under way from the outermost on, and last the one of them that was to be entered
  again. -/
  | cycle (chain : List String)
  /-- The number of templates that would have been under way, and the most that may be. -/
  | tooDeep (depth limit : Nat)

namespace RenderError

def code : RenderError → String
  | evaluation error => error.code
  | cycle _ => "RE001"
  | tooDeep _ _ => "RE002"

def message : RenderError → String
  | evaluation error => error.message
  | cycle chain => "Inheritance Cycle: " ++ " -> ".intercalate chain
  | tooDeep depth limit => "Inheritance Too Deep: " ++ toString depth ++ " of " ++ toString limit

end RenderError

end Stencil
