/-!
# `Stencil/Render/Notice.lean` — what a render remarks on

A render that goes on where its author may not have meant it to says so, and it says which blocks
it renders. These remarks are no part of the output. Each is an `Event` in the log of the render,
together with the names of the templates that were under way when it was made.
-/

set_option autoImplicit false

namespace Stencil

inductive Level where
  | warn
  | debug
  | trace
deriving DecidableEq, Repr

def Level.name : Level → String
  | warn => "WARN"
  | debug => "DEBUG"
  | trace => "TRACE"

inductive Notice where
  /-- A loop over a value that has no elements; `value` is its text. -/
  | notIterable (value : String)
  | plainBlock (name : String)
  /-- A slot asks for overrides of its name and finds `levels` of them. -/
  | dispatching (name : String) (levels : Nat)
  /-- A slot in a template that nothing extends. -/
  | noDispatch (name : String)
  /-- An `extend` whose target is not written as a path. -/
  | computedTarget (target : String)
  | missingTemplate (target : String)
  /-- A `super` with no level of a block below it. -/
  | strandedSuper
deriving DecidableEq, Repr

namespace Notice

def level : Notice → Level
  | computedTarget _ => .warn
  | notIterable _ | noDispatch _ | missingTemplate _ | strandedSuper => .debug
  | plainBlock _ | dispatching _ _ => .trace

def message : Notice → String
  | notIterable _ => "loop source is not iterable, skipping"
  | plainBlock _ => "rendering plain block"
  | dispatching _ _ => "dispatching block"
  | noDispatch _ => "no ancestor dispatch installed, block skipped"
  | computedTarget _ => "extends with a computed template name is not supported yet"
  | missingTemplate _ => "extends target could not be loaded"
  | strandedSuper => "super() called outside of a block override"

def fields : Notice → List (String × String)
  | notIterable value => [("value", value)]
  | plainBlock name | noDispatch name => [("block", name)]
  | dispatching name levels => [("block", name), ("levels", toString levels)]
  | computedTarget target => [("target_expr", target)]
  | missingTemplate target => [("template", target)]
  | strandedSuper => []

end Notice

/-- A remark and where it was made. -/
structure Event where
  notice : Notice
  /-- The templates that were under way, from the outermost on. -/
  within : List String
deriving DecidableEq, Repr

end Stencil
