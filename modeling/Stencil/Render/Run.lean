import Stencil.Render.Statement

/-!
# `Stencil/Render/Run.lean` — rendering with a bound on the depth

Templates can send a render around in circles: a block may be overridden by a body that has a slot
of the same name in it. So the functions here take a bound, **the number of jumps that may be open
inside one another**. It is a bound on nesting and not on work: a loop over a million elements needs
no more of it than its body does once. A render that is done or has failed within a bound ends in
the same way within any larger one.
-/

set_option autoImplicit false

namespace Stencil

/-- Renders a body with at most `bound` jumps open inside one another, this one included. -/
def jumpWithin : Nat → Jump
  | 0 => fun _ => Action.giveUp
  | bound + 1 => renderAllWith (jumpWithin bound)

def Statement.render (bound : Nat) (statement : Statement) : Action Flow :=
  statement.renderWith (jumpWithin bound)

def renderAll (bound : Nat) (body : Body) : Action Flow := renderAllWith (jumpWithin bound) body

def Template.render (bound : Nat) (template : Template) : Action Unit :=
  renderTemplate (jumpWithin bound) template

def Template.run (bound : Nat) (template : Template) (library : Library) (globals : Scope)
    (settings : Settings) : Outcome Unit :=
  template.render bound (.start (.start library globals settings))

end Stencil
