import Stencil.Expr.Basic

/-!
# `Stencil/Template/Statement.lean` — what a template is made of

A template is a list of statements, and a statement holds lists of statements in turn. Nine kinds
cover the language: text, the value of an expression, a loop, a condition, an assignment, and the
four that inheritance is made of.

## Inheritance

A template *extends* another by naming it and registering *overrides*, bodies under block names.
The other template is then rendered in its place, and wherever that one has a *slot*, the override
registered under the slot's name is rendered instead of the slot's own body. Inside an override,
`super` renders what the override replaced. A *block* is the same piece of text where nothing can
replace it; it only has a name.

An `else` that is missing and one that is empty are the same thing here: the body that
is rendered when a loop finds no items is `[]` in both cases.
-/

set_option autoImplicit false

namespace Stencil

mutual

inductive Statement where
  | text (s : String)
  | output (value : Expr)
  /-- The body once for each element of the source that passes the filter, with the element bound
  to the variable, or its fields to the variables when there are several; `otherwise` when there
  was no such element. -/
  | loop (vars : List String) (source : Expr) (filter : Option Expr)
      (body otherwise : List Statement)
  /-- The body if the condition holds, and else the first branch whose guard does. -/
  | cond (guard : Expr) (body : List Statement) (branches : List Branch)
  /-- Binds the value to the target, or its fields to the targets when there are several. Without
  a value it does nothing. -/
  | assign (targets : List String) (value : Option Expr)
  /-- A named piece of a template that nothing overrides. -/
  | block (name : String) (body : List Statement)
  /-- A named piece of a template that descendants may override, with its default content. What is
  rendered in it sees the bindings around it only if it `inherits` them. -/
  | slot (name : String) (inherits : Bool) (body : List Statement)
  /-- Renders the template called `target` instead of the rest of this one, with the registered
  overrides. A target that is computed at render time, not written as a path, is not followed. -/
  | extend (target : String) (isPath : Bool) (overrides : List (String × List Statement))
  /-- The content that the override around it replaced. -/
  | super

/-- A further branch of a condition; without a guard it is the plain `else`. -/
structure Branch where
  guard : Option Expr
  body : List Statement

end

abbrev Body := List Statement

/-- The overrides that one `extend` registers, by block name. -/
abbrev Registry := List (String × Body)

/-- The body registered under a name; the last one, when there are several. -/
def Registry.find? (registry : Registry) (name : String) : Option Body :=
  registry.reverse.lookup name

theorem Registry.find?_cons (key : String) (body : Body) (rest : Registry) (name : String) :
    Registry.find? ((key, body) :: rest) name =
      (rest.find? name).or (if name = key then some body else none) := by
  unfold Registry.find?
  rw [List.reverse_cons, List.lookup_append, List.lookup_cons, List.lookup_nil]
  by_cases same : name = key
  · simp [same]
  · simp [same, beq_false_of_ne same]

end Stencil
