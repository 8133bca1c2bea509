import Stencil.Render.Error
import Stencil.Render.Scope
import Stencil.Template.Library

/-!
# `Stencil/Render/Context.lean` — where a render stands

Besides the bindings, a context says where the render stands in the inheritance of its templates:
which overrides are in force, which levels of a block are left for `super`, and which templates are
under way. `enterTemplate` guards the last of the three, and **it is the only operation here that
can fail**.

## Overrides and levels are lists

Each `extend` on the way to the template being rendered adds one registry, and the one that was
executed first belongs to the most derived template and wins. So `dispatch` lists the registries in
the order in which they were added, and the overrides of a block are the bodies found along it. With
no registry at all the template is not being extended by anything, which is what a slot asks before
it renders.

The content of a block has levels in the same sense: each override on top of the one it replaced,
and the default content of the slot at the bottom. While a level is rendered, `supers` lists the
ones below it.
-/

set_option autoImplicit false

namespace Stencil

/-- The state of a render, apart from what it has written. -/
structure Context where
  globals : Scope
  scopes : Scopes
  library : Library
  settings : Settings
  /-- The registries in force, that of the most derived template first. -/
  dispatch : List Registry
  /-- The levels of the block being rendered that lie below the current one, the nearest first. -/
  supers : List Body
  /-- The names of the templates under way, the outermost first. -/
  active : List String

namespace Context

def start (library : Library) (globals : Scope) (settings : Settings) : Context :=
  { globals, library, settings, scopes := .root, dispatch := [], supers := [], active := [] }

/-! ## Bindings -/

/-- The value of a name, in the scopes and then among the globals. -/
def find? (c : Context) (name : String) : Option Value :=
  (c.scopes.find? name).or (c.globals.get? name)

def enterScope (c : Context) : Context := { c with scopes := c.scopes.enter }

def exitScope (c : Context) : Context := { c with scopes := c.scopes.exit }

def assign (c : Context) (names : List String) (value : Value) : Context :=
  { c with scopes := c.scopes.modify (·.assign names value) }

def isolated (c : Context) : Context := { c with scopes := .root }

/-- A name has a value just when one of the scopes or the globals bind it. -/
theorem isSome_find?_iff {c : Context} {name : String} :
    (c.find? name).isSome ↔ c.scopes.Binds name ∨ (c.globals.get? name).isSome := by
  rw [find?, Option.isSome_or, Bool.or_eq_true, Scopes.isSome_find?_iff]

@[simp] theorem find?_enterScope (c : Context) (name : String) :
    c.enterScope.find? name = c.find? name := rfl

@[simp] theorem find?_isolated (c : Context) (name : String) :
    c.isolated.find? name = c.globals.get? name := rfl

/-- After an assignment the names that it binds mean the new values, and every other name what it
meant before. -/
theorem find?_assign (c : Context) (names : List String) (value : Value) (name : String) :
    (c.assign names value).find? name = (Scope.assigned names value name).or (c.find? name) := by
  simp only [find?, assign, Scopes.find?, Scopes.modify, List.findSome?_cons, Scope.get?_assign]
  cases Scope.assigned names value name <;> rfl

/-! ## Inheritance -/

/-- The overrides of a block, that of the most derived template first. -/
def overrides (c : Context) (name : String) : List Body := c.dispatch.filterMap (·.find? name)

/-- The context with one more registry in force, behind those of more derived templates. -/
def addRegistry (c : Context) (registry : Registry) : Context :=
  { c with dispatch := c.dispatch ++ [registry] }

/-- The context with a template under way. A template that is under way already is reported as a
cycle, however deep the render is. -/
def enterTemplate (c : Context) (name : String) : Except RenderError Context :=
  if name ∈ c.active then .error (.cycle (c.active ++ [name]))
  else if c.settings.maxDepth ≤ c.active.length then
    .error (.tooDeep (c.active.length + 1) c.settings.maxDepth)
  else .ok { c with active := c.active ++ [name] }

theorem enterTemplate_eq_ok_iff {c entered : Context} {name : String} :
    c.enterTemplate name = .ok entered ↔
      name ∉ c.active ∧ c.active.length < c.settings.maxDepth ∧
        entered = { c with active := c.active ++ [name] } := by
  unfold enterTemplate
  by_cases known : name ∈ c.active
  · simp [known]
  · by_cases full : c.settings.maxDepth ≤ c.active.length
    · simp [known, full, Nat.not_lt.2 full]
    · simp [known, full, Nat.lt_of_not_le full, eq_comm]

theorem enterTemplate_eq_error_iff {c : Context} {name : String} {e : RenderError} :
    c.enterTemplate name = .error e ↔
      (name ∈ c.active ∧ e = .cycle (c.active ++ [name])) ∨
      (name ∉ c.active ∧ c.settings.maxDepth ≤ c.active.length ∧
        e = .tooDeep (c.active.length + 1) c.settings.maxDepth) := by
  unfold enterTemplate
  by_cases known : name ∈ c.active
  · simp [known, eq_comm]
  · by_cases full : c.settings.maxDepth ≤ c.active.length
    · simp [known, full, eq_comm]
    · simp [known, full]

def exitTemplate (c : Context) : Context := { c with active := c.active.dropLast }

end Context

end Stencil
