import Stencil.Render.Loop

/-!
# `Stencil/Render/Statement.lean` — what each statement does

Most of rendering recurses on the statement being rendered. Four things do not: an override, the
default content of a slot, a level that `super` renders and the body of a template that is being
extended may each contain anything, also a way back to where the render came from. These are the
**jumps**, and the functions here take as an argument what to do at one. What is left is
structural recursion, and whatever is true of the effect of a statement can be shown by
induction on it under an assumption about jumps. `Stencil/Render/Run.lean` ties the knot.

## Delegation

`Flow.delegated` is what `extend` returns once it has followed its target, whether the target was
found or not. Every statement hands it on, so that nothing after the `extend` is rendered: not the
rest of its list or of any list around it, not the remaining elements or the `otherwise` of a loop.
Only `renderTemplate` drops it, because there the render has arrived at the template whose rest was
to be skipped; and the `extend` that rendered *that* template delegates in turn.
-/

set_option autoImplicit false

namespace Stencil

/-- What is done at a jump: a body is rendered in the current context. -/
abbrev Jump := Body → Action Flow

open Stencil.Action

/-! ## Blocks, levels and templates -/

/-- Renders the topmost of these levels of a block, with the others left for `super`. -/
def renderLevels (jump : Jump) : List Body → Action Flow
  | [] => return .proceed
  | level :: below => withSupers below (jump level)

def dispatchBlock (name : String) : Action (List Body) := do
  let overrides := (← context).overrides name
  notify (.dispatching name overrides.length)
  return overrides

/-- Renders the overrides of a block on top of the levels now left for `super`; no result when
there is no override. -/
def renderOverride? (jump : Jump) (name : String) : Action (Option Flow) := do
  match ← dispatchBlock name with
  | [] => return none
  | overrides => return some (← renderLevels jump (overrides ++ (← context).supers))

/-- Renders a slot in the current scopes: its overrides on top of its default content, which is left
for `super` before it is known whether there are any. -/
def renderSlot (jump : Jump) (name : String) (default : Body) : Action Flow :=
  inScope <| withSupers [default] do
    match ← renderOverride? jump name with
    | some flow => return flow
    | none => renderLevels jump [default]

/-- The overrides of a slot and its default content are the levels of one block, of which the
topmost is rendered. -/
theorem renderSlot_eq_renderLevels (jump : Jump) (name : String) (default : Body) :
    renderSlot jump name default = inScope (do
      renderLevels jump ((← dispatchBlock name) ++ [default])) := by
  unfold renderSlot
  congr 1
  funext s
  -- Levels put back what was left for `super` before, and then so does the slot.
  have put_back (level : Body) (below : List Body) (t : Session) :
      withSupers [default] (renderLevels jump (level :: below)) t =
        renderLevels jump (level :: below) t := by
    simp only [renderLevels, withSupers, bracket]
    cases jump level { t with context := { t.context with supers := below } } <;> rfl
  have overrides : ({ s.context with supers := [default] } : Context).overrides name =
      s.context.overrides name := rfl
  simp only [renderOverride?, dispatchBlock, Bind.bind, context, notify, Pure.pure]
  cases found : s.context.overrides name with
  | nil =>
    rw [List.nil_append, ← put_back]
    simp only [withSupers, bracket, overrides, found]
  | cons level below =>
    rw [List.cons_append, ← put_back]
    simp only [withSupers, bracket, overrides, found, List.cons_append]
    cases renderLevels jump (level :: (below ++ [default])) _ <;> rfl

def renderTemplate (jump : Jump) (template : Template) : Action Unit :=
  inTemplate template.name do discard (jump template.body)

def renderExtended (jump : Jump) (template : Template) (overrides : Registry) : Action Unit :=
  withRegistry overrides (renderTemplate jump template)

/-! ## Statements -/

mutual

def Statement.renderWith (jump : Jump) : Statement → Action Flow
  | .text s => do
    write s
    return .proceed
  | .output value => do
    write (← evaluate value).text
    return .proceed
  | .loop vars source filter body otherwise => do
    let value ← evaluate source
    match value.toSequence? with
    | none =>
      notify (.notIterable value.text)
      return .proceed
    | some items =>
      let (flow, count) ← inScope do
        let items ← filtered vars filter items
        return (← forEach vars items (renderAllWith jump body), items.size)
      match flow with
      | .proceed => if count = 0 then renderAllWith jump otherwise else return .proceed
      | .delegated => return .delegated
  | .cond guard body branches => do
    if (← evaluate guard).isTruthy then renderAllWith jump body
    else renderFirstWith jump branches
  | .assign targets value => do
    match value with
    | none => return .proceed
    | some value =>
      assign targets (← evaluate value)
      return .proceed
  | .block name body => do
    notify (.plainBlock name)
    renderAllWith jump body
  | .slot name inherits default => do
    if (← context).dispatch.isEmpty then
      notify (.noDispatch name)
      return .proceed
    else if inherits then renderSlot jump name default
    else isolated (renderSlot jump name default)
  | .extend target isPath overrides => do
    if isPath then
      match (← context).library.find? target with
      | none => notify (.missingTemplate target)
      | some template => renderExtended jump template overrides
      return .delegated
    else
      notify (.computedTarget target)
      return .proceed
  | .super => do
    match (← context).supers with
    | [] =>
      notify .strandedSuper
      return .proceed
    | levels => renderLevels jump levels
termination_by structural statement => statement

/-- Renders statements one after the other, until one delegates. -/
def renderAllWith (jump : Jump) : List Statement → Action Flow
  | [] => return .proceed
  | statement :: rest => do
    match ← statement.renderWith jump with
    | .proceed => renderAllWith jump rest
    | .delegated => return .delegated
termination_by structural statements => statements

/-- Renders the first branch whose guard holds. The guards after it are not evaluated. -/
def renderFirstWith (jump : Jump) : List Branch → Action Flow
  | [] => return .proceed
  | ⟨none, body⟩ :: _ => renderAllWith jump body
  | ⟨some guard, body⟩ :: rest => do
    if (← evaluate guard).isTruthy then renderAllWith jump body else renderFirstWith jump rest
termination_by structural branches => branches

end

end Stencil
