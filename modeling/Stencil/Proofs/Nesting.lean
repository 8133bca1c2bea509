import Stencil.Proofs.Frame

/-!
# `Stencil/Proofs/Nesting.lean` — `extend`s executed inside one another

Which overrides are in force depends on the way that the render has taken. An `extend` adds its own
**for as long as the template is rendered that it goes to**, and so those in force are the ones of
the `extend`s that have not come to their end. Each of these is executed inside the one before it,
and

> **their overrides are in force in the order in which the `extend`s are executed**, behind those
> that were in force where the first of them began

(`NestedExtends.dispatch_eq`). The first one stands in the most derived template.

What it is to be inside an `extend` is said by what the `extend` does, and not by the context that
it makes: rendering it comes to rendering some body in some session (`Statement.JumpsTo`). Which
body and which session these are is then a fact about it (`extend_jumpsTo_iff`).
-/

set_option autoImplicit false

namespace Stencil

open Stencil.Action

/-! ## Where a statement jumps to -/

/-- Whatever is done at jumps, rendering the statement from the first session is the jump to the
body in the second, but for how rendering goes on after it and what is put back. -/
def Statement.JumpsTo (statement : Statement) (s : Session) (body : Body) (t : Session) : Prop :=
  ∃ (onward : Flow → Flow) (leave : Context → Context), ∀ jump : Jump,
    statement.renderWith jump s = ((jump body >>= fun flow => pure (onward flow)) t).mapSession
      fun u => { u with context := leave u.context }

/-- The session at the start of a template's body, where an `extend` with these overrides has led to
it. -/
def Session.following (s : Session) (template : Template) (overrides : Registry) : Session :=
  Session.inside { s with context := s.context.addRegistry overrides } template.name

section Extend

variable {target : String} {overrides : Registry} {template : Template} {s t : Session}
  {body : Body}

/-- An `extend` that finds its target. -/
theorem extend_eq_of_found (found : s.context.library.find? target = some template) (jump : Jump) :
    (Statement.extend target true overrides).renderWith jump s =
      (renderExtended jump template overrides >>= fun _ => pure Flow.delegated) s := by
  simp only [Statement.renderWith, if_true]
  rw [context_bind, found]

/-- An `extend` whose target may be entered. -/
theorem extend_eq_of_room (found : s.context.library.find? target = some template)
    (new : template.name ∉ s.context.active)
    (room : s.context.active.length < s.context.settings.maxDepth) (jump : Jump) :
    (Statement.extend target true overrides).renderWith jump s =
      ((jump template.body >>= fun _ => pure Flow.delegated)
        (s.following template overrides)).mapSession fun u =>
          { u with context :=
            { u.context.exitScope.exitTemplate with dispatch := s.context.dispatch } } := by
  have entered : renderTemplate jump template
      { s with context := s.context.addRegistry overrides } = _ := renderTemplate_of_room new room
  rw [extend_eq_of_found found]
  simp only [Bind.bind, renderExtended_eq, entered, Session.following]
  cases jump template.body _ <;> rfl

/-- An `extend` whose target must not be entered. -/
theorem extend_eq_of_error (found : s.context.library.find? target = some template)
    {e : RenderError}
    (he : (s.context.addRegistry overrides).enterTemplate template.name = .error e) (jump : Jump) :
    (Statement.extend target true overrides).renderWith jump s = .failed e s := by
  have refused : renderTemplate jump template
      { s with context := s.context.addRegistry overrides } = .failed e _ :=
    renderTemplate_of_error he
  rw [extend_eq_of_found found]
  simp only [Bind.bind, renderExtended_eq, refused]
  rfl

/-- **An `extend` jumps to the template that is found under its target**, if it may be entered, and
there its overrides are in force behind the others. -/
theorem extend_jumpsTo_iff : (Statement.extend target true overrides).JumpsTo s body t ↔
    ∃ template, s.context.library.find? target = some template ∧
      template.name ∉ s.context.active ∧
      s.context.active.length < s.context.settings.maxDepth ∧
      body = template.body ∧ t = s.following template overrides := by
  classical
  constructor
  · rintro ⟨onward, leave, same⟩
    -- A jump that fails at this body in this session, and nowhere else, is found out by the render.
    let e : EvalError := .zeroDivisor .empty
    let jump : Jump := fun body' u =>
      if body' = body ∧ u = t then .failed (.evaluation e) u else .exhausted
    have fails : jump body t = .failed (.evaluation e) t := if_pos ⟨rfl, rfl⟩
    have stopped := same jump
    rw [bind_failed fails] at stopped
    cases found : s.context.library.find? target with
    | none =>
      simp only [Statement.renderWith, if_true] at stopped
      rw [context_bind, found] at stopped
      cases stopped
    | some template =>
      cases he : (s.context.addRegistry overrides).enterTemplate template.name with
      | error e' =>
        rw [extend_eq_of_error found he] at stopped
        cases stopped
        rcases Context.enterTemplate_eq_error_iff.1 he with ⟨-, h⟩ | ⟨-, -, h⟩
        · cases h
        · cases h
      | ok entered =>
        obtain ⟨new, room, -⟩ := Context.enterTemplate_eq_ok_iff.1 he
        rw [extend_eq_of_room found new room] at stopped
        by_cases there : template.body = body ∧ s.following template overrides = t
        · exact ⟨template, rfl, new, room, there.1.symm, there.2.symm⟩
        · rw [bind_exhausted (if_neg there)] at stopped
          cases stopped
  · rintro ⟨template, found, new, room, rfl, rfl⟩
    let leave (c : Context) : Context :=
      { c.exitScope.exitTemplate with dispatch := s.context.dispatch }
    exact ⟨fun _ => .delegated, leave, extend_eq_of_room found new room⟩

end Extend

/-! ## Inside `extend`s -/

/-- The second session is one inside `extend`s with these overrides, each of them executed inside
the one before it and the first of them where the render was in the first session. -/
inductive NestedExtends (start : Session) : List Registry → Session → Prop
  | here : NestedExtends start [] start
  /-- At the body that an `extend` jumps to. -/
  | extend {registries : List Registry} {s t : Session} {target : String} {overrides : Registry}
    {body : Body} (outer : NestedExtends start registries s)
    (jumps : (Statement.extend target true overrides).JumpsTo s body t) :
    NestedExtends start (registries ++ [overrides]) t
  /-- Anywhere else, as long as no other overrides are in force. -/
  | moved {registries : List Registry} {s t : Session} (outer : NestedExtends start registries s)
    (same : t.context.dispatch = s.context.dispatch) : NestedExtends start registries t

namespace NestedExtends

variable {start s t : Session} {registries : List Registry}

/-- What has been rendered completely leaves the render inside the same `extend`s. -/
theorem after {α : Type} {x : Action α} (h : NestedExtends start registries s) (keeps : Keeps x)
    (ends : (x s).session? = some t) : NestedExtends start registries t :=
  h.moved (keeps s t ends).dispatch

/-- **The overrides of nested `extend`s are in force in the order of the `extend`s.** -/
theorem dispatch_eq (h : NestedExtends start registries s) :
    s.context.dispatch = start.context.dispatch ++ registries := by
  induction h with
  | here => exact (List.append_nil _).symm
  | extend outer jumps ih =>
    obtain ⟨template, -, -, -, -, rfl⟩ := extend_jumpsTo_iff.1 jumps
    rw [← List.append_assoc, ← ih]
    rfl
  | moved outer same ih => exact same.trans ih

end NestedExtends

end Stencil
