import Stencil.Render.Compositional

/-!
# `Stencil/Render/Bound.lean` — a larger bound changes nothing

The bound of `Stencil/Render/Run.lean` is there to make rendering a total function. That it is
nothing else is the content of this file:

> **what ends within a bound ends in the same way within any larger one**, with the same outcome,
> output, log and context.

So "whenever rendering ends" needs no mention of how large the bound was: two bounds that are large
enough agree (`render_agree`). An action *approximates* another when it gives up or ends as the
other does. Every operation of `Stencil/Render/Action.lean` keeps that relation, and hence so
does every statement (`Stencil/Render/Compositional.lean`), which hands it on from the jumps it
makes.
-/

set_option autoImplicit false

namespace Stencil

namespace Action

/-! ## Approximation -/

/-- From every session, the one action gives up or ends as the other does. -/
def Approximates {α : Type} (x y : Action α) : Prop := ∀ s, x s = .exhausted ∨ x s = y s

namespace Approximates

variable {α β : Type} {x y z : Action α}

theorem refl (x : Action α) : Approximates x x := fun _ => .inr rfl

theorem giveUp (y : Action α) : Approximates giveUp y := fun _ => .inl rfl

theorem trans (h : Approximates x y) (k : Approximates y z) : Approximates x z := by
  intro s
  rcases h s with h | h
  · exact .inl h
  · rw [h]
    exact k s

theorem bind {f g : α → Action β} (h : Approximates x y) (k : ∀ a, Approximates (f a) (g a)) :
    Approximates (x >>= f) (y >>= g) := by
  intro s
  simp only [Bind.bind]
  rcases h s with h | h
  · simp [h]
  · rw [← h]
    cases x s with
    | done a t => exact k a t
    | failed e t => exact .inr rfl
    | exhausted => exact .inl rfl

theorem bracket (enter : Context → Context) (leave : Context → Context → Context)
    (h : Approximates x y) : Approximates (bracket enter leave x) (bracket enter leave y) := by
  intro s
  simp only [Action.bracket]
  rcases h { s with context := enter s.context } with h | h
  · simp [h]
  · exact .inr (by rw [h])

theorem inScope (h : Approximates x y) : Approximates (inScope x) (inScope y) :=
  bracket _ _ h

theorem isolated (h : Approximates x y) : Approximates (isolated x) (isolated y) :=
  bracket _ _ h

theorem withSupers (levels : List Body) (h : Approximates x y) :
    Approximates (withSupers levels x) (withSupers levels y) :=
  bracket _ _ h

theorem withRegistry (registry : Registry) (h : Approximates x y) :
    Approximates (withRegistry registry x) (withRegistry registry y) :=
  bracket _ _ h

theorem inTemplate (name : String) (h : Approximates x y) :
    Approximates (inTemplate name x) (inTemplate name y) := by
  intro s
  simp only [Action.inTemplate]
  cases s.context.enterTemplate name with
  | error e => exact .inr rfl
  | ok entered => exact bracket _ _ h s

theorem compositional :
    Compositional fun _ (x : Bool → Action _) => Approximates (x false) (x true) where
  pure _ := refl _
  bind := bind
  context := refl _
  write _ := refl _
  notify _ := refl _
  evaluate _ := refl _
  assign _ _ := refl _
  inScope := inScope
  isolated := isolated
  withSupers := withSupers
  withRegistry := withRegistry
  inTemplate := inTemplate

end Approximates

end Action

/-! ## Statements -/

open Stencil.Action

section Jumps

variable {jump jump' : Jump} (h : ∀ body, Approximates (jump body) (jump' body))
include h

theorem renderWith_approximates (statement : Statement) :
    Approximates (statement.renderWith jump) (statement.renderWith jump') :=
  @Compositional.renderWith _ _ Approximates.compositional (Bool.rec jump jump') h statement

theorem renderAllWith_approximates (body : Body) :
    Approximates (renderAllWith jump body) (renderAllWith jump' body) :=
  @Compositional.renderAllWith _ _ Approximates.compositional (Bool.rec jump jump') h body

theorem renderTemplate_approximates (template : Template) :
    Approximates (renderTemplate jump template) (renderTemplate jump' template) :=
  @Compositional.renderTemplate _ _ Approximates.compositional (Bool.rec jump jump') h template

end Jumps

/-! ## Bounds -/

theorem jumpWithin_approximates_succ (bound : Nat) (body : Body) :
    Approximates (jumpWithin bound body) (jumpWithin (bound + 1) body) := by
  induction bound generalizing body with
  | zero => exact .giveUp _
  | succ bound ih => exact renderAllWith_approximates ih body

theorem jumpWithin_approximates {bound bound' : Nat} (le : bound ≤ bound') (body : Body) :
    Approximates (jumpWithin bound body) (jumpWithin bound' body) := by
  induction le with
  | refl => exact .refl _
  | step _ ih => exact ih.trans (jumpWithin_approximates_succ _ body)

theorem Statement.render_approximates {bound bound' : Nat} (le : bound ≤ bound')
    (statement : Statement) :
    Approximates (statement.render bound) (statement.render bound') :=
  renderWith_approximates (jumpWithin_approximates le) statement

theorem Template.render_approximates {bound bound' : Nat} (le : bound ≤ bound')
    (template : Template) : Approximates (template.render bound) (template.render bound') :=
  renderTemplate_approximates (jumpWithin_approximates le) template

/-- Two bounds within which a template ends see it end in the same way. -/
theorem Template.render_agree {bound bound' : Nat} {template : Template} {s : Session}
    (ends : template.render bound s ≠ .exhausted) (ends' : template.render bound' s ≠ .exhausted) :
    template.render bound s = template.render bound' s := by
  rcases Nat.le_total bound bound' with le | le
  · exact (template.render_approximates le s).resolve_left ends
  · exact ((template.render_approximates le s).resolve_left ends').symm

end Stencil
