import Stencil.Proofs.Visibility

/-!
# `Stencil/Proofs/Enclosing.lean` — what a slot takes from the scopes around it

A slot that inherits is rendered in the scopes around it. One that does not is rendered in a chain
of its own, where only the globals are seen. That is the whole difference: the overrides in force,
the library, the settings and the templates under way come along into both. So

> **a slot that mentions nothing that is bound around it is the same slot, whether it inherits or
> not.**

What it mentions is what it *can come to* mention (`Context.MayMention`). The levels that are left
for `super` around the slot are no part of that. A slot has levels of its own, down to its default
content, and puts back the ones around it when it is through (`renderSlot_leaving`).
-/

set_option autoImplicit false

namespace Stencil

open Stencil.Action

/-! ## What a slot can come to -/

/-- The name occurs in something that a slot can come to render: in its default content, in an
override in force, or in a template of the library. -/
inductive Context.MayMention (c : Context) (default : Body) (name : String) : Prop
  | default (occurs : Mentioned (bodyParts default) name)
  | override {registry : Registry} (inForce : registry ∈ c.dispatch) {block : String} {level : Body}
    (found : registry.find? block = some level) (occurs : Mentioned (bodyParts level) name)
  | template {target : String} {template : Template}
    (found : c.library.find? target = some template)
    (occurs : Mentioned (bodyParts template.body) name)

/-- The session with other levels left for `super`. -/
def Session.leaving (s : Session) (levels : List Body) : Session :=
  { s with context := { s.context with supers := levels } }

theorem Session.leaving_mentionsOnly (s : Session) (default : Body) :
    (s.leaving []).context.standing.MentionsOnly (s.context.MayMention default) :=
  ⟨fun _ _ found _ occurs => .template found occurs,
    fun _ inForce _ _ found _ occurs => .override inForce found occurs,
    fun _ mem => absurd mem List.not_mem_nil⟩

/-! ## The levels around a slot -/

section Levels

variable {jump : Jump}

theorem withSupers_leaving {α : Type} (below levels : List Body) (x : Action α) (s : Session) :
    withSupers below x (s.leaving levels) =
      (withSupers below x s).mapSession (·.leaving levels) := by
  unfold withSupers
  rw [bracket_eq, bracket_eq, Outcome.mapSession_mapSession]
  rfl

theorem renderLevels_leaving (top : Body) (below levels : List Body) (s : Session) :
    renderLevels jump (top :: below) (s.leaving levels) =
      (renderLevels jump (top :: below) s).mapSession (·.leaving levels) :=
  withSupers_leaving below levels (jump top) s

/-- A slot does the same whatever is left for `super` around it, and leaves that as it was. -/
theorem renderSlot_leaving (name : String) (default : Body) (levels : List Body) (s : Session) :
    renderSlot jump name default (s.leaving levels) =
      (renderSlot jump name default s).mapSession (·.leaving levels) := by
  obtain ⟨top, below, split⟩ : ∃ top below, s.context.overrides name ++ [default] = top :: below :=
    List.exists_cons_of_ne_nil (by simp)
  have same : (s.leaving levels).context.overrides name = s.context.overrides name := rfl
  rw [renderSlot_eq, renderSlot_eq, same, split]
  generalize (s.context.overrides name).length = count
  have moved := @renderLevels_leaving jump top below levels
    (Session.noticing { s with context := s.context.enterScope } (.dispatching name count))
  refine (congrArg (Outcome.mapSession _) moved).trans ?_
  rw [Outcome.mapSession_mapSession, Outcome.mapSession_mapSession]
  rfl

end Levels

/-! ## The scopes around a slot -/

/-- Two actions that restore the context and write the same are the same action, from there. -/
theorem Restores.eq_of_related {α : Type} {x y : Action α} {s : Session} (hx : Restores x)
    (hy : Restores y) (same : (x s).Related SameWriting (y s)) : x s = y s := by
  have equal : (x s).Related Eq (y s) := by
    refine same.imp fun t u ht hu written => ?_
    obtain ⟨context, output, log⟩ := u
    obtain rfl : output = t.output := written.output
    obtain rfl : log = t.log := written.log
    obtain rfl : context = t.context := (hy s _ hu).trans (hx s t ht).symm
    rfl
  generalize x s = o at equal
  generalize y s = o' at equal
  cases equal with
  | done a same => rw [same]
  | failed e same => rw [same]
  | exhausted => rfl

section Scopes

variable {visible : String → Prop} {jump : Jump} {s : Session}

/-- Where no scope binds a visible name, there is nothing more to see than the globals. -/
theorem isolated_looksLike (unbound : ∀ x, visible x → ¬s.context.scopes.Binds x) :
    LooksLike visible s { s with context := s.context.isolated } := by
  refine ⟨rfl, rfl, rfl, fun x seen => ?_, fun x seen => rfl⟩
  rw [Context.find?_isolated, Context.find?, Scopes.find?_eq_none_iff.2 (unbound x seen),
    Option.none_or]

theorem renderSlot_eq_isolated (follows : (lookingAlike visible).Follows jump jump) {name : String}
    {default : Body} (only : MentionsOnly visible (bodyParts default))
    (reachable : (s.leaving []).context.standing.MentionsOnly visible)
    (unbound : ∀ x, visible x → ¬s.context.scopes.Binds x) :
    renderSlot jump name default s = isolated (renderSlot jump name default) s := by
  apply (renderSlot_restores follows.left name default).eq_of_related (.isolated _)
  -- Both renders are moved to where nothing is left for `super`, as nothing is known of that.
  let bare := s.leaving []
  let apart : Session := { bare with context := bare.context.isolated }
  have alike : LooksLike visible bare apart := isolated_looksLike unbound
  have overrides : List.Forall₂ (lookingAlike visible).bodies (bare.context.overrides name)
      (apart.context.overrides name) :=
    List.forall₂_same.2 fun level mem => ⟨rfl, reachable.overrides mem⟩
  have written := (Comparison.renderSlot_written follows ⟨rfl, only⟩ (alike.abreast reachable)
    overrides).related fun _ _ excused => excused
  have here : renderSlot jump name default s =
      (renderSlot jump name default bare).mapSession (·.leaving s.context.supers) :=
    renderSlot_leaving name default s.context.supers bare
  have there : renderSlot jump name default { s with context := s.context.isolated } =
      (renderSlot jump name default apart).mapSession (·.leaving s.context.supers) :=
    renderSlot_leaving name default s.context.supers apart
  rw [isolated, bracket_eq, here, there, Outcome.mapSession_mapSession]
  exact written.mapSession fun t u same => ⟨same.output, same.log⟩

end Scopes

/-- **Inheriting is seeing what is bound around.** When no scope binds a name that a slot can come
to mention, the slot ends in the same way whether it inherits or not, with the same text and the
same remarks; and the context is left as it was, in either case and even if the names are bound. -/
theorem inheriting_changes_nothing (bound : Nat) (name : String) (default : Body) (s : Session) :
    ((∀ x, s.context.MayMention default x → ¬s.context.scopes.Binds x) →
      (Statement.slot name true default).render bound s =
        (Statement.slot name false default).render bound s) ∧
    ∀ inherits t, ((Statement.slot name inherits default).render bound s).session? = some t →
      t.context = s.context := by
  have follows := jumpWithin_lookingAlike (s.context.MayMention default) bound
  constructor
  · intro unbound
    have same : renderSlot (jumpWithin bound) name default s =
        isolated (renderSlot (jumpWithin bound) name default) s :=
      renderSlot_eq_isolated follows (fun _ occurs => .default occurs)
        (s.leaving_mentionsOnly default) unbound
    unfold Statement.render
    simp only [Statement.renderWith]
    rw [context_bind, context_bind]
    cases s.context.dispatch.isEmpty with
    | true => rfl
    | false => exact same
  · intro inherits t ends
    exact slot_restores follows.left name inherits default s t ends

/-- A body that binds a name, loops, calls `super` and extends, around which another name is bound.
What is left for `super` around the slot does mention that one. -/
theorem inheriting_changes_nothing_beside_others :
    let override : Body := [.assign ["y"] (some (.var "x")),
      .loop ["i"] (.const (.list (.range ⟨0, 2, 1⟩))) none [.output (.var "y"), .super] [],
      .extend "other" true []]
    let default : Body := [.output (.var "i"), .text ";"]
    let other : Template := ⟨"other", [.output (.var "x")]⟩
    let c : Context :=
      { Context.start (.ofList [other]) (.ofList [("x", .string "g")]) {} with
        dispatch := [[("main", override)]], supers := [[.output (.var "z")]] }
    let s := Session.start ((c.assign ["z"] (.int 1)).enterScope.assign ["z"] (.int 2))
    let slot (inherits : Bool) := (Statement.slot "main" inherits default).render 3 s
    (∀ x, s.context.MayMention default x → ¬s.context.scopes.Binds x) ∧ slot true = slot false ∧
      ∃ t, (slot true).session? = some t ∧ t.output = "g0;g1;g" ∧ t.context = s.context := by
  intro override default other c s slot
  have only (body : Body) (mem : body ∈ [default, override, other.body]) :
      MentionsOnly (· ≠ "z") (bodyParts body) := by
    simp only [List.mem_cons, List.not_mem_nil, or_false] at mem
    rcases mem with rfl | rfl | rfl <;>
      simp [MentionsOnly, Mentioned, default, override, other, bodyParts, Statement.parts,
        overrideParts, Statement.exprs, Expr.names]
  have unbound : ∀ x, s.context.MayMention default x → ¬s.context.scopes.Binds x := by
    rintro x mention ⟨scope, mem, bound⟩
    have unmentioned : x ≠ "z" := by
      cases mention with
      | default occurs => exact only default (by simp) x occurs
      | override inForce found occurs =>
        obtain rfl := List.mem_singleton.1 inForce
        obtain ⟨-, rfl⟩ := Prod.mk.inj (List.mem_singleton.1 (Registry.mem_of_find? found))
        exact only override (by simp) x occurs
      | template found occurs =>
        obtain rfl := List.mem_singleton.1 (Library.mem_of_find?_ofList found).1
        exact only other.body (by simp) x occurs
    have mem : scope ∈ [Scope.mk [("z", .int 2)], Scope.mk [("z", .int 1)]] := mem
    have nothing : scope.get? x = none := by
      simp only [List.mem_cons, List.not_mem_nil, or_false] at mem
      rcases mem with rfl | rfl <;> simp [Scope.get?, List.lookup_cons, beq_false_of_ne unmentioned]
    rw [nothing] at bound
    cases bound
  obtain ⟨same, restored⟩ := inheriting_changes_nothing 3 "main" default s
  have written : (slot true).session?.map (·.output) = some "g0;g1;g" := by decide +kernel
  obtain ⟨t, ends, output⟩ := Option.map_eq_some_iff.1 written
  exact ⟨unbound, same unbound, t, ends, output, restored true t ends⟩

/-- The pass of a loop around a slot is seen by the slot only if it inherits. -/
example :
    let base : Template := ⟨"base", [.loop ["i"] (.const (.list (.range ⟨0, 2, 1⟩))) none
      [.slot "main" true [], .slot "main" false []] []]⟩
    let override : Body := [.output (.var "i"), .text ";"]
    let main : Template := ⟨"main", [.extend "base" true [("main", override)]]⟩
    (main.run 3 (.ofList [base]) .empty {}).session?.map (·.output) = some "0;;1;;" := by
  decide +kernel

end Stencil
