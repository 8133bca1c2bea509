import Stencil.Proofs.Parallel

/-!
# `Stencil/Proofs/Visibility.lean` — a render sees the names that are mentioned

A template has no way to list the bindings around it, or to find out in which scope a name is bound.
All it can do is to mention a name. So which bindings there are, and where, matters only as far as

> **the names that are mentioned mean the same**, in the scopes and among the globals.

What is mentioned is not to be read off the body alone. An override, a level of a block and a
template of the library can all be rendered on the way, and so their names count too
(`Standing.MentionsOnly`). Overrides that the render adds to these are written in a body that it
renders, and so nothing new comes in while it goes on.

The globals are compared apart from the scopes because a slot that does not inherit sees nothing
else.
-/

set_option autoImplicit false

namespace Stencil

open Stencil.Action

/-! ## What a render may come to -/

/-- All bodies that a render can come to from here, other than by what it renders now, mention
visible names only. -/
structure Standing.MentionsOnly (visible : String → Prop) (a : Standing) : Prop where
  library : ∀ name template, a.library.find? name = some template →
    Stencil.MentionsOnly visible (bodyParts template.body)
  dispatch : ∀ registry ∈ a.dispatch, ∀ name level, Registry.find? registry name = some level →
    Stencil.MentionsOnly visible (bodyParts level)
  supers : ∀ level ∈ a.supers, Stencil.MentionsOnly visible (bodyParts level)

namespace Standing.MentionsOnly

variable {visible : String → Prop} {a : Standing}

theorem overrides (h : a.MentionsOnly visible) {name : String} {level : Body}
    (mem : level ∈ a.overrides name) : Stencil.MentionsOnly visible (bodyParts level) := by
  obtain ⟨registry, inForce, found⟩ := List.mem_filterMap.1 mem
  exact h.dispatch registry inForce name level found

theorem adding (h : a.MentionsOnly visible) {registry : Registry}
    (only : Stencil.MentionsOnly visible (overrideParts registry)) :
    (a.adding registry).MentionsOnly visible := by
  refine ⟨h.library, fun registry' mem name level found => ?_, h.supers⟩
  rcases List.mem_append.1 mem with old | new
  · exact h.dispatch registry' old name level found
  · rw [List.mem_singleton.1 new] at found
    exact only.mono (bodyParts_subset_overrideParts (Registry.mem_of_find? found))

/-- Where a run starts, there is nothing but the library. -/
theorem start {library : Library} (globals : Scope) (settings : Settings)
    (loadable : ∀ name template, library.find? name = some template →
      Stencil.MentionsOnly visible (bodyParts template.body)) :
    (Context.start library globals settings).standing.MentionsOnly visible :=
  ⟨loadable, fun _ mem => absurd mem List.not_mem_nil, fun _ mem => absurd mem List.not_mem_nil⟩

end Standing.MentionsOnly

/-! ## Sessions that look the same -/

/-- The sessions differ at most in their scopes and globals, and there the visible names mean the
same. -/
structure LooksLike (visible : String → Prop) (s t : Session) : Prop where
  output : t.output = s.output
  log : t.log = s.log
  standing : t.context.standing = s.context.standing
  bindings : SameBindings visible s.context t.context

/-- The same body at the same place, among bindings that look the same. -/
def lookingAlike (visible : String → Prop) : Comparison where
  visible := visible
  standing a b := b = a ∧ a.MentionsOnly visible
  log l l' := l' = l
  bodies body body' := body' = body ∧ MentionsOnly visible (bodyParts body)
  excused _ := False
  noticed := by
    rintro a b l l' ⟨rfl, only⟩ rfl notice
    rfl
  dispatched := by
    rintro a b ⟨rfl, only⟩
    rfl
  leftover := by
    rintro a b ⟨rfl, only⟩
    exact List.forall₂_same.2 fun level mem => ⟨rfl, only.supers level mem⟩
  leaving := by
    rintro a b levels levels' ⟨rfl, only⟩ same
    have eq : levels' = levels := by
      induction same with
      | nil => rfl
      | cons first _ ih => rw [first.1, ih]
    subst eq
    exact ⟨rfl, only.library, only.dispatch, fun level mem =>
      (List.forall₂_same.1 same level mem).2⟩

section Rendering

variable {visible : String → Prop}

theorem LooksLike.abreast {s t : Session} (h : LooksLike visible s t)
    (only : s.context.standing.MentionsOnly visible) : (lookingAlike visible).Abreast s t :=
  ⟨⟨h.output, h.log⟩, h.bindings, h.standing, only⟩

theorem LooksLike.of_abreast {s t : Session} (h : (lookingAlike visible).Abreast s t) :
    LooksLike visible s t :=
  ⟨h.output, h.log, h.standing.1, h.bindings⟩

theorem lookingAlike_enters {c d : Context} {template : Template}
    (standing : d.standing = c.standing) (only : c.standing.MentionsOnly visible)
    (body : MentionsOnly visible (bodyParts template.body)) :
    (lookingAlike visible).Enters c d template template := by
  have active : d.active = c.active := congrArg Standing.active standing
  have settings : d.settings = c.settings := congrArg Standing.settings standing
  refine ⟨⟨rfl, body⟩, fun e he => .inr ?_, fun new room => ?_⟩
  · rw [Context.enterTemplate_eq_error_iff] at he ⊢
    rwa [active, settings]
  · rw [active, settings, standing]
    exact ⟨new, room, rfl, only.library, only.dispatch, only.supers⟩

open Comparison Parallel

theorem extend_lookingAlike {jump : Jump} (follows : (lookingAlike visible).Follows jump jump)
    (target : String) {overrides : Registry}
    (only : MentionsOnly visible (overrideParts overrides)) :
    (lookingAlike visible).Parallel Flow ((Statement.extend target true overrides).renderWith jump)
      ((Statement.extend target true overrides).renderWith jump) := by
  have library {s t : Session} (h : (lookingAlike visible).Abreast s t) :
      t.context.library = s.context.library := congrArg Standing.library h.standing.1
  apply extend follows
  · intro s t h missing
    rw [library h]
    exact ⟨missing, rfl⟩
  · intro s t h template found
    rw [library h]
    refine ⟨template, found, renderExtended_written follows h ?_⟩
    have standing : (t.context.addRegistry overrides).standing =
        (s.context.addRegistry overrides).standing :=
      congrArg (Standing.adding · overrides) h.standing.1
    exact lookingAlike_enters standing (h.standing.2.adding only)
      (h.standing.2.library target template found)

mutual

theorem renderWith_lookingAlike {jump : Jump} (follows : (lookingAlike visible).Follows jump jump) :
    ∀ statement : Statement, MentionsOnly visible statement.parts →
      (lookingAlike visible).Parallel Flow (statement.renderWith jump) (statement.renderWith jump)
  | .text s, _ => ordinary.text s
  | .output value, only => ordinary.output (only.expr (List.mem_singleton_self value))
  | .loop vars source filter body otherwise, only =>
    ordinary.loop vars (only.expr List.mem_cons_self)
      (fun _ given => only.expr (List.mem_cons_of_mem _ (Option.mem_toList.2 given)))
      (renderAllWith_lookingAlike follows body only.tail.left)
      (renderAllWith_lookingAlike follows otherwise only.tail.right)
  | .cond guard body branches, only =>
    ordinary.cond (only.expr List.mem_cons_self)
      (renderAllWith_lookingAlike follows body only.tail.left)
      (renderFirstWith_lookingAlike follows branches
        (fun _ mem => only.expr (List.mem_cons_of_mem _ mem)) only.tail.right)
  | .assign targets value, only =>
    ordinary.assignment targets fun _ given => only.expr (Option.mem_toList.2 given)
  | .block name body, only =>
    ordinary.block name (renderAllWith_lookingAlike follows body only.tail)
  | .slot name inherits default, only => by
    apply slot follows
    · exact ⟨rfl, only.tail⟩
    · rintro a b ⟨rfl, reachable⟩
      exact List.forall₂_same.2 fun level mem => ⟨rfl, reachable.overrides mem⟩
  | .extend target isPath overrides, only => by
    cases isPath with
    | false => exact computed target overrides overrides
    | true => exact extend_lookingAlike follows target only.tail
  | .super, _ => super follows
termination_by structural statement => statement

theorem renderAllWith_lookingAlike {jump : Jump}
    (follows : (lookingAlike visible).Follows jump jump) :
    ∀ body : List Statement, MentionsOnly visible (bodyParts body) →
      (lookingAlike visible).Parallel Flow (renderAllWith jump body) (renderAllWith jump body)
  | [], _ => .pure Flow.proceed
  | statement :: rest, only =>
    ordinary.cons (renderWith_lookingAlike follows statement only.left)
      (renderAllWith_lookingAlike follows rest only.right)
termination_by structural body => body

theorem renderFirstWith_lookingAlike {jump : Jump}
    (follows : (lookingAlike visible).Follows jump jump) :
    ∀ branches : List Branch,
      (∀ guard ∈ branches.filterMap (·.guard), ∀ name ∈ guard.names, visible name) →
      MentionsOnly visible (branchParts branches) →
      (lookingAlike visible).Parallel Flow (renderFirstWith jump branches)
        (renderFirstWith jump branches)
  | [], _, _ => .pure Flow.proceed
  | ⟨none, body⟩ :: _, _, only => renderAllWith_lookingAlike follows body only.left
  | ⟨some guard, body⟩ :: rest, guards, only =>
    ordinary.branch (guards guard List.mem_cons_self)
      (renderAllWith_lookingAlike follows body only.left)
      (renderFirstWith_lookingAlike follows rest
        (fun g mem => guards g (List.mem_cons_of_mem _ mem)) only.right)
termination_by structural branches => branches

end

end Rendering

/-! ## Renders within a bound -/

theorem jumpWithin_lookingAlike (visible : String → Prop) (bound : Nat) :
    (lookingAlike visible).Follows (jumpWithin bound) (jumpWithin bound) := by
  refine ⟨jumpWithin_keeps bound, jumpWithin_keeps bound, ?_⟩
  induction bound with
  | zero =>
    intro body body' _
    exact ⟨jumpWithin_keeps 0 body, jumpWithin_keeps 0 body', fun _ _ _ => .inr .exhausted⟩
  | succ bound ih =>
    rintro body body' ⟨rfl, only⟩
    exact renderAllWith_lookingAlike ⟨jumpWithin_keeps bound, jumpWithin_keeps bound, ih⟩ body' only

theorem Comparison.Parallel.looksLike {α : Type} {visible : String → Prop} {x y : Action α}
    (h : (lookingAlike visible).Parallel α x y) {s t : Session}
    (only : s.context.standing.MentionsOnly visible) (alike : LooksLike visible s t) :
    (x s).Related (LooksLike visible) (y t) := by
  have related := (h.related s t (alike.abreast only)).related fun _ _ excused => excused
  exact related.imp fun u v _ _ huv => .of_abreast huv

/-- A template restores its context, so what its sessions looked like in the beginning they look
like in the end. -/
theorem renderTemplate_lookingAlike {visible : String → Prop} {jump : Jump}
    (follows : (lookingAlike visible).Follows jump jump) (template : Template) {s t : Session}
    (only : MentionsOnly visible (bodyParts template.body))
    (reachable : s.context.standing.MentionsOnly visible) (alike : LooksLike visible s t) :
    (renderTemplate jump template s).Related (LooksLike visible)
      (renderTemplate jump template t) := by
  have enters := lookingAlike_enters alike.standing reachable only
  have written := Comparison.renderTemplate_written follows (alike.abreast reachable).toWritten
    alike.bindings enters
  have related := written.related fun _ _ excused => excused
  refine related.imp fun u v hu hv huv => ⟨huv.output, huv.log, ?_, ?_⟩
  · rw [renderTemplate_restores follows.left template s u hu,
      renderTemplate_restores follows.right template t v hv]
    exact alike.standing
  · rw [renderTemplate_restores follows.left template s u hu,
      renderTemplate_restores follows.right template t v hv]
    exact alike.bindings

/-- **Only the names that are mentioned matter.** Two contexts that differ in their scopes and
globals alone, however deep these are and whatever else is bound in them, are the same to a render
if every name that it may come to means the same in both: the text, the remarks and the end are
the same, and afterwards these names still mean the same in both. -/
theorem render_sees_mentioned (visible : String → Prop) (bound : Nat) :
    (∀ (statement : Statement) (s t : Session), MentionsOnly visible statement.parts →
      s.context.standing.MentionsOnly visible → LooksLike visible s t →
      (statement.render bound s).Related (LooksLike visible) (statement.render bound t)) ∧
    (∀ (body : Body) (s t : Session), MentionsOnly visible (bodyParts body) →
      s.context.standing.MentionsOnly visible → LooksLike visible s t →
      (renderAll bound body s).Related (LooksLike visible) (renderAll bound body t)) ∧
    (∀ (main : Template) (library : Library) (settings : Settings) (globals globals' : Scope),
      MentionsOnly visible (bodyParts main.body) →
      (∀ name template, library.find? name = some template →
        MentionsOnly visible (bodyParts template.body)) →
      (∀ name, visible name → globals'.get? name = globals.get? name) →
      (main.run bound library globals settings).Related (LooksLike visible)
        (main.run bound library globals' settings)) := by
  have follows := jumpWithin_lookingAlike visible bound
  refine ⟨?_, ?_, ?_⟩
  · intro statement s t only reachable alike
    exact (renderWith_lookingAlike follows statement only).looksLike reachable alike
  · intro body s t only reachable alike
    exact (renderAllWith_lookingAlike follows body only).looksLike reachable alike
  · intro main library settings globals globals' only loadable same
    have alike : LooksLike visible (.start (.start library globals settings))
        (.start (.start library globals' settings)) :=
      ⟨rfl, rfl, rfl, same, same⟩
    exact renderTemplate_lookingAlike follows main only (.start globals settings loadable) alike

/-- An override that mentions one name, in a slot that inherits and in one that does not. The name
is bound at another depth, and there are other names in the scopes and among the globals. -/
theorem render_sees_mentioned_at_depths :
    let base : Template := ⟨"base", [.slot "main" true [], .slot "main" false []]⟩
    let body : Body := [.extend "base" true [("main", [.output (.var "x")])]]
    let start (globals : List (String × Value)) : Context :=
      .start (.ofList [base]) (.ofList globals) {}
    let shallow := (start [("x", .string "b")]).assign ["x"] (.string "a")
    let crowded := (start [("y", .empty), ("x", .string "b")]).assign ["z"] (.bool true)
    let deep := (crowded.assign ["x"] (.string "a")).enterScope
    LooksLike (· = "x") (.start shallow) (.start deep) ∧
      MentionsOnly (· = "x") (bodyParts body) ∧ shallow.standing.MentionsOnly (· = "x") ∧
      ∃ flow u v, renderAll 3 body (.start shallow) = .done flow u ∧
        renderAll 3 body (.start deep) = .done flow v ∧ u.output = "ab" ∧
        LooksLike (· = "x") u v := by
  intro base body start shallow crowded deep
  have alike : LooksLike (· = "x") (.start shallow) (.start deep) := by
    refine ⟨rfl, rfl, rfl, ?_, ?_⟩
    · rintro name rfl
      rfl
    · rintro name rfl
      rfl
  have only : MentionsOnly (· = "x") (bodyParts body) := by
    simp [MentionsOnly, Mentioned, body, bodyParts, Statement.parts, overrideParts,
      Statement.exprs, Expr.names]
  have reachable : shallow.standing.MentionsOnly (· = "x") := by
    refine ⟨?_, fun _ mem => absurd mem List.not_mem_nil, fun _ mem => absurd mem List.not_mem_nil⟩
    intro name template found
    have mem : template ∈ [base] := (Library.mem_of_find?_ofList found).1
    cases List.mem_singleton.1 mem
    simp [MentionsOnly, Mentioned, base, bodyParts, Statement.parts, Statement.exprs]
  have finished : (renderAll 3 body (.start shallow)).error?.isNone := by decide +kernel
  have written : (renderAll 3 body (.start shallow)).session?.map (·.output) = some "ab" := by
    decide +kernel
  have related := (render_sees_mentioned (· = "x") 3).2.1 body _ _ only reachable alike
  refine ⟨alike, only, reachable, ?_⟩
  -- The outcomes are not to be computed any further than this.
  generalize renderAll 3 body (.start shallow) = o at finished written related ⊢
  generalize renderAll 3 body (.start deep) = o' at related ⊢
  cases related with
  | done flow huv => exact ⟨flow, _, _, rfl, rfl, Option.some.inj written, huv⟩
  | failed e huv => cases finished
  | exhausted => cases written

end Stencil
