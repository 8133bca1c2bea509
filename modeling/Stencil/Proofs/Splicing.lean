import Stencil.Proofs.Simulation
import Stencil.Proofs.Translation

/-!
# `Stencil/Proofs/Splicing.lean` — a plain block is the statements in it

Nothing overrides a plain block, it opens no scope, and an `extend` in it takes over from what comes
after the block as well. So its name is all there is to it, and

> **the statements of a block can be written in its place**, everywhere at once,

in templates, loops and conditions, in slots and in what is registered for them, and in blocks inside
of blocks. Then the same is rendered, except that there is no block left to be remarked on.

A block becomes any number of statements in this way, none of them included, and so the translation
is one from a statement to a list. What makes it one of the translations of
`Stencil/Proofs/Translation.lean` is that rendering a list is rendering the first part of it and,
unless that delegates, the second (`renderAllWith_append`).
-/

set_option autoImplicit false

namespace Stencil

/-! ## Splicing -/

mutual

/-- What stands for a statement when no plain block is left. -/
def Statement.spliced : Statement → List Statement
  | .text s => [.text s]
  | .output value => [.output value]
  | .loop vars source filter body otherwise =>
    [.loop vars source filter (spliceAll body) (spliceAll otherwise)]
  | .cond guard body branches => [.cond guard (spliceAll body) (spliceFirst branches)]
  | .assign targets value => [.assign targets value]
  | .block _ body => spliceAll body
  | .slot name inherits body => [.slot name inherits (spliceAll body)]
  | .extend target isPath overrides => [.extend target isPath (spliceOverrides overrides)]
  | .super => [.super]
termination_by structural statement => statement

def spliceAll : List Statement → List Statement
  | [] => []
  | statement :: rest => statement.spliced ++ spliceAll rest
termination_by structural body => body

def spliceFirst : List Branch → List Branch
  | [] => []
  | ⟨guard, body⟩ :: rest => ⟨guard, spliceAll body⟩ :: spliceFirst rest
termination_by structural branches => branches

def spliceOverrides : List (String × List Statement) → List (String × List Statement)
  | [] => []
  | (name, body) :: rest => (name, spliceAll body) :: spliceOverrides rest
termination_by structural overrides => overrides

end

/-- The template without plain blocks. -/
def Template.spliced (template : Template) : Template :=
  { template with body := spliceAll template.body }

def Library.spliced (library : Library) : Library := library.map Template.spliced

example : spliceAll [.block "a" [.text "x", .block "b" [.super], .block "c" []], .text "y"] =
    [.text "x", .super, .text "y"] := rfl

/-! ## The translation -/

/-- Only bodies are translated, and plain blocks are no longer remarked on. -/
def splicing : Translation where
  value := id
  sequence := id
  expr := id
  error := id
  body := spliceAll
  keeps notice := !notice.isPlainBlock
  others notice other := by
    rw [other]
    rfl
  text _ := rfl
  isTruthy _ := rfl
  field _ _ := rfl
  elements v := by
    rw [Option.map_id]
    rfl
  size _ := rfl
  get? items i := by
    rw [Option.map_id]
    rfl
  position _ _ := rfl
  ofItems xs := by
    rw [Array.map_id]
    rfl
  eval e find? := by
    simp only [Option.map_id, id]
    cases e.eval find? <;> rfl

theorem spliceOverrides_eq (overrides : Registry) :
    spliceOverrides overrides = splicing.registry overrides := by
  induction overrides with
  | nil => rfl
  | cons entry rest ih =>
    rw [spliceOverrides, ih]
    rfl

theorem splicing_scope (scope : Scope) : splicing.scope scope = scope := by
  obtain ⟨bindings⟩ := scope
  have same : Prod.map id splicing.value = (id : String × Value → String × Value) := rfl
  simp only [Translation.scope, same, List.map_id]

theorem splicing_failure (e : RenderError) : splicing.failure e = e := by
  cases e <;> rfl

/-! ## Spliced statements -/

theorem renderAllWith_singleton (jump : Jump) (statement : Statement) :
    renderAllWith jump [statement] = statement.renderWith jump := by
  simp only [renderAllWith]
  refine Eq.trans (bind_congr fun flow => ?_) (bind_pure (statement.renderWith jump))
  cases flow <;> rfl

theorem renderAllWith_append (jump : Jump) (first second : Body) :
    renderAllWith jump (first ++ second) = do
      match ← renderAllWith jump first with
      | .proceed => renderAllWith jump second
      | .delegated => return .delegated := by
  induction first with
  | nil => rfl
  | cons statement rest ih =>
    simp only [List.cons_append, renderAllWith, bind_assoc]
    refine bind_congr fun flow => ?_
    cases flow with
    | proceed => exact ih
    | delegated => rfl

section Statements

open Translation

variable {jump jump' : Jump}

mutual

theorem renderWith_spliced (follows : splicing.Follows jump jump') : ∀ statement : Statement,
    splicing.Commutes id (statement.renderWith jump) (renderAllWith jump' statement.spliced)
  | .text s => by
    rw [Statement.spliced, renderAllWith_singleton]
    exact text_commutes s
  | .output value => by
    rw [Statement.spliced, renderAllWith_singleton]
    exact output_commutes value
  | .loop vars source filter body otherwise => by
    rw [Statement.spliced, renderAllWith_singleton]
    have same : filter.map splicing.expr = filter := Option.map_id'
    have loop := loop_commutes vars source filter (renderAllWith_spliced follows body)
      (renderAllWith_spliced follows otherwise)
    rwa [same] at loop
  | .cond guard body branches => by
    rw [Statement.spliced, renderAllWith_singleton]
    exact cond_commutes guard (renderAllWith_spliced follows body)
      (renderFirstWith_spliced follows branches)
  | .assign targets value => by
    rw [Statement.spliced, renderAllWith_singleton]
    have same : value.map splicing.expr = value := Option.map_id'
    have assign : splicing.Commutes id ((Statement.assign targets value).renderWith jump)
        ((Statement.assign targets (value.map splicing.expr)).renderWith jump') :=
      assign_commutes targets value
    rwa [same] at assign
  | .block name body => by
    have inside := renderAllWith_spliced follows body
    have silenced : splicing.Commutes id (Action.notify (.plainBlock name)) (pure ()) :=
      .silence rfl
    -- The spliced render does not remark on the block, and begins with its body.
    exact silenced.bind (q := id) (g := fun _ => renderAllWith jump' (spliceAll body))
      fun _ => inside
  | .slot name inherits default => by
    rw [Statement.spliced, renderAllWith_singleton]
    exact slot_commutes follows name inherits default
  | .extend target isPath overrides => by
    rw [Statement.spliced, renderAllWith_singleton, spliceOverrides_eq]
    exact extend_commutes follows target isPath overrides
  | .super => by
    rw [Statement.spliced, renderAllWith_singleton]
    exact super_commutes follows
termination_by structural statement => statement

theorem renderAllWith_spliced (follows : splicing.Follows jump jump') : ∀ body : List Statement,
    splicing.Commutes id (renderAllWith jump body) (renderAllWith jump' (spliceAll body))
  | [] => .pure Flow.proceed
  | statement :: rest => by
    rw [spliceAll, renderAllWith_append]
    refine (renderWith_spliced follows statement).bind fun flow => ?_
    cases flow with
    | proceed => exact renderAllWith_spliced follows rest
    | delegated => exact .pure Flow.delegated
termination_by structural body => body

theorem renderFirstWith_spliced (follows : splicing.Follows jump jump') :
    ∀ branches : List Branch, splicing.Commutes id (renderFirstWith jump branches)
      (renderFirstWith jump' (spliceFirst branches))
  | [] => .pure Flow.proceed
  | ⟨none, body⟩ :: _ => renderAllWith_spliced follows body
  | ⟨some guard, body⟩ :: rest =>
    branch_commutes guard (renderAllWith_spliced follows body)
      (renderFirstWith_spliced follows rest)
termination_by structural branches => branches

end

end Statements

theorem splicing_faithful : splicing.Faithful := fun _ _ follows => renderAllWith_spliced follows

/-! ## Runs -/

/-- **A run is the same without plain blocks.** Where the statements of each of them are written in
its place, in the template that is rendered and in all that can be loaded, the same text is written
and the run ends in the same way; and of the remarks those on plain blocks are missing, and no
others. -/
theorem run_without_blocks (main : Template) (library : Library) (globals : Scope)
    (settings : Settings) (bound : Nat) :
    (main.run bound library globals settings).Related
      (fun s t => t.output = s.output ∧
        t.log = s.log.filter fun event => !event.notice.isPlainBlock)
      (main.spliced.run bound library.spliced globals settings) := by
  have eq : main.spliced.run bound library.spliced globals settings =
      splicing.outcome id (main.run bound library globals settings) := by
    have translated := Translation.run_eq splicing_faithful main library globals settings bound
    rwa [splicing_scope] at translated
  rw [eq]
  cases main.run bound library globals settings with
  | done _ s => exact .done _ ⟨rfl, rfl⟩
  | failed e s =>
    simp only [Translation.outcome, splicing_failure]
    exact .failed e ⟨rfl, rfl⟩
  | exhausted => exact .exhausted

end Stencil
