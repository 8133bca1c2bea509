import Stencil.Render.Run

/-!
# `Stencil/Render/Compositional.lean` — what every statement has because the effects have it

A statement does nothing but the effects of `Stencil/Render/Action.lean`, one after the other or
inside one of the changes made for the time of an action. So there is one induction on
statements to be done, and it is the one in this file:

> **a property that the effects have, that sequence keeps and that every temporary change keeps,
> holds of every statement**, if it holds of what is done at the jumps.

The properties are about *families* of actions, all of which run the same statement with different
jumps. With one member that is a property of an action, with two it is a relation, and with one
for each bound it is a statement about limits.
-/

set_option autoImplicit false

namespace Stencil

/-- A property of families of actions that is kept by the effects of all statements but those of
inheritance, as far as only admitted expressions are evaluated. -/
structure OrdinaryOn {ι : Type} (admits : Expr → Prop) (P : ∀ α : Type, (ι → Action α) → Prop) :
    Prop where
  pure {α : Type} (a : α) : P α fun _ => Pure.pure a
  bind {α β : Type} {x : ι → Action α} {f : ι → α → Action β} :
    P α x → (∀ a, P β fun i => f i a) → P β fun i => x i >>= f i
  write (text : String) : P Unit fun _ => Action.write text
  notify (notice : Notice) : P Unit fun _ => Action.notify notice
  evaluate (e : Expr) (admitted : admits e) : P Value fun _ => Action.evaluate e
  assign (names : List String) (value : Value) : P Unit fun _ => Action.assign names value
  inScope {α : Type} {x : ι → Action α} : P α x → P α fun i => Action.inScope (x i)

/-- A property of families of actions that is kept by the effects of all statements but those of
inheritance. -/
structure Ordinary {ι : Type} (P : ∀ α : Type, (ι → Action α) → Prop) : Prop where
  pure {α : Type} (a : α) : P α fun _ => Pure.pure a
  bind {α β : Type} {x : ι → Action α} {f : ι → α → Action β} :
    P α x → (∀ a, P β fun i => f i a) → P β fun i => x i >>= f i
  write (text : String) : P Unit fun _ => Action.write text
  notify (notice : Notice) : P Unit fun _ => Action.notify notice
  evaluate (e : Expr) : P Value fun _ => Action.evaluate e
  assign (names : List String) (value : Value) : P Unit fun _ => Action.assign names value
  inScope {α : Type} {x : ι → Action α} : P α x → P α fun i => Action.inScope (x i)

/-- A property of families of actions that the effects have and that the ways of putting actions
together keep. -/
structure Compositional {ι : Type} (P : ∀ α : Type, (ι → Action α) → Prop) : Prop
    extends Ordinary P where
  context : P Context fun _ => Action.context
  isolated {α : Type} {x : ι → Action α} : P α x → P α fun i => Action.isolated (x i)
  withSupers {α : Type} {x : ι → Action α} (levels : List Body) :
    P α x → P α fun i => Action.withSupers levels (x i)
  withRegistry {α : Type} {x : ι → Action α} (registry : Registry) :
    P α x → P α fun i => Action.withRegistry registry (x i)
  inTemplate {α : Type} {x : ι → Action α} (name : String) :
    P α x → P α fun i => Action.inTemplate name (x i)

/-! ## Ordinary statements

The members of a family may differ in the bodies they render, not only in the jumps. -/

namespace OrdinaryOn

variable {ι : Type} {admits : Expr → Prop} {P : ∀ α : Type, (ι → Action α) → Prop}
  (hP : OrdinaryOn admits P)
include hP

theorem keepRest (vars : List String) {filter : Expr} (hf : admits filter) (items : Sequence)
    (kept : Array Value) (remaining : Nat) :
    P (Array Value) fun _ => Action.keepRest vars filter items kept remaining := by
  induction remaining generalizing kept with
  | zero => exact hP.pure kept
  | succ remaining ih =>
    simp only [Action.keepRest]
    cases items.get? (items.size - (remaining + 1)) with
    | none => exact hP.pure kept
    | some item =>
      exact hP.bind (hP.assign vars item) fun _ => hP.bind (hP.evaluate filter hf) fun _ => ih _

theorem filtered (vars : List String) {filter : Option Expr} (hf : ∀ e ∈ filter, admits e)
    (items : Sequence) :
    P Sequence fun _ => Action.filtered vars filter items := by
  cases filter with
  | none => exact hP.pure items
  | some filter =>
    exact hP.inScope (hP.bind (hP.keepRest vars (hf filter rfl) items #[] items.size)
      fun _ => hP.pure _)

theorem repeatRest (vars : List String) (items : Sequence) {body : ι → Action Flow}
    (h : P Flow body) (remaining : Nat) :
    P Flow fun i => Action.repeatRest vars items (body i) remaining := by
  induction remaining with
  | zero => exact hP.pure Flow.proceed
  | succ remaining ih =>
    simp only [Action.repeatRest]
    cases items.get? (items.size - (remaining + 1)) with
    | none => exact hP.pure Flow.proceed
    | some item =>
      refine hP.bind (hP.assign _ _) fun _ => hP.bind (hP.assign vars item) fun _ =>
        hP.bind h fun flow => ?_
      cases flow with
      | proceed => exact ih
      | delegated => exact hP.pure Flow.delegated

variable {jump : ι → Jump}

theorem text (s : String) : P Flow fun i => (Statement.text s).renderWith (jump i) :=
  hP.bind (hP.write s) fun _ => hP.pure Flow.proceed

theorem output {value : Expr} (hv : admits value) :
    P Flow fun i => (Statement.output value).renderWith (jump i) :=
  hP.bind (hP.evaluate value hv) fun v => hP.bind (hP.write v.text) fun _ => hP.pure Flow.proceed

theorem assignment (targets : List String) {value : Option Expr} (hv : ∀ e ∈ value, admits e) :
    P Flow fun i => (Statement.assign targets value).renderWith (jump i) := by
  cases value with
  | none => exact hP.pure Flow.proceed
  | some value =>
    exact hP.bind (hP.evaluate value (hv value rfl)) fun v => hP.bind (hP.assign targets v) fun _ =>
      hP.pure Flow.proceed

theorem loop (vars : List String) {source : Expr} (hs : admits source) {filter : Option Expr}
    (hf : ∀ e ∈ filter, admits e) {body otherwise : ι → Body}
    (hbody : P Flow fun i => renderAllWith (jump i) (body i))
    (hotherwise : P Flow fun i => renderAllWith (jump i) (otherwise i)) :
    P Flow fun i =>
      (Statement.loop vars source filter (body i) (otherwise i)).renderWith (jump i) := by
  simp only [Statement.renderWith]
  refine hP.bind (hP.evaluate source hs) fun value => ?_
  cases value.toSequence? with
  | none => exact hP.bind (hP.notify _) fun _ => hP.pure Flow.proceed
  | some items =>
    refine hP.bind (hP.inScope (hP.bind (hP.filtered vars hf items) fun items =>
      hP.bind (hP.repeatRest vars items hbody _) fun _ => hP.pure _)) ?_
    rintro ⟨flow, count⟩
    cases flow with
    | proceed =>
      by_cases hc : count = 0
      · simpa only [hc, if_true] using hotherwise
      · simpa only [hc, if_false] using hP.pure Flow.proceed
    | delegated => exact hP.pure Flow.delegated

theorem cond {guard : Expr} (hg : admits guard) {body : ι → Body} {branches : ι → List Branch}
    (hbody : P Flow fun i => renderAllWith (jump i) (body i))
    (hbranches : P Flow fun i => renderFirstWith (jump i) (branches i)) :
    P Flow fun i => (Statement.cond guard (body i) (branches i)).renderWith (jump i) := by
  simp only [Statement.renderWith]
  refine hP.bind (hP.evaluate guard hg) fun value => ?_
  cases value.isTruthy with
  | true => exact hbody
  | false => exact hbranches

theorem block (name : String) {body : ι → Body}
    (hbody : P Flow fun i => renderAllWith (jump i) (body i)) :
    P Flow fun i => (Statement.block name (body i)).renderWith (jump i) :=
  hP.bind (hP.notify (.plainBlock name)) fun _ => hbody

theorem branch {guard : Expr} (hg : admits guard) {body : ι → Body} {branches : ι → List Branch}
    (hbody : P Flow fun i => renderAllWith (jump i) (body i))
    (hbranches : P Flow fun i => renderFirstWith (jump i) (branches i)) :
    P Flow fun i => renderFirstWith (jump i) (⟨some guard, body i⟩ :: branches i) := by
  simp only [renderFirstWith]
  refine hP.bind (hP.evaluate guard hg) fun value => ?_
  cases value.isTruthy with
  | true => exact hbody
  | false => exact hbranches

theorem cons {statement : ι → Statement} {rest : ι → Body}
    (hfirst : P Flow fun i => (statement i).renderWith (jump i))
    (hrest : P Flow fun i => renderAllWith (jump i) (rest i)) :
    P Flow fun i => renderAllWith (jump i) (statement i :: rest i) := by
  simp only [renderAllWith]
  refine hP.bind hfirst fun flow => ?_
  cases flow with
  | proceed => exact hrest
  | delegated => exact hP.pure Flow.delegated

end OrdinaryOn

namespace Ordinary

variable {ι : Type} {P : ∀ α : Type, (ι → Action α) → Prop} (hP : Ordinary P)
include hP

/-- Without exception for any expressions. -/
theorem on : OrdinaryOn (fun _ => True) P :=
  ⟨hP.pure, hP.bind, hP.write, hP.notify, fun e _ => hP.evaluate e, hP.assign, hP.inScope⟩

theorem keepRest (vars : List String) (filter : Expr) (items : Sequence) (kept : Array Value)
    (remaining : Nat) :
    P (Array Value) fun _ => Action.keepRest vars filter items kept remaining :=
  hP.on.keepRest vars trivial items kept remaining

theorem repeatRest (vars : List String) (items : Sequence) {body : ι → Action Flow}
    (h : P Flow body) (remaining : Nat) :
    P Flow fun i => Action.repeatRest vars items (body i) remaining :=
  hP.on.repeatRest vars items h remaining

variable {jump : ι → Jump}

theorem text (s : String) : P Flow fun i => (Statement.text s).renderWith (jump i) := hP.on.text s

theorem output (value : Expr) : P Flow fun i => (Statement.output value).renderWith (jump i) :=
  hP.on.output trivial

theorem assignment (targets : List String) (value : Option Expr) :
    P Flow fun i => (Statement.assign targets value).renderWith (jump i) :=
  hP.on.assignment targets fun _ _ => trivial

theorem loop (vars : List String) (source : Expr) (filter : Option Expr) {body otherwise : ι → Body}
    (hbody : P Flow fun i => renderAllWith (jump i) (body i))
    (hotherwise : P Flow fun i => renderAllWith (jump i) (otherwise i)) :
    P Flow fun i =>
      (Statement.loop vars source filter (body i) (otherwise i)).renderWith (jump i) :=
  hP.on.loop vars trivial (fun _ _ => trivial) hbody hotherwise

theorem cond (guard : Expr) {body : ι → Body} {branches : ι → List Branch}
    (hbody : P Flow fun i => renderAllWith (jump i) (body i))
    (hbranches : P Flow fun i => renderFirstWith (jump i) (branches i)) :
    P Flow fun i => (Statement.cond guard (body i) (branches i)).renderWith (jump i) :=
  hP.on.cond trivial hbody hbranches

theorem branch (guard : Expr) {body : ι → Body} {branches : ι → List Branch}
    (hbody : P Flow fun i => renderAllWith (jump i) (body i))
    (hbranches : P Flow fun i => renderFirstWith (jump i) (branches i)) :
    P Flow fun i => renderFirstWith (jump i) (⟨some guard, body i⟩ :: branches i) :=
  hP.on.branch trivial hbody hbranches

theorem cons {statement : ι → Statement} {rest : ι → Body}
    (hfirst : P Flow fun i => (statement i).renderWith (jump i))
    (hrest : P Flow fun i => renderAllWith (jump i) (rest i)) :
    P Flow fun i => renderAllWith (jump i) (statement i :: rest i) :=
  hP.on.cons hfirst hrest

end Ordinary

namespace Compositional

variable {ι : Type} {P : ∀ α : Type, (ι → Action α) → Prop} (hP : Compositional P)
include hP

/-! ## Blocks and templates -/

section Jumps

variable {jump : ι → Jump} (h : ∀ body, P Flow fun i => jump i body)
include h

theorem renderLevels (levels : List Body) :
    P Flow fun i => Stencil.renderLevels (jump i) levels := by
  cases levels with
  | nil => exact hP.pure Flow.proceed
  | cons level below => exact hP.withSupers below (h level)

theorem renderSlot (name : String) (default : Body) :
    P Flow fun i => Stencil.renderSlot (jump i) name default := by
  have dispatch : P (List Body) fun _ => dispatchBlock name :=
    hP.bind hP.context fun _ => hP.bind (hP.notify _) fun _ => hP.pure _
  simp only [renderSlot_eq_renderLevels]
  exact hP.inScope (hP.bind dispatch fun _ => hP.renderLevels h _)

theorem renderTemplate (template : Template) :
    P Unit fun i => Stencil.renderTemplate (jump i) template :=
  hP.inTemplate template.name (hP.bind (h template.body) fun _ => hP.pure ())

theorem renderExtended (template : Template) (overrides : Registry) :
    P Unit fun i => Stencil.renderExtended (jump i) template overrides :=
  hP.withRegistry overrides (hP.renderTemplate h template)

end Jumps

/-! ## Statements -/

mutual

theorem renderWith {jump : ι → Jump} (h : ∀ body, P Flow fun i => jump i body) :
    ∀ statement : Statement, P Flow fun i => statement.renderWith (jump i)
  | .text s => hP.text s
  | .output value => hP.output value
  | .loop vars source filter body otherwise =>
    hP.loop vars source filter (renderAllWith h body) (renderAllWith h otherwise)
  | .cond guard body branches => hP.cond guard (renderAllWith h body) (renderFirstWith h branches)
  | .assign targets value => hP.assignment targets value
  | .block name body => hP.bind (hP.notify _) fun _ => renderAllWith h body
  | .slot name inherits default => by
    simp only [Statement.renderWith]
    refine hP.bind hP.context fun c => ?_
    cases c.dispatch.isEmpty with
    | true => exact hP.bind (hP.notify _) fun _ => hP.pure Flow.proceed
    | false =>
      cases inherits with
      | true => exact hP.renderSlot h name default
      | false => exact hP.isolated (hP.renderSlot h name default)
  | .extend target isPath overrides => by
    simp only [Statement.renderWith]
    cases isPath with
    | false => exact hP.bind (hP.notify _) fun _ => hP.pure Flow.proceed
    | true =>
      refine hP.bind hP.context fun c => ?_
      cases c.library.find? target with
      | none => exact hP.bind (hP.notify _) fun _ => hP.pure Flow.delegated
      | some template =>
        exact hP.bind (hP.renderExtended h template overrides) fun _ => hP.pure Flow.delegated
  | .super => by
    simp only [Statement.renderWith]
    refine hP.bind hP.context fun c => ?_
    cases c.supers with
    | nil => exact hP.bind (hP.notify _) fun _ => hP.pure Flow.proceed
    | cons level below => exact hP.renderLevels h (level :: below)
termination_by structural statement => statement

theorem renderAllWith {jump : ι → Jump} (h : ∀ body, P Flow fun i => jump i body) :
    ∀ body : List Statement, P Flow fun i => Stencil.renderAllWith (jump i) body
  | [] => hP.pure Flow.proceed
  | statement :: rest => hP.cons (renderWith h statement) (renderAllWith h rest)
termination_by structural body => body

theorem renderFirstWith {jump : ι → Jump} (h : ∀ body, P Flow fun i => jump i body) :
    ∀ branches : List Branch, P Flow fun i => Stencil.renderFirstWith (jump i) branches
  | [] => hP.pure Flow.proceed
  | ⟨none, body⟩ :: _ => renderAllWith h body
  | ⟨some guard, body⟩ :: rest =>
    hP.branch guard (renderAllWith h body) (renderFirstWith h rest)
termination_by structural branches => branches

end

/-- What holds of giving up holds of rendering within every bound. -/
theorem jumpWithin (give : ∀ body : Body, P Flow fun _ => jumpWithin 0 body) (bound : Nat)
    (body : Body) : P Flow fun _ => Stencil.jumpWithin bound body := by
  induction bound generalizing body with
  | zero => exact give body
  | succ bound ih => exact hP.renderAllWith ih body

end Compositional

end Stencil
