import Stencil.Proofs.History

/-!
# `Stencil/Proofs/Frame.lean` — what a render leaves as it was

A render changes its context all the time, and at its end next to nothing of that is left: a new
or another binding in the innermost scope, and no more. That holds however it ends, so also for
an error deep inside templates, slots and loops, because every change but a binding is made by
`bracket` and is undone there on both paths.

The two predicates of this file say it for actions in general. An action that *keeps* its context
may bind names in the innermost scope. One that *restores* it leaves no trace at all: that is what
comes of running the first kind in a scope of its own, and what makes rendering **repeatable**.
-/

set_option autoImplicit false

namespace Stencil

open Stencil.Action

/-! ## Contexts that differ in bindings of the innermost scope -/

/-- The context after is the one before, but for bindings that were added to the innermost scope or
changed in it. -/
structure Framed (before after : Context) : Prop where
  outer : after.scopes.outer = before.scopes.outer
  bound : ∀ name, (before.scopes.inner.get? name).isSome → (after.scopes.inner.get? name).isSome
  globals : after.globals = before.globals
  library : after.library = before.library
  settings : after.settings = before.settings
  dispatch : after.dispatch = before.dispatch
  supers : after.supers = before.supers
  active : after.active = before.active

/-- An assignment unbinds no name. -/
theorem Scope.isSome_get?_assign (scope : Scope) (names : List String) (value : Value)
    (name : String) (h : (scope.get? name).isSome) :
    ((scope.assign names value).get? name).isSome := by
  rw [Scope.get?_assign]
  cases Scope.assigned names value name with
  | none => exact h
  | some new => rfl

namespace Framed

variable {a b c : Context}

theorem refl (c : Context) : Framed c c := ⟨rfl, fun _ h => h, rfl, rfl, rfl, rfl, rfl, rfl⟩

theorem of_eq (h : b = a) : Framed a b := h ▸ refl a

theorem trans (h : Framed a b) (k : Framed b c) : Framed a c where
  outer := k.outer.trans h.outer
  bound name ha := k.bound name (h.bound name ha)
  globals := k.globals.trans h.globals
  library := k.library.trans h.library
  settings := k.settings.trans h.settings
  dispatch := k.dispatch.trans h.dispatch
  supers := k.supers.trans h.supers
  active := k.active.trans h.active

theorem assign (c : Context) (names : List String) (value : Value) :
    Framed c (c.assign names value) :=
  ⟨rfl, c.scopes.inner.isSome_get?_assign names value, rfl, rfl, rfl, rfl, rfl, rfl⟩

/-- Whatever was bound in a new scope is gone with it. -/
theorem exitScope_eq (h : Framed a.enterScope b) : b.exitScope = a := by
  obtain ⟨scopes, library, settings, dispatch, supers, active⟩ := b
  obtain ⟨outer, -, rfl, rfl, rfl, rfl, rfl, rfl⟩ := h
  simp only at outer
  simp only [Context.exitScope, Context.enterScope, Scopes.exit, outer, Scopes.enter]

theorem withSupers {levels : List Body} (h : Framed { a with supers := levels } b) :
    Framed a { b with supers := a.supers } :=
  ⟨h.outer, h.bound, h.globals, h.library, h.settings, h.dispatch, rfl, h.active⟩

theorem withRegistry {registry : Registry} (h : Framed (a.addRegistry registry) b) :
    Framed a { b with dispatch := a.dispatch } :=
  ⟨h.outer, h.bound, h.globals, h.library, h.settings, rfl, h.supers, h.active⟩

end Framed

/-- A template that is entered is one more under way, which there was room for. -/
theorem Context.of_enterTemplate {c entered : Context} {name : String}
    (he : c.enterTemplate name = .ok entered) :
    c.active.length < c.settings.maxDepth ∧ entered = { c with active := c.active ++ [name] } :=
  (Context.enterTemplate_eq_ok_iff.1 he).2

/-- Leaving a template after it was entered, with its scope, is as if nothing had been. -/
theorem Context.exitTemplate_eq {a b entered : Context} {name : String}
    (he : a.enterTemplate name = .ok entered) (h : Framed entered.enterScope b) :
    b.exitScope.exitTemplate = a := by
  rw [h.exitScope_eq, (Context.of_enterTemplate he).2]
  simp only [Context.exitTemplate, List.dropLast_concat]

/-! ## Actions that keep their context -/

/-- However the action ends, the context is the one before but for bindings in the innermost
scope. -/
def Keeps {α : Type} (x : Action α) : Prop :=
  ∀ s t, (x s).session? = some t → Framed s.context t.context

/-- However the action ends, the context is the one before. -/
def Restores {α : Type} (x : Action α) : Prop :=
  ∀ s t, (x s).session? = some t → t.context = s.context

namespace Restores

variable {α β : Type} {x : Action α}

theorem keeps (h : Restores x) : Keeps x := fun s t ht => .of_eq (h s t ht)

theorem pure (a : α) : Restores (Pure.pure a : Action α) := by
  intro s t h
  cases h
  rfl

theorem context : Restores Action.context := by
  intro s t h
  cases h
  rfl

theorem write (text : String) : Restores (Action.write text) := by
  intro s t h
  cases h
  rfl

theorem notify (notice : Notice) : Restores (Action.notify notice) := by
  intro s t h
  cases h
  rfl

theorem evaluate (e : Expr) : Restores (Action.evaluate e) := by
  intro s t h
  unfold Action.evaluate at h
  cases he : e.eval s.context.find? <;> rw [he] at h <;> cases h <;> rfl

theorem bind {f : α → Action β} (h : Restores x) (k : ∀ a, Restores (f a)) :
    Restores (x >>= f) := by
  intro s t ht
  rcases Outcome.session?_bind ht with ⟨a, u, hx, hf⟩ | hx
  · rw [k a u t hf]
    exact h s u (by rw [hx]; rfl)
  · exact h s t hx

theorem isolated (x : Action α) : Restores (Action.isolated x) := by
  intro s t h
  obtain ⟨u, -, rfl⟩ := of_session?_bracket h
  rfl

theorem withRegistry (registry : Registry) (h : Restores x) :
    Restores (Action.withRegistry registry x) := by
  intro s t ht
  obtain ⟨u, hu, rfl⟩ := of_session?_bracket ht
  simp only [h _ u hu, Context.addRegistry]

end Restores

namespace Keeps

variable {α β : Type} {x : Action α}

theorem bind {f : α → Action β} (h : Keeps x) (k : ∀ a, Keeps (f a)) : Keeps (x >>= f) := by
  intro s t ht
  rcases Outcome.session?_bind ht with ⟨a, u, hx, hf⟩ | hx
  · exact (h s u (by rw [hx]; rfl)).trans (k a u t hf)
  · exact h s t hx

theorem assign (names : List String) (value : Value) : Keeps (Action.assign names value) := by
  intro s t h
  cases h
  exact .assign s.context names value

theorem inScope (h : Keeps x) : Restores (Action.inScope x) := by
  intro s t ht
  obtain ⟨u, hu, rfl⟩ := of_session?_bracket ht
  exact (h _ u hu).exitScope_eq

theorem withSupers (levels : List Body) (h : Keeps x) : Keeps (Action.withSupers levels x) := by
  intro s t ht
  obtain ⟨u, hu, rfl⟩ := of_session?_bracket ht
  exact (h _ u hu).withSupers

theorem withRegistry (registry : Registry) (h : Keeps x) :
    Keeps (Action.withRegistry registry x) := by
  intro s t ht
  obtain ⟨u, hu, rfl⟩ := of_session?_bracket ht
  exact (h _ u hu).withRegistry

theorem inTemplate (name : String) (h : Keeps x) : Restores (Action.inTemplate name x) := by
  intro s t ht
  unfold Action.inTemplate at ht
  cases he : s.context.enterTemplate name with
  | error e =>
    rw [he] at ht
    cases ht
    rfl
  | ok entered =>
    rw [he] at ht
    obtain ⟨u, hu, rfl⟩ := of_session?_bracket ht
    exact Context.exitTemplate_eq he (h _ u hu)

theorem compositional : Compositional fun _ (x : Unit → Action _) => Keeps (x ()) where
  pure a := (Restores.pure a).keeps
  bind := bind
  context := Restores.context.keeps
  write text := (Restores.write text).keeps
  notify notice := (Restores.notify notice).keeps
  evaluate e := (Restores.evaluate e).keeps
  assign := assign
  inScope h := h.inScope.keeps
  isolated _ := (Restores.isolated _).keeps
  withSupers := withSupers
  withRegistry := withRegistry
  inTemplate name h := (h.inTemplate name).keeps

end Keeps

/-! ## Statements and templates -/

section Jumps

variable {jump : Jump} (h : ∀ body, Keeps (jump body))
include h

theorem renderWith_keeps (statement : Statement) : Keeps (statement.renderWith jump) :=
  @Compositional.renderWith Unit _ Keeps.compositional (fun _ => jump) h statement

theorem renderAllWith_keeps (body : Body) : Keeps (renderAllWith jump body) :=
  @Compositional.renderAllWith Unit _ Keeps.compositional (fun _ => jump) h body

theorem renderTemplate_restores (template : Template) : Restores (renderTemplate jump template) :=
  Keeps.inTemplate template.name ((h template.body).bind fun _ => (Restores.pure ()).keeps)

theorem renderSlot_restores (name : String) (default : Body) :
    Restores (renderSlot jump name default) := by
  have dispatch : Restores (dispatchBlock name) :=
    Restores.context.bind fun _ => (Restores.notify _).bind fun _ => .pure _
  rw [renderSlot_eq_renderLevels]
  refine Keeps.inScope (dispatch.keeps.bind fun overrides => ?_)
  exact @Compositional.renderLevels Unit _ Keeps.compositional (fun _ => jump) h _

theorem slot_restores (name : String) (inherits : Bool) (default : Body) :
    Restores ((Statement.slot name inherits default).renderWith jump) := by
  simp only [Statement.renderWith]
  refine Restores.context.bind fun c => ?_
  cases c.dispatch.isEmpty with
  | true => exact (Restores.notify _).bind fun _ => .pure _
  | false =>
    cases inherits with
    | true => exact renderSlot_restores h name default
    | false => exact .isolated _

theorem extend_restores (target : String) (isPath : Bool) (overrides : Registry) :
    Restores ((Statement.extend target isPath overrides).renderWith jump) := by
  simp only [Statement.renderWith]
  cases isPath with
  | false => exact (Restores.notify _).bind fun _ => .pure _
  | true =>
    refine Restores.context.bind fun c => ?_
    cases c.library.find? target with
    | none => exact (Restores.notify _).bind fun _ => .pure _
    | some template =>
      exact (Restores.withRegistry overrides (renderTemplate_restores h template)).bind
        fun _ => .pure _

end Jumps

theorem jumpWithin_keeps (bound : Nat) (body : Body) : Keeps (jumpWithin bound body) :=
  @Compositional.jumpWithin Unit _ Keeps.compositional (fun _ _ _ h => by cases h) bound body

theorem jumpUnbounded_keeps (body : Body) : Keeps (jumpUnbounded body) := by
  intro s
  have limit := jumpAt_hasLimit body
  exact limit.lift (Q := fun o _ => ∀ t, o.session? = some t → Framed s.context t.context)
    (t := s) limit fun bound => jumpWithin_keeps bound body s

/-! ## Loops

A loop runs in a scope of its own, all but its `otherwise`, which is rendered in the scope around
it. So a loop restores the context unless it came to that, and it comes to that when it has
elements to go through and none of them passes the filter. -/

/-- The elements that a loop goes through, if its source has elements at all. -/
def survivors (vars : List String) (source : Expr) (filter : Option Expr) :
    Action (Option Sequence) := do
  let value ← evaluate source
  match value.toSequence? with
  | none => return none
  | some items => return some (← inScope (filtered vars filter items))

theorem keepRest_keeps (vars : List String) (filter : Expr) (items : Sequence) :
    Keeps (do return Sequence.items (← keepRest vars filter items #[] items.size)) := by
  have kept : Keeps (keepRest vars filter items #[] items.size) :=
    @Ordinary.keepRest Unit _ Keeps.compositional.toOrdinary vars filter items #[] items.size
  exact kept.bind fun _ => (Restores.pure _).keeps

theorem filtered_restores (vars : List String) (filter : Option Expr) (items : Sequence) :
    Restores (filtered vars filter items) := by
  cases filter with
  | none => exact .pure items
  | some filter => exact (keepRest_keeps vars filter items).inScope

theorem forEach_keeps {vars : List String} {items : Sequence} {body : Action Flow}
    (h : Keeps body) : Keeps (forEach vars items body) :=
  @Ordinary.repeatRest Unit _ Keeps.compositional.toOrdinary vars items (fun _ => body) h items.size

theorem survivors_restores (vars : List String) (source : Expr) (filter : Option Expr) :
    Restores (survivors vars source filter) := by
  refine (Restores.evaluate source).bind fun value => ?_
  cases value.toSequence? with
  | none => exact .pure _
  | some items => exact (filtered_restores vars filter items).keeps.inScope.bind fun _ => .pure _

/-- Two actions in one scope are each in a scope of its own, when the first leaves nothing in it. -/
theorem inScope_bind {α β : Type} {x : Action α} {f : α → Action β} (h : Restores x) :
    inScope (x >>= f) = inScope x >>= fun a => inScope (f a) := by
  funext s
  simp only [inScope, bracket, Bind.bind]
  -- The second scope is entered in the context from before the first, as `x` leaves it.
  cases hx : x { s with context := s.context.enterScope } with
  | exhausted => rfl
  | failed e u => rfl
  | done a u =>
    have hu : u.context = s.context.enterScope := h _ u (by rw [hx]; rfl)
    obtain ⟨context, output, log⟩ := u
    simp only at hu
    subst hu
    rfl

/-- What a loop does, one thing after the other. -/
theorem loop_eq (jump : Jump) (vars : List String) (source : Expr) (filter : Option Expr)
    (body otherwise : Body) :
    (Statement.loop vars source filter body otherwise).renderWith jump = do
      let value ← evaluate source
      match value.toSequence? with
      | none =>
        notify (.notIterable value.text)
        return .proceed
      | some items =>
        let kept ← inScope (filtered vars filter items)
        match ← inScope (forEach vars kept (renderAllWith jump body)) with
        | .proceed => if kept.size = 0 then renderAllWith jump otherwise else return .proceed
        | .delegated => return .delegated := by
  simp only [Statement.renderWith]
  refine bind_congr fun value => ?_
  cases value.toSequence? with
  | none => rfl
  | some items =>
    simp only
    rw [inScope_bind (filtered_restores vars filter items), bind_assoc]
    refine bind_congr fun kept => ?_
    funext s
    simp only [inScope, bracket, Bind.bind, Pure.pure]
    let inner : Session := { s with context := s.context.enterScope }
    cases forEach vars kept (renderAllWith jump body) inner with
    | done flow t => cases flow <;> rfl
    | failed e t => rfl
    | exhausted => rfl

/-- A loop with nothing to go through is its `otherwise`, in the scope around the loop. -/
theorem loop_eq_otherwise {jump : Jump} {vars : List String} {source : Expr}
    {filter : Option Expr} {body otherwise : Body} {s u : Session} {kept : Sequence}
    (found : survivors vars source filter s = .done (some kept) u) (empty : kept.size = 0) :
    (Statement.loop vars source filter body otherwise).renderWith jump s =
      renderAllWith jump otherwise u := by
  obtain ⟨value, t, he, found⟩ := of_bind_done found
  cases hv : value.toSequence? with
  | none => rw [hv] at found; cases found
  | some items =>
    simp only [hv] at found
    obtain ⟨items', w, hf, found⟩ := of_bind_done found
    cases found
    have idle : inScope (forEach vars kept (renderAllWith jump body)) u = .done .proceed u := by
      unfold forEach
      rw [empty]
      rfl
    rw [loop_eq, bind_done he]
    simp only [hv]
    rw [bind_done hf, bind_done idle]
    simp only
    rw [if_pos empty]

/-- With something to go through, a loop does not come to its `otherwise`. -/
theorem passes_restore {jump : Jump} (h : ∀ body, Keeps (jump body)) (vars : List String)
    (body otherwise : Body) {kept : Sequence} (nonempty : kept.size ≠ 0) :
    Restores (do
      match ← inScope (forEach vars kept (renderAllWith jump body)) with
      | .proceed => if kept.size = 0 then renderAllWith jump otherwise else return .proceed
      | .delegated => return .delegated) := by
  have run : Restores (inScope (forEach vars kept (renderAllWith jump body))) :=
    (forEach_keeps (renderAllWith_keeps h body)).inScope
  refine run.bind fun flow => ?_
  cases flow with
  | proceed => simpa only [nonempty, if_false] using Restores.pure Flow.proceed
  | delegated => exact .pure _

theorem loop_restores_or_finds_nothing {jump : Jump} (h : ∀ body, Keeps (jump body))
    {vars : List String} {source : Expr} {filter : Option Expr} {body otherwise : Body}
    {s t : Session}
    (ends : ((Statement.loop vars source filter body otherwise).renderWith jump s).session? =
      some t) :
    t.context = s.context ∨
      ∃ kept u, survivors vars source filter s = .done (some kept) u ∧ kept.size = 0 := by
  rw [loop_eq] at ends
  -- The source, the filter and the passes each restore the context, so only where a step leads to
  -- the next one there is something to see.
  rcases Outcome.session?_bind ends with ⟨value, r, he, ends⟩ | failed
  · have hr : r.context = s.context := Restores.evaluate source s r (by rw [he]; rfl)
    cases hv : value.toSequence? with
    | none =>
      simp only [hv] at ends
      have rest : Restores (do notify (.notIterable value.text); return Flow.proceed) :=
        (Restores.notify _).bind fun _ => .pure _
      exact .inl ((rest r t ends).trans hr)
    | some items =>
      simp only [hv] at ends
      have pass : Restores (inScope (filtered vars filter items)) :=
        (filtered_restores vars filter items).keeps.inScope
      rcases Outcome.session?_bind ends with ⟨kept, u, hf, ends⟩ | failed
      · have hu : u.context = s.context := (pass r u (by rw [hf]; rfl)).trans hr
        by_cases empty : kept.size = 0
        · refine .inr ⟨kept, u, ?_, empty⟩
          unfold survivors
          rw [bind_done he]
          simp only [hv]
          rw [bind_done hf]
          rfl
        · exact .inl ((passes_restore h vars body otherwise empty u t ends).trans hu)
      · exact .inl ((pass r t failed).trans hr)
  · exact .inl (Restores.evaluate source s t failed)

/-! ## The frame of a render -/

/-- **A render leaves the context as it was, but for bindings in the innermost scope**, however it
ends; and in most cases these are left as they were too. So a template that is rendered a
second time writes the same text again and ends in the same way.

The one statement besides an assignment whose bindings can stay is a loop that has nothing to go
through, because it is then its `otherwise`. -/
theorem render_leaves_context (bound : Nat) :
    (∀ statement : Statement, Keeps (statement.render bound)) ∧
    (∀ body : Body, Keeps (renderAll bound body)) ∧
    (∀ template : Template, Restores (template.render bound)) ∧
    (∀ name inherits default,
      Restores ((Statement.slot name inherits default).render bound)) ∧
    (∀ target isPath overrides,
      Restores ((Statement.extend target isPath overrides).render bound)) ∧
    (∀ vars source filter body otherwise s t,
      ((Statement.loop vars source filter body otherwise).render bound s).session? = some t →
        t.context = s.context ∨
          ∃ kept u, survivors vars source filter s = .done (some kept) u ∧ kept.size = 0 ∧
            u.context = s.context ∧
            (Statement.loop vars source filter body otherwise).render bound s =
              renderAll bound otherwise u) ∧
    (∀ (template : Template) (s t : Session), t.context = s.context →
      ∃ once : Outcome Unit, template.render bound s = once.continuing s ∧
        template.render bound t = once.continuing t) := by
  have h := jumpWithin_keeps bound
  unfold Statement.render renderAll
  refine ⟨renderWith_keeps h, renderAllWith_keeps h, renderTemplate_restores h, slot_restores h,
    extend_restores h, ?_, ?_⟩
  · intro vars source filter body otherwise s t ends
    rcases loop_restores_or_finds_nothing h ends with same | ⟨kept, u, found, empty⟩
    · exact .inl same
    · have hu := survivors_restores vars source filter s u (by rw [found]; rfl)
      exact .inr ⟨kept, u, found, empty, hu, loop_eq_otherwise found empty⟩
  · intro template s t same
    have appends := Template.render_appendOnly bound template
    refine ⟨template.render bound (.start s.context), appends.eq_continuing s, ?_⟩
    rw [← same]
    exact appends.eq_continuing t

/-- An override that binds a name and calls `super`, which fails: the name is bound no longer. -/
theorem render_leaves_context_at_error :
    let base : Template := ⟨"base", [.slot "main" true [.output (.negate (.const .empty))]]⟩
    let bind : Statement := .assign ["x"] (some (.const (.bool true)))
    let page : Template := ⟨"page", [.extend "base" true [("main", [.text "a", bind, .super])]]⟩
    let s := Session.start (.start (.ofList [base]) .empty {})
    ∃ e t, page.render 4 s = .failed e t ∧ t.output = "a" ∧ t.context = s.context ∧
      ∃ once : Outcome Unit,
        page.render 4 s = once.continuing s ∧ page.render 4 t = once.continuing t := by
  intro base bind page s
  have fails : (page.render 4 s).error?.isSome := by decide +kernel
  have written : (page.render 4 s).session?.map (·.output) = some "a" := by decide +kernel
  obtain ⟨-, -, restores, -, -, -, again⟩ := render_leaves_context 4
  cases ends : page.render 4 s with
  | failed e t =>
    rw [ends] at written
    have same : t.context = s.context := restores page s t (by rw [ends]; rfl)
    obtain ⟨once, first, second⟩ := again page s t same
    exact ⟨e, t, rfl, Option.some.inj written, same, once, ends.symm.trans first, second⟩
  | done a t => rw [ends] at fails; cases fails
  | exhausted => rw [ends] at fails; cases fails

end Stencil
