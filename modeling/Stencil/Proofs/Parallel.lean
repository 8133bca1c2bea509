import Mathlib.Data.List.Forall2
import Stencil.Proofs.Frame
import Stencil.Proofs.Names
import Stencil.Proofs.Simulation

/-!
# `Stencil/Proofs/Parallel.lean` — two renders of bodies that correspond

Most comparisons of two renders have the same outline. The scopes of the two differ, but some names
mean the same in both; the libraries and overrides differ, but what one render finds in them
corresponds to what the other finds; and the second render need not follow the first into every
error. A `Comparison` says all of this. What each of them is left to show is that it goes on at the
body of every template that the first render enters (`Comparison.Enters`).

**Bindings are compared by their meaning only**, never scope by scope. When a scope is left, what
the names meant before is known again from the frame of the render (`Stencil/Proofs/Frame.lean`),
not from the comparison: actions in parallel keep their contexts, each by itself.
-/

set_option autoImplicit false

namespace Stencil

open Stencil.Action

/-! ## Where a render stands, apart from its bindings -/

/-- All of a context but what names mean in it. -/
structure Standing where
  library : Library
  settings : Settings
  dispatch : List Registry
  supers : List Body
  active : List String

namespace Standing

/-- With these levels left for `super`. -/
def leaving (a : Standing) (levels : List Body) : Standing := { a with supers := levels }

/-- With one more template under way. -/
def entering (a : Standing) (name : String) : Standing := { a with active := a.active ++ [name] }

/-- With one more registry in force. -/
def adding (a : Standing) (registry : Registry) : Standing :=
  { a with dispatch := a.dispatch ++ [registry] }

/-- The overrides of a block. -/
def overrides (a : Standing) (name : String) : List Body := a.dispatch.filterMap (·.find? name)

theorem isEmpty_adding (a : Standing) (registry : Registry) :
    (a.adding registry).dispatch.isEmpty = false := by
  unfold adding
  cases a.dispatch <;> rfl

end Standing

def Context.standing (c : Context) : Standing :=
  ⟨c.library, c.settings, c.dispatch, c.supers, c.active⟩

theorem Framed.standing {a b : Context} (h : Framed a b) : b.standing = a.standing := by
  unfold Context.standing
  rw [h.library, h.settings, h.dispatch, h.supers, h.active]

/-! ## What names mean -/

/-- The visible names mean the same in both contexts, and the same where only the globals are
seen. -/
structure SameBindings (visible : String → Prop) (c d : Context) : Prop where
  found : ∀ name, visible name → d.find? name = c.find? name
  global : ∀ name, visible name → d.globals.get? name = c.globals.get? name

namespace SameBindings

variable {visible : String → Prop} {c d : Context}

theorem enterScope (h : SameBindings visible c d) :
    SameBindings visible c.enterScope d.enterScope := by
  refine ⟨fun name seen => ?_, h.global⟩
  rw [Context.find?_enterScope, Context.find?_enterScope, h.found name seen]

theorem isolated (h : SameBindings visible c d) :
    SameBindings visible c.isolated d.isolated := by
  refine ⟨fun name seen => ?_, h.global⟩
  rw [Context.find?_isolated, Context.find?_isolated, h.global name seen]

/-- An assignment binds the same in both contexts, also where the names are not visible. -/
theorem assign (h : SameBindings visible c d) (names : List String) (value : Value) :
    SameBindings visible (c.assign names value) (d.assign names value) := by
  refine ⟨fun name seen => ?_, h.global⟩
  rw [Context.find?_assign, Context.find?_assign, h.found name seen]

theorem eval_eq (h : SameBindings visible c d) {e : Expr} (seen : ∀ name ∈ e.names, visible name) :
    e.eval d.find? = e.eval c.find? :=
  e.eval_congr fun name occurs => h.found name (seen name occurs)

end SameBindings

/-! ## Outcomes, with some excused -/

/-- Why an action did not come to a result. -/
inductive Stop where
  | error (e : RenderError)
  | gaveUp

namespace Outcome

variable {α β : Type}

def stop? : Outcome α → Option Stop
  | done _ _ => none
  | failed e _ => some (.error e)
  | exhausted => some .gaveUp

@[simp] theorem stop?_mapSession (f : Session → Session) (o : Outcome α) :
    (o.mapSession f).stop? = o.stop? := by
  cases o <;> rfl

/-- What has stopped does not go on. -/
theorem stop?_bind {x : Action α} {f : α → Action β} {s : Session} {stop : Stop}
    (h : (x s).stop? = some stop) : ((x >>= f) s).stop? = some stop := by
  simp only [Bind.bind]
  cases hx : x s with
  | done a t => rw [hx] at h; cases h
  | failed e t => rwa [hx] at h
  | exhausted => rwa [hx] at h

/-- The same end, in related sessions, unless the first render stopped in a way that says nothing
about the second. -/
def RelatedUnless (excused : Stop → Prop) (R : Session → Session → Prop) (o o' : Outcome α) :
    Prop :=
  (∃ stop, o.stop? = some stop ∧ excused stop) ∨ o.Related R o'

namespace RelatedUnless

variable {excused : Stop → Prop} {R Q : Session → Session → Prop} {o o' : Outcome α}

theorem done (a : α) {s t : Session} (h : R s t) :
    RelatedUnless excused R (.done a s) (.done a t) := .inr (.done a h)

theorem failed (e : RenderError) {s t : Session} (h : R s t) :
    RelatedUnless excused R (.failed e s : Outcome α) (.failed e t) := .inr (.failed e h)

/-- Where nothing is excused, the outcomes are related. -/
theorem related (h : o.RelatedUnless excused R o')
    (unexcused : ∀ stop, o.stop? = some stop → ¬excused stop) : o.Related R o' := by
  rcases h with ⟨stop, stopped, excuse⟩ | related
  · exact absurd excuse (unexcused stop stopped)
  · exact related

theorem mapSession {f g : Session → Session} (h : o.RelatedUnless excused Q o')
    (out : ∀ s t, Q s t → R (f s) (g t)) :
    (o.mapSession f).RelatedUnless excused R (o'.mapSession g) := by
  rcases h with ⟨stop, stopped, excuse⟩ | related
  · exact .inl ⟨stop, (stop?_mapSession f o).trans stopped, excuse⟩
  · exact .inr (related.mapSession out)

theorem imp (h : o.RelatedUnless excused R o')
    (k : ∀ s t, o.session? = some s → o'.session? = some t → R s t → Q s t) :
    o.RelatedUnless excused Q o' := by
  rcases h with stopped | related
  · exact .inl stopped
  · exact .inr (related.imp k)

theorem bind {x y : Action α} {f g : α → Action β} {s t : Session}
    (h : (x s).RelatedUnless excused R (y t))
    (k : ∀ a u v, R u v → (f a u).RelatedUnless excused Q (g a v))
    (out : ∀ u v, R u v → Q u v) :
    ((x >>= f) s).RelatedUnless excused Q ((y >>= g) t) := by
  rcases h with ⟨stop, stopped, excuse⟩ | related
  · exact .inl ⟨stop, stop?_bind stopped, excuse⟩
  · simp only [Bind.bind]
    generalize x s = o at related ⊢
    generalize y t = o' at related ⊢
    cases related with
    | done a huv => exact k a _ _ huv
    | failed e huv => exact .failed e (out _ _ huv)
    | exhausted => exact .inr .exhausted

end RelatedUnless

end Outcome

/-! ## Comparisons -/

/-- How a second render compares to a first one: what of their sessions is related, and which bodies
the second renders in the place of which. -/
structure Comparison where
  /-- The names that mean the same in both renders. -/
  visible : String → Prop
  standing : Standing → Standing → Prop
  log : Array Event → Array Event → Prop
  bodies : Body → Body → Prop
  /-- The ways for the first render to stop that say nothing about the second. -/
  excused : Stop → Prop
  noticed {a b : Standing} {l l' : Array Event} : standing a b → log l l' →
    ∀ notice, log (l.push ⟨notice, a.active⟩) (l'.push ⟨notice, b.active⟩)
  dispatched {a b : Standing} : standing a b → b.dispatch.isEmpty = a.dispatch.isEmpty
  leftover {a b : Standing} : standing a b → List.Forall₂ bodies a.supers b.supers
  leaving {a b : Standing} {levels levels' : List Body} : standing a b →
    List.Forall₂ bodies levels levels' → standing (a.leaving levels) (b.leaving levels')

namespace Comparison

variable (K : Comparison)

/-- What has been written compares. -/
structure Written (s t : Session) : Prop where
  output : t.output = s.output
  log : K.log s.log t.log

/-- The sessions compare in all respects. -/
structure Abreast (s t : Session) : Prop extends K.Written s t where
  bindings : SameBindings K.visible s.context t.context
  standing : K.standing s.context.standing t.context.standing

/-- From sessions abreast the actions come to the same end in sessions abreast, unless the first
stops in a way that is excused. -/
structure Parallel (α : Type) (x y : Action α) : Prop where
  left : Keeps x
  right : Keeps y
  related : ∀ s t, K.Abreast s t → (x s).RelatedUnless K.excused K.Abreast (y t)

variable {K}

/-- Where the renders stand does not matter for what they have written. -/
theorem Written.elsewhere {s t : Session} (h : K.Written s t) (c d : Context) :
    K.Written { s with context := c } { t with context := d } := ⟨h.output, h.log⟩

theorem Written.noticing {s t : Session} (h : K.Written s t)
    (standing : K.standing s.context.standing t.context.standing) (notice : Notice) :
    K.Written (s.noticing notice) (t.noticing notice) :=
  ⟨h.output, K.noticed standing h.log notice⟩

theorem Abreast.noticing {s t : Session} (h : K.Abreast s t) (notice : Notice) :
    K.Abreast (s.noticing notice) (t.noticing notice) :=
  ⟨h.toWritten.noticing h.standing notice, h.bindings, h.standing⟩

namespace Parallel

variable {α β : Type} {x y : Action α}

/-- Since the actions keep their contexts, where the renders stand is known to compare in the
end. -/
theorem of_keeps (hx : Keeps x) (hy : Keeps y)
    (h : ∀ s t, K.Abreast s t → (x s).RelatedUnless K.excused
      (fun u v => K.Written u v ∧ SameBindings K.visible u.context v.context) (y t)) :
    K.Parallel α x y := by
  refine ⟨hx, hy, fun s t hst => (h s t hst).imp fun u v hu hv huv => ?_⟩
  refine ⟨huv.1, huv.2, ?_⟩
  rw [(hx s u hu).standing, (hy t v hv).standing]
  exact hst.standing

/-- Actions that restore their contexts need only write the same. -/
theorem of_restores (hx : Restores x) (hy : Restores y)
    (h : ∀ s t, K.Abreast s t → (x s).RelatedUnless K.excused K.Written (y t)) :
    K.Parallel α x y := by
  apply of_keeps hx.keeps hy.keeps
  intro s t hst
  refine (h s t hst).imp fun u v hu hv written => ⟨written, ?_⟩
  rw [hx s u hu, hy t v hv]
  exact hst.bindings

theorem pure (a : α) : K.Parallel α (Pure.pure a) (Pure.pure a) :=
  ⟨(Restores.pure a).keeps, (Restores.pure a).keeps, fun _ _ h => .done a h⟩

theorem bind {f g : α → Action β} (h : K.Parallel α x y) (k : ∀ a, K.Parallel β (f a) (g a)) :
    K.Parallel β (x >>= f) (y >>= g) where
  left := h.left.bind fun a => (k a).left
  right := h.right.bind fun a => (k a).right
  related s t hst := (h.related s t hst).bind (fun a u v huv => (k a).related u v huv)
    fun _ _ huv => huv

theorem write (text : String) : K.Parallel Unit (Action.write text) (Action.write text) := by
  refine ⟨(Restores.write text).keeps, (Restores.write text).keeps, fun s t h => .done () ?_⟩
  exact ⟨⟨by simp only [h.output], h.log⟩, h.bindings, h.standing⟩

theorem notify (notice : Notice) :
    K.Parallel Unit (Action.notify notice) (Action.notify notice) :=
  ⟨(Restores.notify notice).keeps, (Restores.notify notice).keeps,
    fun _ _ h => .done () (h.noticing notice)⟩

theorem evaluate {e : Expr} (seen : ∀ name ∈ e.names, K.visible name) :
    K.Parallel Value (Action.evaluate e) (Action.evaluate e) := by
  refine ⟨(Restores.evaluate e).keeps, (Restores.evaluate e).keeps, fun s t h => ?_⟩
  unfold Action.evaluate
  rw [h.bindings.eval_eq seen]
  cases e.eval s.context.find? with
  | ok value => exact .done value h
  | error error => exact .failed _ h

theorem assign (names : List String) (value : Value) :
    K.Parallel Unit (Action.assign names value) (Action.assign names value) :=
  ⟨.assign names value, .assign names value,
    fun _ _ h => .done () ⟨h.elsewhere _ _, h.bindings.assign names value, h.standing⟩⟩

theorem inScope (h : K.Parallel α x y) : K.Parallel α (Action.inScope x) (Action.inScope y) := by
  apply of_restores h.left.inScope h.right.inScope
  intro s t hst
  unfold Action.inScope
  rw [bracket_eq, bracket_eq]
  have inside := h.related { s with context := s.context.enterScope }
    { t with context := t.context.enterScope }
    ⟨hst.elsewhere _ _, hst.bindings.enterScope, hst.standing⟩
  exact inside.mapSession fun u v huv => huv.elsewhere _ _

theorem isolated (h : K.Parallel α x y) :
    K.Parallel α (Action.isolated x) (Action.isolated y) := by
  apply of_restores (.isolated x) (.isolated y)
  intro s t hst
  unfold Action.isolated
  rw [bracket_eq, bracket_eq]
  have inside := h.related { s with context := s.context.isolated }
    { t with context := t.context.isolated }
    ⟨hst.elsewhere _ _, hst.bindings.isolated, hst.standing⟩
  exact inside.mapSession fun u v huv => huv.elsewhere _ _

theorem withSupers {levels levels' : List Body} (same : List.Forall₂ K.bodies levels levels')
    (h : K.Parallel α x y) :
    K.Parallel α (Action.withSupers levels x) (Action.withSupers levels' y) := by
  apply of_keeps (h.left.withSupers levels) (h.right.withSupers levels')
  intro s t hst
  unfold Action.withSupers
  rw [bracket_eq, bracket_eq]
  have inside := h.related { s with context := { s.context with supers := levels } }
    { t with context := { t.context with supers := levels' } }
    ⟨hst.elsewhere _ _, ⟨hst.bindings.found, hst.bindings.global⟩, K.leaving hst.standing same⟩
  exact inside.mapSession fun u v huv =>
    ⟨huv.elsewhere _ _, huv.bindings.found, huv.bindings.global⟩

theorem ordinary : OrdinaryPair (fun e => ∀ name ∈ e.names, K.visible name) K.Parallel where
  pure := pure
  bind := bind
  write := write
  notify := notify
  evaluate _ := evaluate
  assign := assign
  inScope := inScope

end Parallel

/-! ## Statements of inheritance -/

section Jumps

variable (K) in
/-- The renders go on in parallel after a jump, if they jump to bodies that correspond. -/
structure Follows (jump jump' : Jump) : Prop where
  left : ∀ body, Keeps (jump body)
  right : ∀ body, Keeps (jump' body)
  parallel : ∀ body body', K.bodies body body' → K.Parallel Flow (jump body) (jump' body')

variable {jump jump' : Jump} (follows : K.Follows jump jump')

include follows in
theorem levels {levels levels' : List Body} (same : List.Forall₂ K.bodies levels levels') :
    K.Parallel Flow (renderLevels jump levels) (renderLevels jump' levels') := by
  cases same with
  | nil => exact .pure _
  | cons first below => exact .withSupers below (follows.parallel _ _ first)

include follows in
theorem renderSlot_written {name : String} {default default' : Body}
    (same : K.bodies default default') {s t : Session} (h : K.Abreast s t)
    (overrides : List.Forall₂ K.bodies (s.context.standing.overrides name)
      (t.context.standing.overrides name)) :
    (renderSlot jump name default s).RelatedUnless K.excused K.Written
      (renderSlot jump' name default' t) := by
  have all : List.Forall₂ K.bodies (s.context.overrides name ++ [default])
      (t.context.overrides name ++ [default']) :=
    List.rel_append overrides (.cons same .nil)
  let notice : Notice := .dispatching name (s.context.overrides name).length
  have inner : K.Abreast { s with context := s.context.enterScope }
      { t with context := t.context.enterScope } :=
    ⟨h.elsewhere _ _, h.bindings.enterScope, h.standing⟩
  have inside := (levels follows all).related _ _ (inner.noticing notice)
  have count : (t.context.overrides name).length = (s.context.overrides name).length :=
    overrides.length_eq.symm
  rw [renderSlot_eq, renderSlot_eq, count]
  exact inside.mapSession fun u v huv => huv.elsewhere _ _

include follows in
theorem slot {name : String} {inherits : Bool} {default default' : Body}
    (same : K.bodies default default')
    (overrides : ∀ a b, K.standing a b →
      List.Forall₂ K.bodies (a.overrides name) (b.overrides name)) :
    K.Parallel Flow ((Statement.slot name inherits default).renderWith jump)
      ((Statement.slot name inherits default').renderWith jump') := by
  apply Parallel.of_restores (slot_restores follows.left name inherits default)
    (slot_restores follows.right name inherits default')
  intro s t h
  have dispatched : t.context.dispatch.isEmpty = s.context.dispatch.isEmpty :=
    K.dispatched h.standing
  simp only [Statement.renderWith]
  rw [context_bind, context_bind, dispatched]
  cases s.context.dispatch.isEmpty with
  | true => exact .done _ (h.noticing _).toWritten
  | false =>
    cases inherits with
    | true => exact renderSlot_written follows same h (overrides _ _ h.standing)
    | false =>
      have apart : K.Abreast { s with context := s.context.isolated }
          { t with context := t.context.isolated } :=
        ⟨h.elsewhere _ _, h.bindings.isolated, h.standing⟩
      have inside := renderSlot_written follows same apart (overrides _ _ apart.standing)
      show Outcome.RelatedUnless _ _ (isolated _ s) (isolated _ t)
      unfold isolated
      rw [bracket_eq, bracket_eq]
      exact inside.mapSession fun u v huv => huv.elsewhere _ _

include follows in
theorem super : K.Parallel Flow (Statement.super.renderWith jump)
    (Statement.super.renderWith jump') := by
  refine ⟨renderWith_keeps follows.left .super, renderWith_keeps follows.right .super, ?_⟩
  intro s t h
  have leftover : List.Forall₂ K.bodies s.context.supers t.context.supers :=
    K.leftover h.standing
  simp only [Statement.renderWith]
  rw [context_bind, context_bind]
  generalize s.context.supers = below at leftover ⊢
  generalize t.context.supers = below' at leftover ⊢
  cases leftover with
  | nil => exact .done _ (h.noticing .strandedSuper)
  | cons first rest => exact (levels follows (.cons first rest)).related s t h

/-! ## Templates -/

variable (K) in
/-- Where the first render enters a template or must not, the second enters one that corresponds
to it or must not either. -/
structure Enters (c d : Context) (template template' : Template) : Prop where
  bodies : K.bodies template.body template'.body
  refused : ∀ e, c.enterTemplate template.name = .error e →
    K.excused (.error e) ∨ d.enterTemplate template'.name = .error e
  entered : template.name ∉ c.active → c.active.length < c.settings.maxDepth →
    template'.name ∉ d.active ∧ d.active.length < d.settings.maxDepth ∧
      K.standing (c.standing.entering template.name) (d.standing.entering template'.name)

include follows in
theorem renderTemplate_written {template template' : Template} {s t : Session}
    (written : K.Written s t) (bindings : SameBindings K.visible s.context t.context)
    (enters : K.Enters s.context t.context template template') :
    (renderTemplate jump template s).RelatedUnless K.excused K.Written
      (renderTemplate jump' template' t) := by
  cases he : s.context.enterTemplate template.name with
  | error e =>
    rw [renderTemplate_of_error he]
    rcases enters.refused e he with excuse | he'
    · exact .inl ⟨.error e, rfl, excuse⟩
    · rw [renderTemplate_of_error he']
      exact .failed e written
  | ok entered =>
    obtain ⟨new, room, -⟩ := Context.enterTemplate_eq_ok_iff.1 he
    obtain ⟨new', room', standing⟩ := enters.entered new room
    have inner : K.Abreast (s.inside template.name) (t.inside template'.name) :=
      ⟨written.elsewhere _ _, ⟨bindings.found, bindings.global⟩, standing⟩
    have body := (follows.parallel _ _ enters.bodies).related _ _ inner
    rw [renderTemplate_of_room new room, renderTemplate_of_room new' room']
    exact (body.bind (fun _ u v huv => .done () huv.toWritten) fun _ _ huv =>
      huv.toWritten).mapSession fun u v huv => huv.elsewhere _ _

include follows in
theorem renderExtended_written {template template' : Template} {overrides overrides' : Registry}
    {s t : Session} (h : K.Abreast s t)
    (enters : K.Enters (s.context.addRegistry overrides) (t.context.addRegistry overrides')
      template template') :
    (renderExtended jump template overrides s).RelatedUnless K.excused K.Written
      (renderExtended jump' template' overrides' t) := by
  rw [renderExtended_eq, renderExtended_eq]
  have inside := renderTemplate_written follows
    (s := { s with context := s.context.addRegistry overrides })
    (t := { t with context := t.context.addRegistry overrides' })
    (h.elsewhere _ _) ⟨h.bindings.found, h.bindings.global⟩ enters
  exact inside.mapSession fun u v huv => huv.elsewhere _ _

/-- An `extend` whose target is not followed. -/
theorem computed (target : String) (overrides overrides' : Registry) :
    K.Parallel Flow ((Statement.extend target false overrides).renderWith jump)
      ((Statement.extend target false overrides').renderWith jump') := by
  simp only [Statement.renderWith]
  exact .bind (.notify (.computedTarget target)) fun _ => .pure Flow.proceed

include follows in
/-- Two `extend`s go on in parallel if they do so at what they find in the libraries. -/
theorem extend {target target' : String} {overrides overrides' : Registry}
    (missing : ∀ s t, K.Abreast s t → s.context.library.find? target = none →
      t.context.library.find? target' = none ∧ target' = target)
    (found : ∀ s t, K.Abreast s t → ∀ template, s.context.library.find? target = some template →
      ∃ template', t.context.library.find? target' = some template' ∧
        (renderExtended jump template overrides s).RelatedUnless K.excused K.Written
          (renderExtended jump' template' overrides' t)) :
    K.Parallel Flow ((Statement.extend target true overrides).renderWith jump)
      ((Statement.extend target' true overrides').renderWith jump') := by
  apply Parallel.of_restores (extend_restores follows.left target true overrides)
    (extend_restores follows.right target' true overrides')
  intro s t h
  simp only [Statement.renderWith, if_true]
  rw [context_bind, context_bind]
  cases hs : s.context.library.find? target with
  | none =>
    obtain ⟨ht, same⟩ := missing s t h hs
    rw [ht, same]
    exact .done _ (h.noticing _).toWritten
  | some template =>
    obtain ⟨template', ht, rendered⟩ := found s t h template hs
    rw [ht]
    exact rendered.bind (fun _ u v huv => .done _ huv) fun _ _ huv => huv

end Jumps

end Comparison

end Stencil
