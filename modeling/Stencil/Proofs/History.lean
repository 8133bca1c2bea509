import Stencil.Proofs.Limit

/-!
# `Stencil/Proofs/History.lean` — what was written before does not matter

Text and remarks are only ever added at the end, and nothing reads them back. So a render does not
depend on what its session has written already, and **what it does is a fact about the context**:

> from a session that has written something it ends as from one that has written nothing, with the
> old text in front of the new and the old remarks in front of the new.
-/

set_option autoImplicit false

namespace Stencil

/-! ## Outcomes and their sessions -/

namespace Outcome

variable {α β : Type}

/-- The session at the end, if there is an end. -/
def session? : Outcome α → Option Session
  | done _ s => some s
  | failed _ s => some s
  | exhausted => none

/-- The error at the end, if it is one. -/
def error? : Outcome α → Option RenderError
  | failed e _ => some e
  | _ => none

/-- The same end in another session. -/
def mapSession (f : Session → Session) : Outcome α → Outcome α
  | done a s => done a (f s)
  | failed e s => failed e (f s)
  | exhausted => exhausted

@[simp] theorem session?_done (a : α) (s : Session) : (done a s).session? = some s := rfl

@[simp] theorem session?_failed (e : RenderError) (s : Session) :
    (failed e s : Outcome α).session? = some s := rfl

@[simp] theorem session?_exhausted : (exhausted : Outcome α).session? = none := rfl

@[simp] theorem session?_mapSession (f : Session → Session) (o : Outcome α) :
    (o.mapSession f).session? = o.session?.map f := by
  cases o <;> rfl

@[simp] theorem mapSession_eq_exhausted {f : Session → Session} {o : Outcome α} :
    o.mapSession f = exhausted ↔ o = exhausted := by
  cases o <;> simp [mapSession]

theorem mapSession_mapSession (f g : Session → Session) (o : Outcome α) :
    (o.mapSession f).mapSession g = o.mapSession fun s => g (f s) := by
  cases o <;> rfl

@[simp] theorem mapSession_id (o : Outcome α) : o.mapSession id = o := by
  cases o <;> rfl

theorem session?_bind {x : Action α} {f : α → Action β} {s t : Session}
    (h : ((x >>= f) s).session? = some t) :
    (∃ a u, x s = done a u ∧ (f a u).session? = some t) ∨ (x s).session? = some t := by
  cases hx : x s with
  | done a u => rw [Action.bind_done hx] at h; exact .inl ⟨a, u, rfl, h⟩
  | failed e u => rw [Action.bind_failed hx] at h; exact .inr h
  | exhausted => rw [Action.bind_exhausted hx] at h; cases h

end Outcome

theorem Action.bracket_eq {α : Type} (enter : Context → Context)
    (leave : Context → Context → Context) (x : Action α) (s : Session) :
    bracket enter leave x s = (x { s with context := enter s.context }).mapSession
      fun t => { t with context := leave s.context t.context } := by
  unfold bracket
  cases x { s with context := enter s.context } <;> rfl

/-- Where a temporary change ends, what was done in it has ended. -/
theorem Action.of_session?_bracket {α : Type} {enter : Context → Context}
    {leave : Context → Context → Context} {x : Action α} {s t : Session}
    (h : (bracket enter leave x s).session? = some t) :
    ∃ u, (x { s with context := enter s.context }).session? = some u ∧
      t = { u with context := leave s.context u.context } := by
  rw [bracket_eq, Outcome.session?_mapSession] at h
  obtain ⟨u, hu, eq⟩ := Option.map_eq_some_iff.1 h
  exact ⟨u, hu, eq.symm⟩

theorem Action.bracket_ne_exhausted {α : Type} {enter : Context → Context}
    {leave : Context → Context → Context} {x : Action α} {s : Session}
    (h : x { s with context := enter s.context } ≠ .exhausted) :
    bracket enter leave x s ≠ .exhausted := by
  rw [bracket_eq, ne_eq, Outcome.mapSession_eq_exhausted]
  exact h

/-! ## Slots, and templates and their bodies -/

/-- The session after one more remark. -/
def Session.noticing (s : Session) (notice : Notice) : Session :=
  { s with log := s.log.push ⟨notice, s.context.active⟩ }

/-- To render a slot is to remark on its overrides and render the levels, in a new scope. -/
theorem renderSlot_eq {jump : Jump} (name : String) (default : Body) (s : Session) :
    renderSlot jump name default s =
      (renderLevels jump (s.context.overrides name ++ [default])
        (Session.noticing { s with context := s.context.enterScope }
          (.dispatching name (s.context.overrides name).length))).mapSession
        fun t => { t with context := t.context.exitScope } := by
  rw [renderSlot_eq_renderLevels]
  exact Action.bracket_eq _ _ _ s

/-- The session at the start of a template's body. -/
def Session.inside (s : Session) (name : String) : Session :=
  { s with context := { s.context with active := s.context.active ++ [name] }.enterScope }

section Templates

variable {jump : Jump} {m : Template} {s : Session}

theorem renderTemplate_of_error {e : RenderError}
    (he : s.context.enterTemplate m.name = .error e) : renderTemplate jump m s = .failed e s := by
  unfold renderTemplate Action.inTemplate
  rw [he]

theorem renderTemplate_of_room (new : m.name ∉ s.context.active)
    (room : s.context.active.length < s.context.settings.maxDepth) :
    renderTemplate jump m s =
      ((jump m.body >>= fun _ => pure ()) (s.inside m.name)).mapSession
        fun t => { t with context := t.context.exitScope.exitTemplate } := by
  have entered := Context.enterTemplate_eq_ok_iff.2 ⟨new, room, rfl⟩
  unfold renderTemplate Action.inTemplate
  rw [entered]
  exact Action.bracket_eq _ _ _ s

/-- To extend a template is to render it with one more registry in force. -/
theorem renderExtended_eq (overrides : Registry) :
    renderExtended jump m overrides s =
      (renderTemplate jump m { s with context := s.context.addRegistry overrides }).mapSession
        fun t => { t with context := { t.context with dispatch := s.context.dispatch } } := by
  unfold renderExtended Action.withRegistry
  exact Action.bracket_eq _ _ _ s

end Templates

/-! ## What an action adds -/

/-- The session with text and remarks in front of its own. -/
def Session.preceded (s : Session) (text : String) (log : Array Event) : Session :=
  { s with output := text ++ s.output, log := log ++ s.log }

/-- The outcome of an action that started with nothing written, as one in a session that has written
what `past` has. -/
def Outcome.continuing {α : Type} (o : Outcome α) (past : Session) : Outcome α :=
  o.mapSession (·.preceded past.output past.log)

/-- What the action does is added to what its session has written. -/
def AppendOnly {α : Type} (x : Action α) : Prop :=
  ∀ text log s, x (s.preceded text log) = (x s).mapSession (·.preceded text log)

namespace AppendOnly

variable {α β : Type} {x : Action α}

theorem bind {f : α → Action β} (h : AppendOnly x) (k : ∀ a, AppendOnly (f a)) :
    AppendOnly (x >>= f) := by
  intro text log s
  simp only [Bind.bind, h text log s]
  cases x s with
  | done a t => exact k a text log t
  | failed e t => rfl
  | exhausted => rfl

theorem bracket (enter : Context → Context) (leave : Context → Context → Context)
    (h : AppendOnly x) : AppendOnly (Action.bracket enter leave x) := by
  intro text log s
  have inner := h text log { s with context := enter s.context }
  simp only [Action.bracket, Session.preceded] at inner ⊢
  rw [inner]
  cases x { s with context := enter s.context } <;> rfl

theorem inTemplate (name : String) (h : AppendOnly x) : AppendOnly (Action.inTemplate name x) := by
  intro text log s
  have same : (s.preceded text log).context = s.context := rfl
  simp only [Action.inTemplate, same]
  cases s.context.enterTemplate name with
  | error e => rfl
  | ok entered => exact bracket _ _ h text log s

theorem compositional : Compositional fun _ (x : Unit → Action _) => AppendOnly (x ()) where
  pure _ := fun _ _ _ => rfl
  bind := bind
  context := fun _ _ _ => rfl
  write added := fun text log s => by
    simp only [Action.write, Session.preceded, Outcome.mapSession, String.append_assoc]
  notify notice := fun text log s => by
    simp only [Action.notify, Session.preceded, Outcome.mapSession, Array.append_push]
  evaluate e := fun text log s => by
    have same : (s.preceded text log).context = s.context := rfl
    simp only [Action.evaluate, same]
    cases e.eval s.context.find? <;> rfl
  assign _ _ := fun _ _ _ => rfl
  inScope := bracket _ _
  isolated := bracket _ _
  withSupers _ := bracket _ _
  withRegistry _ := bracket _ _
  inTemplate := inTemplate

/-- What an action does in a session is what it does in its context. -/
theorem eq_continuing (h : AppendOnly x) (s : Session) :
    x s = (x (.start s.context)).continuing s := by
  have eq := h s.output s.log (.start s.context)
  have same : (Session.start s.context).preceded s.output s.log = s := by
    simp only [Session.start, Session.preceded, String.append_empty, Array.append_empty]
  rw [same] at eq
  exact eq

end AppendOnly

theorem jumpWithin_appendOnly (bound : Nat) (body : Body) : AppendOnly (jumpWithin bound body) :=
  @Compositional.jumpWithin Unit _ AppendOnly.compositional (fun _ _ _ _ => rfl) bound body

theorem jumpUnbounded_appendOnly (body : Body) : AppendOnly (jumpUnbounded body) := by
  intro text log s
  have limit := jumpAt_hasLimit body
  exact limit.lift (Q := fun o o' => o = o'.mapSession (·.preceded text log)) limit
    fun bound => jumpWithin_appendOnly bound body text log s

theorem Template.render_appendOnly (bound : Nat) (template : Template) :
    AppendOnly (template.render bound) :=
  @Compositional.renderTemplate Unit _ AppendOnly.compositional (fun _ => jumpWithin bound)
    (jumpWithin_appendOnly bound) template

end Stencil
