import Stencil.Render.Context
import Stencil.Render.Notice

/-!
# `Stencil/Render/Action.lean` — the effects of rendering

Rendering reads and changes a context, writes text, makes remarks, and may stop at an error. An
`Action` is a function from the session in which it starts to one of three outcomes: it is done, it
has failed, or **it was given up because the bound on its depth was used up**. The third
is neither of the first two. It says nothing about the template, only that the bound was too small
for it, and so it carries no session.

An error does not undo anything by itself: a failed action has a session, with the text that was
written before the error. What is put back, and on which paths, is said in one place. `bracket`
changes the context, runs an action, and puts back what it changed whether the action is done or has
failed; everything that a statement changes for a while goes through it.
-/

set_option autoImplicit false

namespace Stencil

/-- What has become of a render so far. -/
structure Session where
  context : Context
  output : String
  log : Array Event

/-- A session in which nothing has been written. -/
def Session.start (context : Context) : Session := ⟨context, "", #[]⟩

/-- How an action ends. -/
inductive Outcome (α : Type) where
  | done (result : α) (session : Session)
  | failed (error : RenderError) (session : Session)
  /-- Given up at the bound on the depth. -/
  | exhausted

theorem Outcome.done_ne_exhausted {α : Type} {a : α} {s : Session} :
    Outcome.done a s ≠ .exhausted := by
  intro h
  cases h

theorem Outcome.failed_ne_exhausted {α : Type} {e : RenderError} {s : Session} :
    (Outcome.failed e s : Outcome α) ≠ .exhausted := by
  intro h
  cases h

/-- A step of a render with a result. -/
def Action (α : Type) := Session → Outcome α

namespace Action

instance : Monad Action where
  pure a := fun s => .done a s
  bind x f := fun s =>
    match x s with
    | .done a t => f a t
    | .failed e t => .failed e t
    | .exhausted => .exhausted

instance : LawfulMonad Action := LawfulMonad.mk' Action
  (fun x => by funext s; simp only [Functor.map]; cases x s <;> rfl)
  (fun _ _ => rfl)
  (fun x f g => by funext s; cases h : x s <;> simp [bind, h])

section Bind

variable {α β : Type} {x : Action α} {f : α → Action β} {s t : Session}

theorem bind_done {a : α} (h : x s = .done a t) : (x >>= f) s = f a t := by
  simp only [Bind.bind, h]

theorem bind_failed {e : RenderError} (h : x s = .failed e t) : (x >>= f) s = .failed e t := by
  simp only [Bind.bind, h]

theorem bind_exhausted (h : x s = .exhausted) : (x >>= f) s = .exhausted := by
  simp only [Bind.bind, h]

theorem of_bind_done {b : β} (h : (x >>= f) s = .done b t) :
    ∃ a u, x s = .done a u ∧ f a u = .done b t := by
  cases hx : x s with
  | done a u => exact ⟨a, u, rfl, (bind_done hx).symm.trans h⟩
  | failed e u => rw [bind_failed hx] at h; cases h
  | exhausted => rw [bind_exhausted hx] at h; cases h

theorem bind_ne_exhausted (h : x s ≠ .exhausted)
    (k : ∀ a t, x s = .done a t → f a t ≠ .exhausted) : (x >>= f) s ≠ .exhausted := by
  cases hx : x s with
  | done a t => rw [bind_done hx]; exact k a t hx
  | failed e t => rw [bind_failed hx]; exact Outcome.failed_ne_exhausted
  | exhausted => exact absurd hx h

end Bind

/-! ## Steps -/

def giveUp {α : Type} : Action α := fun _ => .exhausted

def context : Action Context := fun s => .done s.context s

def modify (f : Context → Context) : Action Unit := fun s =>
  .done () { s with context := f s.context }

def write (text : String) : Action Unit := fun s => .done () { s with output := s.output ++ text }

def notify (notice : Notice) : Action Unit := fun s =>
  .done () { s with log := s.log.push ⟨notice, s.context.active⟩ }

def evaluate (e : Expr) : Action Value := fun s =>
  match e.eval s.context.find? with
  | .ok value => .done value s
  | .error error => .failed (.evaluation error) s

/-- Binds names to a value, or to its fields, in the innermost scope. -/
def assign (names : List String) (value : Value) : Action Unit := modify (·.assign names value)

theorem context_bind {α : Type} (f : Context → Action α) (s : Session) :
    (context >>= f) s = f s.context s := rfl

/-! ## Changes for the time of an action -/

/-- Runs an action in a changed context. Afterwards, also after an error, `leave` makes the context
to go on with out of the one before and the one the action left. -/
def bracket {α : Type} (enter : Context → Context) (leave : Context → Context → Context)
    (action : Action α) : Action α := fun s =>
  match action { s with context := enter s.context } with
  | .done a t => .done a { t with context := leave s.context t.context }
  | .failed e t => .failed e { t with context := leave s.context t.context }
  | .exhausted => .exhausted

def inScope {α : Type} (action : Action α) : Action α :=
  bracket Context.enterScope (fun _ c => c.exitScope) action

/-- Runs an action that sees the globals only and whose bindings are lost. -/
def isolated {α : Type} (action : Action α) : Action α :=
  bracket Context.isolated (fun before _ => before) action

def withSupers {α : Type} (levels : List Body) (action : Action α) : Action α :=
  bracket (fun c => { c with supers := levels })
    (fun before c => { c with supers := before.supers }) action

def withRegistry {α : Type} (registry : Registry) (action : Action α) : Action α :=
  bracket (·.addRegistry registry) (fun before c => { c with dispatch := before.dispatch }) action

/-- Runs an action as the template of that name, in a scope of its own, unless the template must
not be entered. -/
def inTemplate {α : Type} (name : String) (action : Action α) : Action α := fun s =>
  match s.context.enterTemplate name with
  | .error e => .failed e s
  | .ok entered =>
    bracket (fun _ => entered.enterScope) (fun _ c => c.exitScope.exitTemplate) action s

end Action

end Stencil
