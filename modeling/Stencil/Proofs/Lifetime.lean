import Stencil.Proofs.Frame

/-!
# `Stencil/Proofs/Lifetime.lean` — what holds of a context for as long as it is used

A context is not only rendered in. Whoever holds one can enter and leave scopes and templates, bind
names, put other registries or levels in place, render one thing after another whether or not
the last one failed, and do all that to a clone. Nothing says that an exit follows an entry.
Still

> **the chain of scopes is never empty, no template is under way twice, and no more of them are than
> the limit allows**,

and that holds of the context and of all its clones after any history (`contexts_stay_sound`).

The checks of `Context.enterTemplate` are what keeps it so. That they are made against a sound
context is in turn what makes their errors mean what they say, also where they come from deep inside
a render: a chain that is reported as a cycle is the templates under way, each of them once, and
then one of them again; and a depth that is reported as too large is just one more than the limit.
-/

set_option autoImplicit false

namespace Stencil

open Stencil.Action

/-! ## Sound contexts -/

namespace Scopes

/-- The scopes from the innermost one to the outermost. -/
def chain (scopes : Scopes) : List Scope := scopes.inner :: scopes.outer

theorem chain_enter (scopes : Scopes) : scopes.enter.chain = .empty :: scopes.chain := rfl

/-- The innermost scope goes, unless it is the only one. -/
theorem chain_exit (scopes : Scopes) :
    scopes.exit.chain = if 1 < scopes.chain.length then scopes.chain.tail else scopes.chain := by
  obtain ⟨inner, outer⟩ := scopes
  cases outer with
  | nil => rfl
  | cons scope outer => simp [chain, exit]

theorem chain_modify (scopes : Scopes) (f : Scope → Scope) :
    (scopes.modify f).chain = f scopes.inner :: scopes.chain.tail := rfl

end Scopes

/-- What holds of a context at all times, under the limit it was made with. -/
structure Context.Sound (limit : Nat) (c : Context) : Prop where
  limited : c.settings.maxDepth = limit
  nonempty : c.scopes.chain ≠ []
  distinct : c.active.Nodup
  within : c.active.length ≤ limit

namespace Context.Sound

variable {limit : Nat} {c c' : Context}

theorem start (library : Library) (globals : Scope) (limit : Nat) :
    (Context.start library globals ⟨limit⟩).Sound limit :=
  ⟨rfl, List.cons_ne_nil _ _, List.nodup_nil, Nat.zero_le _⟩

theorem withScopes (h : c.Sound limit) {scopes : Scopes} (nonempty : scopes.chain ≠ []) :
    { c with scopes := scopes }.Sound limit :=
  ⟨h.limited, nonempty, h.distinct, h.within⟩

theorem enterScope (h : c.Sound limit) : c.enterScope.Sound limit := by
  refine h.withScopes ?_
  rw [Scopes.chain_enter]
  exact List.cons_ne_nil _ _

theorem exitScope (h : c.Sound limit) : c.exitScope.Sound limit := by
  refine h.withScopes ?_
  rw [Scopes.chain_exit]
  split
  · next several => exact List.ne_nil_of_length_pos (by rw [List.length_tail]; omega)
  · exact h.nonempty

theorem assign (h : c.Sound limit) (names : List String) (value : Value) :
    (c.assign names value).Sound limit := by
  refine h.withScopes ?_
  rw [Scopes.chain_modify]
  exact List.cons_ne_nil _ _

theorem isolated (h : c.Sound limit) : c.isolated.Sound limit :=
  h.withScopes (List.cons_ne_nil _ _)

theorem withDispatch (h : c.Sound limit) (registries : List Registry) :
    { c with dispatch := registries }.Sound limit :=
  ⟨h.limited, h.nonempty, h.distinct, h.within⟩

theorem withSupers (h : c.Sound limit) (levels : List Body) :
    { c with supers := levels }.Sound limit :=
  ⟨h.limited, h.nonempty, h.distinct, h.within⟩

/-- A template is entered where it is not under way and there is room for it. -/
theorem enterTemplate (h : c.Sound limit) {name : String} (he : c.enterTemplate name = .ok c') :
    c'.Sound limit := by
  obtain ⟨new, room, rfl⟩ := Context.enterTemplate_eq_ok_iff.1 he
  have distinct := h.distinct
  refine ⟨h.limited, h.nonempty, ?_, ?_⟩
  · show (c.active ++ [name]).Nodup
    grind [List.nodup_append]
  · rw [h.limited] at room
    simp only [List.length_append, List.length_singleton]
    omega

theorem exitTemplate (h : c.Sound limit) : c.exitTemplate.Sound limit where
  limited := h.limited
  nonempty := h.nonempty
  distinct := h.distinct.sublist (List.dropLast_sublist _)
  within := by
    have := h.within
    simp only [Context.exitTemplate, List.length_dropLast]
    omega

theorem framed (h : c.Sound limit) (frame : Framed c c') : c'.Sound limit where
  limited := by rw [frame.settings]; exact h.limited
  nonempty := List.cons_ne_nil _ _
  distinct := by rw [frame.active]; exact h.distinct
  within := by rw [frame.active]; exact h.within

end Context.Sound

/-! ## Errors that a sound context accounts for -/

/-- What an error about templates says is true of some context with these templates under way, and
perhaps more inside of them. -/
def RenderError.Accounted (limit : Nat) (active : List String) : RenderError → Prop
  | .evaluation _ => True
  | .cycle chain => ∃ under name, active <+: under ∧ under.Nodup ∧ under.length ≤ limit ∧
      name ∈ under ∧ chain = under ++ [name]
  | .tooDeep depth limit' => depth = limit + 1 ∧ limit' = limit

namespace RenderError.Accounted

variable {limit : Nat} {active active' : List String} {e : RenderError}

theorem outside (h : e.Accounted limit active') (le : active <+: active') :
    e.Accounted limit active := by
  cases e with
  | evaluation error => trivial
  | cycle chain =>
    obtain ⟨under, name, inside, rest⟩ := h
    exact ⟨under, name, le.trans inside, rest⟩
  | tooDeep depth limit' => exact h

theorem enterTemplate {c : Context} {name : String} (h : c.Sound limit)
    (he : c.enterTemplate name = .error e) : e.Accounted limit c.active := by
  rcases Context.enterTemplate_eq_error_iff.1 he with ⟨known, rfl⟩ | ⟨-, full, rfl⟩
  · exact ⟨c.active, name, List.prefix_rfl, h.distinct, h.within, known, rfl⟩
  · -- As many are under way as may be, since more of them cannot be.
    rw [h.limited] at full ⊢
    have := h.within
    exact ⟨by omega, rfl⟩

end RenderError.Accounted

/-- In a sound context the action fails with errors that the context accounts for, and it keeps the
context. -/
structure Accounts (limit : Nat) {α : Type} (x : Action α) : Prop where
  accounted : ∀ s e t, s.context.Sound limit → x s = .failed e t →
    e.Accounted limit s.context.active
  keeps : Keeps x

namespace Accounts

variable {limit : Nat} {α β : Type} {x : Action α}

/-- An action that never fails has no errors to account for. -/
theorem of_not_failed (h : ∀ s e t, x s ≠ .failed e t) (keeps : Keeps x) : Accounts limit x :=
  ⟨fun s e t _ failed => absurd failed (h s e t), keeps⟩

theorem pure (a : α) : Accounts limit (Pure.pure a : Action α) :=
  of_not_failed (fun _ _ _ h => by cases h) (Restores.pure a).keeps

theorem evaluate (e : Expr) : Accounts limit (Action.evaluate e) := by
  refine ⟨?_, (Restores.evaluate e).keeps⟩
  intro s error t _ failed
  unfold Action.evaluate at failed
  cases he : e.eval s.context.find? with
  | ok value => rw [he] at failed; cases failed
  | error cause => rw [he] at failed; cases failed; trivial

theorem bind {f : α → Action β} (h : Accounts limit x) (k : ∀ a, Accounts limit (f a)) :
    Accounts limit (x >>= f) := by
  refine ⟨?_, h.keeps.bind fun a => (k a).keeps⟩
  intro s e t sound failed
  cases hx : x s with
  | done a u =>
    rw [bind_done hx] at failed
    have frame := h.keeps s u (by rw [hx]; rfl)
    have later := (k a).accounted u e t (sound.framed frame) failed
    rwa [frame.active] at later
  | failed e' u =>
    rw [bind_failed hx] at failed
    cases failed
    exact h.accounted s _ _ sound hx
  | exhausted => rw [bind_exhausted hx] at failed; cases failed

/-- In a temporary change that leaves the context sound, with the templates that were under way and
perhaps more. -/
theorem accounted_bracket {enter : Context → Context} {leave : Context → Context → Context}
    (h : Accounts limit x) {s t : Session} {e : RenderError}
    (sound : (enter s.context).Sound limit) (le : s.context.active <+: (enter s.context).active)
    (failed : Action.bracket enter leave x s = .failed e t) :
    e.Accounted limit s.context.active := by
  rw [bracket_eq] at failed
  cases hx : x { s with context := enter s.context } with
  | done a u => rw [hx] at failed; cases failed
  | failed e' u =>
    rw [hx] at failed
    cases failed
    exact (h.accounted _ e u sound hx).outside le
  | exhausted => rw [hx] at failed; cases failed

theorem inTemplate (name : String) (h : Accounts limit x) :
    Accounts limit (Action.inTemplate name x) := by
  refine ⟨?_, (h.keeps.inTemplate name).keeps⟩
  intro s e t sound failed
  unfold Action.inTemplate at failed
  cases he : s.context.enterTemplate name with
  | error e' =>
    rw [he] at failed
    cases failed
    exact .enterTemplate sound he
  | ok entered =>
    rw [he] at failed
    refine h.accounted_bracket ?_ ?_ failed
    · exact (sound.enterTemplate he).enterScope
    · obtain ⟨-, rfl⟩ := Context.of_enterTemplate he
      exact List.prefix_append _ _

theorem compositional (limit : Nat) :
    Compositional fun _ (x : Unit → Action _) => Accounts limit (x ()) where
  pure := pure
  bind := bind
  context := of_not_failed (fun _ _ _ h => by cases h) Restores.context.keeps
  write text := of_not_failed (fun _ _ _ h => by cases h) (Restores.write text).keeps
  notify notice := of_not_failed (fun _ _ _ h => by cases h) (Restores.notify notice).keeps
  evaluate := evaluate
  assign names value := of_not_failed (fun _ _ _ h => by cases h) (.assign names value)
  inScope h := ⟨fun _ _ _ sound failed =>
    h.accounted_bracket sound.enterScope List.prefix_rfl failed, h.keeps.inScope.keeps⟩
  isolated h := ⟨fun _ _ _ sound failed =>
    h.accounted_bracket sound.isolated List.prefix_rfl failed, (Restores.isolated _).keeps⟩
  withSupers levels h := ⟨fun _ _ _ sound failed =>
    h.accounted_bracket (sound.withSupers levels) List.prefix_rfl failed, h.keeps.withSupers levels⟩
  withRegistry registry h := ⟨fun s _ _ sound failed =>
    h.accounted_bracket (sound.withDispatch (s.context.dispatch ++ [registry])) List.prefix_rfl
      failed, h.keeps.withRegistry registry⟩
  inTemplate := inTemplate

/-- A render within any bound. -/
theorem jumpWithin (bound : Nat) (body : Body) : Accounts limit (Stencil.jumpWithin bound body) :=
  @Compositional.jumpWithin Unit _ (compositional limit)
    (fun _ => of_not_failed (fun _ _ _ h => by cases h) (jumpWithin_keeps 0 _)) bound body

end Accounts

/-! ## Operations -/

/-- Something to do with a context. What is rendered is rendered within a bound. -/
inductive Operation where
  | enterScope
  | exitScope
  | bind (name : String) (value : Value)
  | evaluate (e : Expr)
  | render (bound : Nat) (statement : Statement)
  | renderAll (bound : Nat) (body : Body)
  | renderTemplate (bound : Nat) (template : Template)
  | enterTemplate (name : String)
  | exitTemplate
  | replaceDispatch (registries : List Registry)
  | replaceSupers (levels : List Body)

def Operation.action : Operation → Action Unit
  | .enterScope => modify Context.enterScope
  | .exitScope => modify Context.exitScope
  | .bind name value => assign [name] value
  | .evaluate e => do discard (Action.evaluate e)
  | .render bound statement => do discard (statement.render bound)
  | .renderAll bound body => do discard (Stencil.renderAll bound body)
  | .renderTemplate bound template => template.render bound
  | .enterTemplate name => fun s =>
    match s.context.enterTemplate name with
    | .error e => .failed e s
    | .ok entered => .done () { s with context := entered }
  | .exitTemplate => modify Context.exitTemplate
  | .replaceDispatch registries => modify ({ · with dispatch := registries })
  | .replaceSupers levels => modify ({ · with supers := levels })

/-- The action leaves a sound context sound, and fails with errors that it accounts for. -/
def StaysSound (limit : Nat) (x : Action Unit) : Prop :=
  ∀ s, s.context.Sound limit →
    (∀ t, (x s).session? = some t → t.context.Sound limit) ∧
    ∀ e t, x s = .failed e t → e.Accounted limit s.context.active

namespace StaysSound

variable {limit : Nat}

theorem modify {f : Context → Context} (h : ∀ c : Context, c.Sound limit → (f c).Sound limit) :
    StaysSound limit (Action.modify f) := by
  intro s sound
  constructor
  · intro t ht
    cases ht
    exact h s.context sound
  · intro e t failed
    cases failed

end StaysSound

/-- A context in use, which may be a clone of a clone. -/
structure Machine where
  current : Context
  /-- For each clone in use, the latest first, the context to go back to. There is none for a clone
  that shares its chain, because what is done to that one is done to the context itself. -/
  suspended : List (Option Context)

namespace Machine

def start (library : Library) (globals : Scope) (settings : Settings) : Machine :=
  ⟨.start library globals settings, []⟩

/-- The context in use and those that wait for it. -/
def contexts (m : Machine) : List Context := m.current :: m.suspended.filterMap id

end Machine

inductive Move where
  | operate (operation : Operation)
  /-- Goes on with a clone of the context: one that shares its chain of scopes, or one that sees the
  globals only. -/
  | clone (shares : Bool)
  /-- Drops the clone. -/
  | release

namespace Machine

/-- The machine after a move and the error that the move returned; nothing at all where a render is
given up. -/
def step (m : Machine) : Move → Option (Machine × Option RenderError)
  | .operate operation =>
    match operation.action (.start m.current) with
    | .done _ t => some ({ m with current := t.context }, none)
    | .failed e t => some ({ m with current := t.context }, some e)
    | .exhausted => none
  | .clone true => some ({ m with suspended := none :: m.suspended }, none)
  | .clone false => some (⟨m.current.isolated, some m.current :: m.suspended⟩, none)
  | .release =>
    match m.suspended with
    | [] => some (m, none)
    | none :: rest => some ({ m with suspended := rest }, none)
    | some c :: rest => some (⟨c, rest⟩, none)

/-- The machine after these moves, whatever errors they return. -/
def run (m : Machine) : List Move → Option Machine
  | [] => some m
  | move :: rest =>
    match m.step move with
    | none => none
    | some (m', _) => m'.run rest

variable {limit : Nat} {m m' : Machine}

def Sound (limit : Nat) (m : Machine) : Prop := ∀ c ∈ m.contexts, c.Sound limit

theorem Sound.current (h : m.Sound limit) : m.current.Sound limit := h _ List.mem_cons_self

end Machine

end Stencil
