import Stencil.Proofs.History

/-!
# `Stencil/Proofs/Simulation.lean` — two renders side by side

To compare two renders is to find a relation between their sessions that every step keeps. The
steps are then gone through in parallel: both renders end in the same way, in related sessions,
or both are given up. Neither can get ahead of the other, which is why unbounded jumps
(`Stencil/Proofs/Limit.lean`) are at home here: bodies reached by a different number of jumps can
still be compared.

A relation that ordinary statements keep needs no argument about loops and conditions of its own
(`Stencil/Render/Compositional.lean`); the statements of inheritance are what each comparison is
about, and are left to it.
-/

set_option autoImplicit false

namespace Stencil

open Stencil.Action

/-- The same has been written and remarked on. -/
structure SameWriting (s t : Session) : Prop where
  output : t.output = s.output
  log : t.log = s.log

/-- The same end, in related sessions. -/
inductive Outcome.Related {α : Type} (R : Session → Session → Prop) : Outcome α → Outcome α → Prop
  | done (a : α) {s t : Session} (h : R s t) : Related R (done a s) (done a t)
  | failed (e : RenderError) {s t : Session} (h : R s t) : Related R (failed e s) (failed e t)
  | exhausted : Related R exhausted exhausted

/-- From related sessions the actions come to the same end, in related sessions. -/
def Related {α : Type} (R : Session → Session → Prop) (x y : Action α) : Prop :=
  ∀ s t, R s t → (x s).Related R (y t)

namespace Outcome.Related

variable {α : Type} {R Q : Session → Session → Prop} {o o' : Outcome α}

theorem mapSession {f g : Session → Session} (h : o.Related Q o')
    (out : ∀ s t, Q s t → R (f s) (g t)) : (o.mapSession f).Related R (o'.mapSession g) := by
  cases h with
  | done a h => exact .done a (out _ _ h)
  | failed e h => exact .failed e (out _ _ h)
  | exhausted => exact .exhausted

/-- What is known of each session by itself can be added to what relates them. -/
theorem imp (h : o.Related R o')
    (k : ∀ s t, o.session? = some s → o'.session? = some t → R s t → Q s t) :
    o.Related Q o' := by
  cases h with
  | done a h => exact .done a (k _ _ rfl rfl h)
  | failed e h => exact .failed e (k _ _ rfl rfl h)
  | exhausted => exact .exhausted

/-- Two outcomes that are related to one and the same are related to each other. -/
theorem join {R' : Session → Session → Prop} {o'' : Outcome α} (h : o.Related R o'')
    (k : o'.Related R' o'') (both : ∀ s t u, R s u → R' t u → Q s t) : o.Related Q o' := by
  cases h with
  | done a h => cases k with | done _ k => exact .done a (both _ _ _ h k)
  | failed e h => cases k with | failed _ k => exact .failed e (both _ _ _ h k)
  | exhausted => cases k with | exhausted => exact .exhausted

theorem session? (h : o.Related R o') {s : Session} (hs : o.session? = some s) :
    ∃ t, o'.session? = some t ∧ R s t := by
  cases h with
  | done a h => cases hs; exact ⟨_, rfl, h⟩
  | failed e h => cases hs; exact ⟨_, rfl, h⟩
  | exhausted => cases hs

theorem of_done {a : α} {s : Session} (h : (Outcome.done a s).Related R o') :
    ∃ t, o' = .done a t ∧ R s t := by
  cases h with
  | done _ h => exact ⟨_, rfl, h⟩

theorem of_failed {e : RenderError} {s : Session} (h : (Outcome.failed e s).Related R o') :
    ∃ t, o' = .failed e t ∧ R s t := by
  cases h with
  | failed _ h => exact ⟨_, rfl, h⟩

/-- An outcome that is seen to be done, and in what session, brings the other one with it. -/
theorem of_finished {β : Type} {look : Session → β} {b : β} (h : o.Related R o')
    (finished : o.error?.isNone) (seen : o.session?.map look = some b) :
    ∃ a s t, o = .done a s ∧ o' = .done a t ∧ look s = b ∧ R s t := by
  cases h with
  | done a h => exact ⟨a, _, _, rfl, rfl, Option.some.inj seen, h⟩
  | failed e h => cases finished
  | exhausted => cases seen

theorem exhausted_iff (h : o.Related R o') : o = .exhausted ↔ o' = .exhausted := by
  cases h <;> simp

end Outcome.Related

namespace Related

variable {α β : Type} {R Q : Session → Session → Prop} {x y : Action α}

theorem pure (a : α) : Related R (Pure.pure a : Action α) (Pure.pure a) :=
  fun _ _ h => .done a h

theorem bind {f g : α → Action β} (h : Related R x y) (k : ∀ a, Related R (f a) (g a)) :
    Related R (x >>= f) (y >>= g) := by
  intro s t hst
  have first := h s t hst
  simp only [Bind.bind]
  generalize x s = o at first ⊢
  generalize y t = o' at first ⊢
  cases first with
  | done a huv => exact k a _ _ huv
  | failed e huv => exact .failed e huv
  | exhausted => exact .exhausted

/-- Inside a temporary change another relation may hold than outside of it. -/
theorem bracket {enter enter' : Context → Context} {leave leave' : Context → Context → Context}
    (into : ∀ s t, R s t →
      Q { s with context := enter s.context } { t with context := enter' t.context })
    (out : ∀ s t u v, R s t → Q u v →
      R { u with context := leave s.context u.context }
        { v with context := leave' t.context v.context })
    (h : Related Q x y) :
    Related R (Action.bracket enter leave x) (Action.bracket enter' leave' y) := by
  intro s t hst
  rw [bracket_eq, bracket_eq]
  exact (h _ _ (into s t hst)).mapSession fun u v huv => out s t u v hst huv

/-- A temporary change that only the first of the two renders makes. -/
theorem bracket_left {enter : Context → Context} {leave : Context → Context → Context}
    (into : ∀ s t, R s t → Q { s with context := enter s.context } t)
    (out : ∀ s t u v, R s t → Q u v → R { u with context := leave s.context u.context } v)
    (h : Related Q x y) : Related R (Action.bracket enter leave x) y := by
  intro s t hst
  rw [bracket_eq]
  have outside := (h _ _ (into s t hst)).mapSession (R := R) (g := id) fun u v huv =>
    out s t u v hst huv
  rwa [Outcome.mapSession_id] at outside

end Related

/-- Renders that are related without a bound end in related outcomes within bounds of their own. -/
theorem HasLimit.ends_related {α : Type} {R : Session → Session → Prop}
    {x y : Option Nat → Action α} {s t : Session} (h : HasLimit α x) (k : HasLimit α y)
    (related : (x none s).Related R (y none t)) :
    (∀ o, Ends (fun bound => x (some bound)) s o →
      ∃ o', Ends (fun bound => y (some bound)) t o' ∧ o.Related R o') ∧
    (∀ o', Ends (fun bound => y (some bound)) t o' →
      ∃ o, Ends (fun bound => x (some bound)) s o ∧ o.Related R o') := by
  constructor
  · intro o ends
    obtain ⟨large, rfl⟩ := h.ends_iff.1 ends
    exact ⟨_, k.ends_iff.2 ⟨fun given => large (related.exhausted_iff.2 given), rfl⟩, related⟩
  · intro o' ends
    obtain ⟨large, rfl⟩ := k.ends_iff.1 ends
    exact ⟨_, h.ends_iff.2 ⟨fun given => large (related.exhausted_iff.1 given), rfl⟩, related⟩

/-! ## Relations that ordinary statements keep -/

/-- A relation between two actions that the effects of statements other than those of inheritance
keep, as far as only admitted expressions are evaluated. -/
abbrev OrdinaryPair (admits : Expr → Prop) (P : ∀ α : Type, Action α → Action α → Prop) : Prop :=
  OrdinaryOn admits fun α (x : Bool → Action α) => P α (x false) (x true)

namespace OrdinaryPair

variable {admits : Expr → Prop} {P : ∀ α : Type, Action α → Action α → Prop}
  (hP : OrdinaryPair admits P) {jump jump' : Jump}
include hP

theorem text (s : String) :
    P Flow ((Statement.text s).renderWith jump) ((Statement.text s).renderWith jump') := by
  have both := @OrdinaryOn.text _ _ _ hP (Bool.rec jump jump') s
  exact both

theorem output {value : Expr} (hv : admits value) :
    P Flow ((Statement.output value).renderWith jump)
      ((Statement.output value).renderWith jump') := by
  have both := @OrdinaryOn.output _ _ _ hP (Bool.rec jump jump') value hv
  exact both

theorem assignment (targets : List String) {value : Option Expr} (hv : ∀ e ∈ value, admits e) :
    P Flow ((Statement.assign targets value).renderWith jump)
      ((Statement.assign targets value).renderWith jump') := by
  have both := @OrdinaryOn.assignment _ _ _ hP (Bool.rec jump jump') targets value hv
  exact both

theorem loop (vars : List String) {source : Expr} (hs : admits source) {filter : Option Expr}
    (hf : ∀ e ∈ filter, admits e) {body body' otherwise otherwise' : Body}
    (hbody : P Flow (renderAllWith jump body) (renderAllWith jump' body'))
    (hotherwise : P Flow (renderAllWith jump otherwise) (renderAllWith jump' otherwise')) :
    P Flow ((Statement.loop vars source filter body otherwise).renderWith jump)
      ((Statement.loop vars source filter body' otherwise').renderWith jump') := by
  have both := @OrdinaryOn.loop _ _ _ hP (Bool.rec jump jump') vars source hs filter hf
    (Bool.rec body body') (Bool.rec otherwise otherwise') hbody hotherwise
  exact both

theorem cond {guard : Expr} (hg : admits guard) {body body' : Body}
    {branches branches' : List Branch}
    (hbody : P Flow (renderAllWith jump body) (renderAllWith jump' body'))
    (hbranches : P Flow (renderFirstWith jump branches) (renderFirstWith jump' branches')) :
    P Flow ((Statement.cond guard body branches).renderWith jump)
      ((Statement.cond guard body' branches').renderWith jump') := by
  have both := @OrdinaryOn.cond _ _ _ hP (Bool.rec jump jump') guard hg (Bool.rec body body')
    (Bool.rec branches branches') hbody hbranches
  exact both

theorem block (name : String) {body body' : Body}
    (hbody : P Flow (renderAllWith jump body) (renderAllWith jump' body')) :
    P Flow ((Statement.block name body).renderWith jump)
      ((Statement.block name body').renderWith jump') := by
  have both := @OrdinaryOn.block _ _ _ hP (Bool.rec jump jump') name (Bool.rec body body') hbody
  exact both

theorem branch {guard : Expr} (hg : admits guard) {body body' : Body}
    {branches branches' : List Branch}
    (hbody : P Flow (renderAllWith jump body) (renderAllWith jump' body'))
    (hbranches : P Flow (renderFirstWith jump branches) (renderFirstWith jump' branches')) :
    P Flow (renderFirstWith jump (⟨some guard, body⟩ :: branches))
      (renderFirstWith jump' (⟨some guard, body'⟩ :: branches')) := by
  have both := @OrdinaryOn.branch _ _ _ hP (Bool.rec jump jump') guard hg (Bool.rec body body')
    (Bool.rec branches branches') hbody hbranches
  exact both

theorem cons {statement statement' : Statement} {rest rest' : Body}
    (hfirst : P Flow (statement.renderWith jump) (statement'.renderWith jump'))
    (hrest : P Flow (renderAllWith jump rest) (renderAllWith jump' rest')) :
    P Flow (renderAllWith jump (statement :: rest))
      (renderAllWith jump' (statement' :: rest')) := by
  have both := @OrdinaryOn.cons _ _ _ hP (Bool.rec jump jump') (Bool.rec statement statement')
    (Bool.rec rest rest') hfirst hrest
  exact both

end OrdinaryPair

/-- The relation is kept by the effects of statements other than those of inheritance. -/
abbrev KeptByOrdinary (R : Session → Session → Prop) : Prop :=
  Ordinary fun _ (x : Bool → Action _) => Related R (x false) (x true)

theorem KeptByOrdinary.pair {R : Session → Session → Prop} (hR : KeptByOrdinary R) :
    OrdinaryPair (fun _ => True) fun _ => Related R := Ordinary.on hR

end Stencil
