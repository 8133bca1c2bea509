import Stencil.Render.Bound

/-!
# `Stencil/Proofs/Limit.lean` — rendering without a bound

A statement about what happens *whenever rendering ends* is a statement about all bounds that are
large enough, and two renders that are compared need not be done within the same one. So the
bound is taken away here, once. `jumpUnbounded` renders a body as every large enough bound does, and
is given up where every bound is. It satisfies the equation that the bounded jumps only approach
from below (`renderAllWith_jumpUnbounded`):

> an unbounded jump renders the body, **with unbounded jumps**.

What is rendered with it ends exactly where some bound suffices, and in the same way
(`HasLimit.eq_iff`). It cannot be run, and no statement of a main result needs it.
-/

set_option autoImplicit false

namespace Stencil

open Stencil.Action

/-- Rendering ends from the session, within some bound, with the outcome. -/
def Ends {α : Type} (x : Nat → Action α) (s : Session) (o : Outcome α) : Prop :=
  o ≠ .exhausted ∧ ∃ bound, x bound s = o

open Classical in
/-- Renders a body within a bound that is large enough, and is given up if none is. -/
noncomputable def jumpUnbounded : Jump := fun body s =>
  if h : ∃ bound, jumpWithin bound body s ≠ .exhausted then jumpWithin h.choose body s
  else .exhausted

/-- The jumps of every bound, and the unbounded one. -/
noncomputable def jumpAt : Option Nat → Jump
  | none => jumpUnbounded
  | some bound => jumpWithin bound

/-! ## Families with a limit -/

/-- The bounded actions approach the unbounded one from below, and reach it wherever it ends. -/
structure HasLimit (α : Type) (x : Option Nat → Action α) : Prop where
  approximates : ∀ bound, Approximates (x (some bound)) (x none)
  reached : ∀ s, x none s ≠ .exhausted → ∃ bound, ∀ b, bound ≤ b → x (some b) s = x none s

namespace HasLimit

variable {α β : Type} {x : Option Nat → Action α}

theorem const (x : Action α) : HasLimit α fun _ => x :=
  ⟨fun _ => .refl x, fun _ _ => ⟨0, fun _ _ => rfl⟩⟩

/-- The unbounded action ends as some bounded one does. -/
theorem eq_iff (h : HasLimit α x) {s : Session} {o : Outcome α} (ends : o ≠ .exhausted) :
    x none s = o ↔ ∃ bound, x (some bound) s = o := by
  constructor
  · intro eq
    obtain ⟨bound, reached⟩ := h.reached s (by rw [eq]; exact ends)
    exact ⟨bound, by rw [reached bound (Nat.le_refl _), eq]⟩
  · rintro ⟨bound, eq⟩
    rcases h.approximates bound s with given | same
    · exact absurd (eq.symm.trans given) ends
    · rw [← same, eq]

theorem ends_iff (h : HasLimit α x) {s : Session} {o : Outcome α} :
    Ends (fun bound => x (some bound)) s o ↔ o ≠ .exhausted ∧ x none s = o := by
  unfold Ends
  constructor
  · rintro ⟨ends, eq⟩
    exact ⟨ends, (h.eq_iff ends).2 eq⟩
  · rintro ⟨ends, eq⟩
    exact ⟨ends, (h.eq_iff ends).1 eq⟩

/-- From any one session, all large enough bounds do what the unbounded action does. -/
theorem settles (h : HasLimit α x) (s : Session) :
    ∃ bound, ∀ b, bound ≤ b → x (some b) s = x none s := by
  by_cases ends : x none s = .exhausted
  · refine ⟨0, fun b _ => ?_⟩
    rcases h.approximates b s with given | same
    · rw [given, ends]
    · exact same
  · exact h.reached s ends

/-- What holds of two actions within every bound holds of them without one. -/
theorem lift {y : Option Nat → Action β} {s t : Session} {Q : Outcome α → Outcome β → Prop}
    (h : HasLimit α x) (k : HasLimit β y) (all : ∀ bound, Q (x (some bound) s) (y (some bound) t)) :
    Q (x none s) (y none t) := by
  -- Beyond the larger of the two bounds both have settled.
  obtain ⟨m, hm⟩ := h.settles s
  obtain ⟨n, hn⟩ := k.settles t
  have both := all (max m n)
  rwa [hm _ (Nat.le_max_left m n), hn _ (Nat.le_max_right m n)] at both

theorem bind {f : Option Nat → α → Action β} (h : HasLimit α x)
    (k : ∀ a, HasLimit β fun i => f i a) : HasLimit β fun i => x i >>= f i := by
  refine ⟨fun bound => .bind (h.approximates bound) fun a => (k a).approximates bound, ?_⟩
  intro s ends
  have first : x none s ≠ .exhausted := fun given => ends (by simp [Bind.bind, given])
  obtain ⟨m, hm⟩ := h.reached s first
  cases hx : x none s with
  | exhausted => exact absurd hx first
  | failed e t =>
    exact ⟨m, fun b le => by simp only [Bind.bind, hm b le, hx]⟩
  | done a t =>
    have second : f none a t ≠ .exhausted := by simpa only [Bind.bind, hx] using ends
    obtain ⟨n, hn⟩ := (k a).reached t second
    refine ⟨max m n, fun b le => ?_⟩
    have hb := hm b (Nat.le_trans (Nat.le_max_left m n) le)
    simp only [Bind.bind, hb, hx]
    exact hn b (Nat.le_trans (Nat.le_max_right m n) le)

theorem bracket (enter : Context → Context) (leave : Context → Context → Context)
    (h : HasLimit α x) : HasLimit α fun i => Action.bracket enter leave (x i) := by
  refine ⟨fun bound => .bracket enter leave (h.approximates bound), fun s ends => ?_⟩
  have inner : x none { s with context := enter s.context } ≠ .exhausted :=
    fun given => ends (by simp [Action.bracket, given])
  obtain ⟨bound, reached⟩ := h.reached _ inner
  exact ⟨bound, fun b le => by simp only [Action.bracket, reached b le]⟩

theorem inTemplate (name : String) (h : HasLimit α x) :
    HasLimit α fun i => Action.inTemplate name (x i) := by
  refine ⟨fun bound => .inTemplate name (h.approximates bound), fun s ends => ?_⟩
  simp only [Action.inTemplate] at ends ⊢
  cases he : s.context.enterTemplate name with
  | error e => exact ⟨0, fun _ _ => rfl⟩
  | ok entered =>
    rw [he] at ends
    exact (h.bracket (fun _ => entered.enterScope)
      fun _ c => c.exitScope.exitTemplate).reached s ends

theorem compositional : Compositional HasLimit where
  pure _ := const _
  bind := bind
  context := const _
  write _ := const _
  notify _ := const _
  evaluate _ := const _
  assign _ _ := const _
  inScope := bracket _ _
  isolated := bracket _ _
  withSupers _ := bracket _ _
  withRegistry _ := bracket _ _
  inTemplate := inTemplate

end HasLimit

/-! ## Jumps have a limit -/

theorem jumpUnbounded_of_ends {bound : Nat} {body : Body} {s : Session}
    (ends : jumpWithin bound body s ≠ .exhausted) :
    jumpUnbounded body s = jumpWithin bound body s := by
  have large : ∃ bound, jumpWithin bound body s ≠ .exhausted := ⟨bound, ends⟩
  unfold jumpUnbounded
  rw [dif_pos large]
  rcases Nat.le_total large.choose bound with le | le
  · exact (jumpWithin_approximates le body s).resolve_left large.choose_spec
  · exact ((jumpWithin_approximates le body s).resolve_left ends).symm

theorem jumpAt_hasLimit (body : Body) : HasLimit Flow fun i => jumpAt i body := by
  constructor
  · intro bound s
    by_cases given : jumpWithin bound body s = .exhausted
    · exact .inl given
    · exact .inr (jumpUnbounded_of_ends given).symm
  · intro s ends
    by_cases large : ∃ bound, jumpWithin bound body s ≠ .exhausted
    · obtain ⟨bound, enough⟩ := large
      refine ⟨bound, fun b le => ?_⟩
      have same := (jumpWithin_approximates le body s).resolve_left enough
      exact (jumpUnbounded_of_ends (by rw [← same]; exact enough)).symm
    · exact absurd (dif_neg large) ends

theorem Statement.render_hasLimit (statement : Statement) :
    HasLimit Flow fun i => statement.renderWith (jumpAt i) :=
  HasLimit.compositional.renderWith jumpAt_hasLimit statement

theorem renderAll_hasLimit (body : Body) : HasLimit Flow fun i => renderAllWith (jumpAt i) body :=
  HasLimit.compositional.renderAllWith jumpAt_hasLimit body

theorem Template.render_hasLimit (template : Template) :
    HasLimit Unit fun i => renderTemplate (jumpAt i) template :=
  HasLimit.compositional.renderTemplate jumpAt_hasLimit template

/-- An unbounded jump is to render the body with unbounded jumps. -/
theorem renderAllWith_jumpUnbounded (body : Body) :
    renderAllWith jumpUnbounded body = jumpUnbounded body := by
  funext s
  have limit := renderAll_hasLimit body
  have jumps := jumpAt_hasLimit body
  -- One more jump than a bound allows is the body within that bound, which links the two limits.
  have succ (bound : Nat) : jumpAt (some (bound + 1)) body s =
      renderAllWith (jumpAt (some bound)) body s := rfl
  by_cases ends : renderAllWith jumpUnbounded body s = .exhausted
  · by_cases ends' : jumpUnbounded body s = .exhausted
    · rw [ends, ends']
    · obtain ⟨bound, same⟩ := jumps.reached s ends'
      have same := same (bound + 1) (Nat.le_succ bound)
      rcases limit.approximates bound s with given | eq
      · exact absurd (same.symm.trans ((succ bound).trans given)) ends'
      · exact eq.symm.trans ((succ bound).symm.trans same)
  · obtain ⟨bound, same⟩ := limit.reached s ends
    have eq := (succ bound).trans (same bound (Nat.le_refl bound))
    rcases jumps.approximates (bound + 1) s with given | eq'
    · exact absurd (eq.symm.trans given) ends
    · exact eq.symm.trans eq'

end Stencil
