import Stencil.Proofs.Filtering
import Stencil.Proofs.Splicing

/-!
# `Stencil/Proofs/Conditions.lean` — a condition with branches, and conditions in one another

A condition has a guard and a body of its own and then any number of branches, each with a guard
or, as a plain `else`, without one. Its own guard and body are treated here as the first of its
branches. Guards are evaluated one after the other, all of them in the session in which the
condition begins, until one holds or fails. So the language could do with less:

> **a condition with branches is one with a single plain `else`, and in it the condition that begins
> with the next branch**

(`nestBranches`), down to the last branch or the first plain `else`. It also shows what a chain of
branches comes to. The branches before the one that decides are passed over, whatever their bodies
are, and nothing is looked at of those after it (`conditions_nest`).
-/

set_option autoImplicit false

namespace Stencil

open Stencil.Action

/-! ## The branch that decides -/

/-- Whether a branch is to be rendered when it is reached. -/
def Branch.isEligible? (c : Context) (branch : Branch) : Except EvalError Bool :=
  match branch.guard with
  | none => .ok true
  | some guard => do return (← guard.eval c.find?).isTruthy

namespace Context

/-- The guards of all these branches are false. -/
def PassesOver (c : Context) (branches : List Branch) : Prop :=
  ∀ branch ∈ branches, branch.isEligible? c = .ok false

/-- The branch is reached because those before it are passed over. -/
structure Reaches (c : Context) (branches before : List Branch) (branch : Branch)
    (after : List Branch) : Prop where
  split : branches = before ++ branch :: after
  passed : c.PassesOver before

variable {c : Context}

/-- Either all branches are passed over, or there is a first one that is not. -/
theorem passesOver_or_reaches (c : Context) (branches : List Branch) :
    c.PassesOver branches ∨ ∃ before branch after, c.Reaches branches before branch after ∧
      branch.isEligible? c ≠ .ok false := by
  induction branches with
  | nil => exact .inl (List.forall_mem_nil _)
  | cons branch rest ih =>
    by_cases here : branch.isEligible? c = .ok false
    · rcases ih with passed | ⟨before, first, after, ⟨split, passed⟩, decides⟩
      · exact .inl (List.forall_mem_cons.2 ⟨here, passed⟩)
      · have further : c.PassesOver (branch :: before) := List.forall_mem_cons.2 ⟨here, passed⟩
        exact .inr ⟨_, first, after, ⟨congrArg (branch :: ·) split, further⟩, decides⟩
    · exact .inr ⟨[], branch, rest, ⟨rfl, List.forall_mem_nil _⟩, here⟩

/-- Whether branches are passed over is a matter of their guards. -/
theorem PassesOver.of_guards {branches branches' : List Branch} (passed : c.PassesOver branches)
    (guards : branches'.map (·.guard) = branches.map (·.guard)) : c.PassesOver branches' := by
  intro branch mem
  have known : branch.guard ∈ branches.map (·.guard) := guards ▸ List.mem_map_of_mem mem
  obtain ⟨other, mem', same⟩ := List.mem_map.1 known
  have verdict := passed other mem'
  unfold Branch.isEligible? at verdict ⊢
  rwa [← same]

end Context

section First

variable {jump : Jump} {s : Session}

theorem renderFirstWith_cons (branch : Branch) (rest : List Branch) :
    renderFirstWith jump (branch :: rest) s =
      match branch.isEligible? s.context with
      | .ok true => renderAllWith jump branch.body s
      | .ok false => renderFirstWith jump rest s
      | .error e => .failed (.evaluation e) s := by
  obtain ⟨guard, body⟩ := branch
  cases guard with
  | none => rfl
  | some guard =>
    simp only [renderFirstWith, Branch.isEligible?, Bind.bind, Action.evaluate_eq]
    cases guard.eval s.context.find? with
    | error e => rfl
    | ok value =>
      simp only [Except.bind, Outcome.ofEval, Pure.pure, Except.pure]
      cases value.isTruthy <;> rfl

theorem renderFirstWith_append {before : List Branch} (passed : s.context.PassesOver before)
    (rest : List Branch) :
    renderFirstWith jump (before ++ rest) s = renderFirstWith jump rest s := by
  induction before with
  | nil => rfl
  | cons branch before ih =>
    obtain ⟨here, others⟩ := List.forall_mem_cons.1 passed
    rw [List.cons_append, renderFirstWith_cons, here]
    exact ih others

theorem renderFirstWith_of_passesOver {branches : List Branch}
    (passed : s.context.PassesOver branches) :
    renderFirstWith jump branches s = .done .proceed s := by
  have none : renderFirstWith jump (branches ++ []) s = renderFirstWith jump [] s :=
    renderFirstWith_append passed []
  rw [List.append_nil] at none
  exact none

section Reached

variable {branches before after : List Branch} {branch : Branch}

theorem renderFirstWith_of_eligible (reached : s.context.Reaches branches before branch after)
    (eligible : branch.isEligible? s.context = .ok true) :
    renderFirstWith jump branches s = renderAllWith jump branch.body s := by
  rw [reached.split, renderFirstWith_append reached.passed, renderFirstWith_cons, eligible]

theorem renderFirstWith_of_error (reached : s.context.Reaches branches before branch after)
    {e : EvalError} (fails : branch.isEligible? s.context = .error e) :
    renderFirstWith jump branches s = .failed (.evaluation e) s := by
  rw [reached.split, renderFirstWith_append reached.passed, renderFirstWith_cons, fails]

end Reached

/-- A condition is its branches, with itself as the first of them. -/
theorem cond_eq_renderFirstWith (jump : Jump) (guard : Expr) (body : Body)
    (branches : List Branch) : (Statement.cond guard body branches).renderWith jump =
      renderFirstWith jump (⟨some guard, body⟩ :: branches) := rfl

end First

/-! ## Branches inside one another -/

/-- The branches as at most one, a plain `else` that holds the next of them with the rest nested
in it. -/
def nestBranches : List Branch → List Branch
  | [] => []
  | ⟨none, body⟩ :: _ => [⟨none, body⟩]
  | ⟨some guard, body⟩ :: rest => [⟨none, [.cond guard body (nestBranches rest)]⟩]

theorem renderFirstWith_nestBranches (jump : Jump) (branches : List Branch) :
    renderFirstWith jump (nestBranches branches) = renderFirstWith jump branches := by
  induction branches with
  | nil => rfl
  | cons branch rest ih =>
    obtain ⟨guard, body⟩ := branch
    cases guard with
    | none => rfl
    | some guard =>
      funext s
      calc renderFirstWith jump (nestBranches (⟨some guard, body⟩ :: rest)) s
        _ = renderAllWith jump [.cond guard body (nestBranches rest)] s := rfl
        _ = renderFirstWith jump (⟨some guard, body⟩ :: nestBranches rest) s := by
          rw [renderAllWith_singleton, cond_eq_renderFirstWith]
        _ = renderFirstWith jump (⟨some guard, body⟩ :: rest) s := by
          rw [renderFirstWith_cons, renderFirstWith_cons, ih]

theorem cond_nestBranches (jump : Jump) (guard : Expr) (body : Body) (branches : List Branch) :
    (Statement.cond guard body branches).renderWith jump =
      (Statement.cond guard body (nestBranches branches)).renderWith jump := by
  funext s
  rw [cond_eq_renderFirstWith, cond_eq_renderFirstWith, renderFirstWith_cons, renderFirstWith_cons,
    renderFirstWith_nestBranches]

/-- **Branches are conditions in one another.** A condition with branches is the one with a plain
`else` in their place, in which the next branch is a condition with the rest nested in it. The first
branch that is not passed over decides. If it is eligible the whole is its body, rendered where the
condition is, and stays so with other bodies before it and other branches after it. If its guard
fails, so does the whole, with nothing written. -/
theorem conditions_nest (bound : Nat) (guard : Expr) (body : Body) (branches : List Branch) :
    let whole := Statement.cond guard body branches
    let all := ⟨some guard, body⟩ :: branches
    whole.render bound = (Statement.cond guard body (nestBranches branches)).render bound ∧
    ∀ s : Session,
      (s.context.PassesOver all → whole.render bound s = .done .proceed s) ∧
      (∀ before branch after, s.context.Reaches all before branch after →
        (branch.isEligible? s.context = .ok true →
          whole.render bound s = renderAll bound branch.body s ∧
          ∀ guard' body' branches' before' after',
            ⟨some guard', body'⟩ :: branches' = before' ++ branch :: after' →
            before'.map (·.guard) = before.map (·.guard) →
            (Statement.cond guard' body' branches').render bound s = whole.render bound s) ∧
        ∀ e, branch.isEligible? s.context = .error e →
          whole.render bound s = .failed (.evaluation e) s) ∧
      (s.context.PassesOver all ∨ ∃ before branch after,
        s.context.Reaches all before branch after ∧ branch.isEligible? s.context ≠ .ok false) := by
  intro whole all
  refine ⟨cond_nestBranches (jumpWithin bound) guard body branches, fun s => ⟨?_, ?_, ?_⟩⟩
  · exact renderFirstWith_of_passesOver
  · intro before branch after reached
    refine ⟨fun eligible => ?_, fun e fails => renderFirstWith_of_error reached fails⟩
    have decided : whole.render bound s = renderAll bound branch.body s :=
      renderFirstWith_of_eligible reached eligible
    refine ⟨decided, fun guard' body' branches' before' after' split guards => ?_⟩
    rw [decided]
    exact renderFirstWith_of_eligible ⟨split, reached.passed.of_guards guards⟩ eligible
  · exact s.context.passesOver_or_reaches all

/-- A plain `else` in the middle binds a name and delegates. The guard after it would fail, and does
so where it comes first. -/
theorem conditions_nest_around_else :
    let no : Expr := .const (.bool false)
    let fails : Expr := .binary .add (.const (.int 1)) (.const (.string "x"))
    let other : Branch := ⟨none, [.text "A", .assign ["x"] (some (.const (.int 1))),
      .extend "nowhere" true []]⟩
    let early : Statement := .cond no [.text "B"] [⟨some no, []⟩, other, ⟨some fails, []⟩]
    let late : Statement := .cond no [.text "B"] [⟨some fails, []⟩, other]
    let s := Session.start (.start .empty .empty {})
    early.render 0 s = renderAll 0 other.body s ∧
      (Statement.cond no [] [⟨some no, [.text "C"]⟩, other, ⟨none, []⟩]).render 0 s =
        early.render 0 s ∧
      (early.render 0 s).session?.map (·.output) = some "A" ∧
      late.render 0 s = .failed (.evaluation (.notAddable (.int 1) (.string "x"))) s ∧
      (Statement.cond no [.text "B"] []).render 0 s = .done .proceed s := by
  intro no fails other early late s
  have passed (body : Body) : Branch.isEligible? s.context ⟨some no, body⟩ = .ok false := rfl
  have first := conditions_nest 0 no [.text "B"] [⟨some no, []⟩, other, ⟨some fails, []⟩]
  have reached : s.context.Reaches [⟨some no, [.text "B"]⟩, ⟨some no, []⟩, other, ⟨some fails, []⟩]
      [⟨some no, [.text "B"]⟩, ⟨some no, []⟩] other [⟨some fails, []⟩] :=
    ⟨rfl, by simp [Context.PassesOver, passed]⟩
  obtain ⟨decided, replaced⟩ := ((first.2 s).2.1 _ _ _ reached).1 rfl
  have second := conditions_nest 0 no [.text "B"] [⟨some fails, []⟩, other]
  have reached' : s.context.Reaches [⟨some no, [.text "B"]⟩, ⟨some fails, []⟩, other]
      [⟨some no, [.text "B"]⟩] ⟨some fails, []⟩ [other] :=
    ⟨rfl, by simp [Context.PassesOver, passed]⟩
  have third := conditions_nest 0 no [.text "B"] []
  refine ⟨decided, ?_, by decide +kernel, ?_, ?_⟩
  · exact replaced no [] [⟨some no, [.text "C"]⟩, other, ⟨none, []⟩]
      [⟨some no, []⟩, ⟨some no, [.text "C"]⟩] [⟨none, []⟩] rfl rfl
  · exact ((second.2 s).2.1 _ _ _ reached').2 _ rfl
  · exact (third.2 s).1 (by simp [Context.PassesOver, passed])

end Stencil
