import Stencil.Proofs.Parts

/-!
# `Stencil/Proofs/Names.lean` — the names that expressions and statements mention

An expression sees a render through the names that occur in it and through nothing else. So it has
the same value, or the same error, under any two lookups that agree on those
(`Expr.eval_congr`). This is the only fact about expressions that comparing two renders needs.
-/

set_option autoImplicit false

namespace Stencil

namespace Expr

mutual

/-- The names that occur in an expression. -/
def names : Expr → List String
  | .const _ => []
  | .var name => [name]
  | .field object _ => object.names
  | .not operand => operand.names
  | .negate operand => operand.names
  | .binary _ l r => l.names ++ r.names
  | .and l r => l.names ++ r.names
  | .or l r => l.names ++ r.names
  | .list items => namesAll items
  | .isDefined subject => subject.names
termination_by structural e => e

def namesAll : List Expr → List String
  | [] => []
  | e :: rest => e.names ++ namesAll rest
termination_by structural es => es

end

variable {f g : String → Option Value}

/-- The two lookups agree on these names. -/
abbrev AgreeOn (f g : String → Option Value) (names : List String) : Prop :=
  ∀ name ∈ names, f name = g name

theorem AgreeOn.left {names names' : List String} (h : AgreeOn f g (names ++ names')) :
    AgreeOn f g names := fun name mem => h name (List.mem_append_left _ mem)

theorem AgreeOn.right {names names' : List String} (h : AgreeOn f g (names ++ names')) :
    AgreeOn f g names' := fun name mem => h name (List.mem_append_right _ mem)

mutual

/-- An expression has the same value under lookups that agree on its names. -/
theorem eval_congr : ∀ e : Expr, AgreeOn f g e.names → e.eval f = e.eval g
  | .const _, _ => rfl
  | .var name, h => by
    simp only [eval]
    rw [h name (List.mem_singleton_self name)]
  | .field object name, h => by
    simp only [eval]
    rw [eval_congr object h]
  | .not operand, h => by
    simp only [eval]
    rw [eval_congr operand h]
  | .negate operand, h => by
    simp only [eval]
    rw [eval_congr operand h]
  | .binary op l r, h => by
    simp only [eval]
    rw [eval_congr l h.left, eval_congr r h.right]
  | .and l r, h => by
    simp only [eval]
    rw [eval_congr l h.left, eval_congr r h.right]
  | .or l r, h => by
    simp only [eval]
    rw [eval_congr l h.left, eval_congr r h.right]
  | .list items, h => by
    simp only [eval]
    rw [evalAll_congr items h]
  | .isDefined subject, h => by
    simp only [eval]
    rw [isBound_congr subject h]
termination_by structural e => e

theorem isBound_congr : ∀ e : Expr, AgreeOn f g e.names → e.isBound f = e.isBound g
  | .var name, h => by
    simp only [isBound]
    rw [h name (List.mem_singleton_self name)]
  | .field object name, h => by
    simp only [isBound]
    rw [isBound_congr object h, eval_congr object h]
  | .const _, _ => rfl
  | .not _, _ => rfl
  | .negate _, _ => rfl
  | .binary _ _ _, _ => rfl
  | .and _ _, _ => rfl
  | .or _ _, _ => rfl
  | .list _, _ => rfl
  | .isDefined _, _ => rfl
termination_by structural e => e

theorem evalAll_congr : ∀ es : List Expr, AgreeOn f g (namesAll es) → evalAll f es = evalAll g es
  | [], _ => rfl
  | e :: rest, h => by
    simp only [evalAll]
    rw [eval_congr e h.left, evalAll_congr rest h.right]
termination_by structural es => es

end

end Expr

/-! ## Statements -/

/-- The expressions of a statement itself, those of statements in it left out. -/
def Statement.exprs : Statement → List Expr
  | .output value => [value]
  | .loop _ source filter _ _ => source :: filter.toList
  | .cond guard _ branches => guard :: branches.filterMap (·.guard)
  | .assign _ value => value.toList
  | .text _ | .block _ _ | .slot _ _ _ | .extend _ _ _ | .super => []

/-- The name occurs in an expression of one of the statements. -/
def Mentioned (statements : List Statement) (name : String) : Prop :=
  ∃ statement ∈ statements, ∃ e ∈ statement.exprs, name ∈ e.names

/-- All names that occur in the statements are of a certain kind. -/
def MentionsOnly (visible : String → Prop) (statements : List Statement) : Prop :=
  ∀ name, Mentioned statements name → visible name

namespace MentionsOnly

variable {visible : String → Prop} {p q : List Statement} {statement : Statement}

theorem mono (h : MentionsOnly visible q) (sub : p ⊆ q) : MentionsOnly visible p := by
  rintro name ⟨statement, mem, e, he, occurs⟩
  exact h name ⟨statement, sub mem, e, he, occurs⟩

theorem left (h : MentionsOnly visible (p ++ q)) : MentionsOnly visible p :=
  h.mono (List.subset_append_left p q)

theorem right (h : MentionsOnly visible (p ++ q)) : MentionsOnly visible q :=
  h.mono (List.subset_append_right p q)

theorem tail (h : MentionsOnly visible (statement :: p)) : MentionsOnly visible p :=
  h.mono (List.subset_cons_self statement p)

theorem expr (h : MentionsOnly visible (statement :: p)) {e : Expr} (he : e ∈ statement.exprs) :
    ∀ name ∈ e.names, visible name :=
  fun name occurs => h name ⟨statement, List.mem_cons_self, e, he, occurs⟩

end MentionsOnly

end Stencil
