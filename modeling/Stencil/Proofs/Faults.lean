import Stencil.Proofs.Operands

/-!
# `Stencil/Proofs/Faults.lean` — where an evaluation fails

`Stencil/Proofs/Operands.lean` says which applications of an operator fail. This file says which of
them an evaluation comes to. `Expr.applications` lists them, each with the operands it has, in the
order in which they are made: an operand before the operator, a left operand before the right one.
What does not happen is not in the list, be it because something before it failed or because `and`
or `or` was decided by its left side.

> **the first application in the list that fails is the error of the evaluation**, and if none does
> the evaluation has a value.

So what the list leaves out does not matter, and `Expr.SameWhereReached` is that in terms of the
expression: two that differ only in parts the evaluation does not get to have the same result.

The list takes its operands from `eval` itself. It is no second evaluator that could disagree with
the first; what is to be shown is that `eval` fails nowhere else.
-/

set_option autoImplicit false

namespace Stencil

/-! ## What is reached -/

/-- The applications that follow a computation, which are none when it has failed. -/
def onResult {α : Type} (x : Except EvalError α) (next : α → List Application) :
    List Application :=
  match x with
  | .ok a => next a
  | .error _ => []

namespace Expr

variable (find? : String → Option Value)

mutual

/-- The applications that an evaluation comes to, in the order in which it does. -/
def applications : Expr → List Application
  | .const _ | .var _ => []
  | .field object _ => object.applications
  | .not operand => operand.applications ++ onResult (operand.eval find?) fun v => [.not v]
  | .negate operand => operand.applications ++ onResult (operand.eval find?) fun v => [.negate v]
  | .binary op l r =>
    l.applications ++ onResult (l.eval find?) fun a =>
      r.applications ++ onResult (r.eval find?) fun b => [.binary op a b]
  | .and l r =>
    l.applications ++ onResult (l.eval find?) fun v =>
      if v.isTruthy then r.applications else []
  | .or l r =>
    l.applications ++ onResult (l.eval find?) fun v =>
      if v.isTruthy then [] else r.applications
  | .list items => applicationsAll items
  | .isDefined subject => subject.applicationsToBind
termination_by structural e => e

/-- The applications that the question whether the expression is bound comes to. Only the object of
a field is evaluated for it, and that only if the object is bound itself. -/
def applicationsToBind : Expr → List Application
  | .field object _ =>
    object.applicationsToBind ++ onResult (object.isBound find?) fun bound =>
      if bound then object.applications else []
  | _ => []
termination_by structural e => e

def applicationsAll : List Expr → List Application
  | [] => []
  | e :: rest => e.applications ++ onResult (e.eval find?) fun _ => applicationsAll rest
termination_by structural es => es

end

end Expr

/-! ## The list explains the result -/

/-- The applications explain how a computation has ended. It has a result and so has each of
them, or the last of them, and none before it, has failed with the error of the computation. -/
inductive Explains {α : Type} : List Application → Except EvalError α → Prop where
  | ok {applications : List Application} {a : α}
    (sound : ∀ b ∈ applications, ∃ v, b.result = .ok v) : Explains applications (.ok a)
  | error {before : List Application} {last : Application} {err : EvalError}
    (sound : ∀ b ∈ before, ∃ v, b.result = .ok v) (fails : last.result = .error err) :
    Explains (before ++ [last]) (.error err)

namespace Explains

variable {α β : Type}

theorem nil (a : α) : Explains [] (.ok a : Except EvalError α) := ok (by simp)

/-- Two computations in a row are explained by the applications of the first and then those of the
second. -/
theorem bind {xs : List Application} {x : Except EvalError α} {next : α → List Application}
    {f : α → Except EvalError β} (first : Explains xs x)
    (second : ∀ a, x = .ok a → Explains (next a) (f a)) :
    Explains (xs ++ onResult x next) (x >>= f) := by
  cases first with
  | @error before last err sound fails =>
    rw [onResult, List.append_nil]
    exact error sound fails
  | @ok _ a sound =>
    change Explains (xs ++ next a) (f a)
    -- With variables for the second computation and its list, its explanation can be taken apart.
    generalize f a = y, next a = ys, second a rfl = rest
    cases rest with
    | ok sound' =>
      exact ok fun b mem => (List.mem_append.1 mem).elim (sound b) (sound' b)
    | error sound' fails =>
      rw [← List.append_assoc]
      exact error (fun b mem => (List.mem_append.1 mem).elim (sound b) (sound' b)) fails

/-- Putting the result to a use that cannot fail adds nothing to the explanation. -/
theorem map {xs : List Application} {x : Except EvalError α} (f : α → β)
    (first : Explains xs x) : Explains xs (do return f (← x)) := by
  cases first with
  | ok sound => exact ok sound
  | error sound fails => exact error sound fails

/-- An application explains its own result. -/
theorem single (a : Application) : Explains [a] a.result := by
  cases result : a.result with
  | ok v => exact ok (by simp [result])
  | error err => exact @error _ [] a err (by simp) result

/-- The error is the one of the last application, and no application before it has failed. -/
theorem eq_error_iff {xs : List Application} {x : Except EvalError α} (explained : Explains xs x)
    {err : EvalError} :
    x = .error err ↔
      ∃ before last, xs = before ++ [last] ∧ (∀ b ∈ before, ∃ v, b.result = .ok v) ∧
        last.result = .error err := by
  constructor
  · rintro rfl
    cases explained with
    | @error before last _ sound fails => exact ⟨before, last, rfl, sound, fails⟩
  · rintro ⟨before, last, rfl, -, fails⟩
    -- The last one of a list is determined by the list, whichever way it was split.
    generalize same : before ++ [last] = xs at explained
    cases explained with
    | ok sound =>
      obtain ⟨v, result⟩ := sound last (by simp [← same])
      rw [fails] at result
      cases result
    | @error before' last' err' sound fails' =>
      obtain rfl : last = last' := (List.append_singleton_inj.1 same).2
      rw [fails] at fails'
      cases fails'
      rfl

/-- An evaluation fails just when one of its applications does. -/
theorem exists_error_iff {xs : List Application} {x : Except EvalError α}
    (explained : Explains xs x) :
    (∃ err, x = .error err) ↔ ∃ a ∈ xs, ∃ err, a.result = .error err := by
  cases explained with
  | ok sound =>
    constructor
    · nofun
    · rintro ⟨a, mem, err, fails⟩
      obtain ⟨v, result⟩ := sound a mem
      rw [fails] at result
      cases result
  | @error before last err sound fails =>
    exact ⟨fun _ => ⟨last, by simp, err, fails⟩, fun _ => ⟨err, rfl⟩⟩

end Explains

mutual

theorem Expr.explained (find? : String → Option Value) :
    (e : Expr) → Explains (e.applications find?) (e.eval find?)
  | .const value => .nil value
  | .var name => .nil ((find? name).getD .empty)
  | .field object name => (object.explained find?).map (Value.field · name)
  | .not operand => (operand.explained find?).bind fun v _ => .single (.not v)
  | .negate operand => (operand.explained find?).bind fun v _ => .single (.negate v)
  | .binary op l r =>
    (l.explained find?).bind fun a _ =>
      (r.explained find?).bind fun b _ => .single (.binary op a b)
  | .and l r =>
    (l.explained find?).bind fun v _ => by
      -- A left side that decides is the result, with nothing more to explain.
      cases v.isTruthy with
      | true => exact r.explained find?
      | false => exact .nil v
  | .or l r =>
    (l.explained find?).bind fun v _ => by
      cases v.isTruthy with
      | true => exact .nil v
      | false => exact r.explained find?
  | .list items => (Expr.explainedAll find? items).map Value.ofList
  | .isDefined subject => (subject.explainedToBind find?).map Value.bool
termination_by structural e => e

theorem Expr.explainedToBind (find? : String → Option Value) :
    (e : Expr) → Explains (e.applicationsToBind find?) (e.isBound find?)
  | .field object name =>
    (object.explainedToBind find?).bind fun bound _ => by
      cases bound with
      | true => exact (object.explained find?).map (Value.hasField · name)
      | false => exact .nil false
  | .var name => .nil (find? name).isSome
  | .const _ | .not _ | .negate _ | .binary .. | .and .. | .or .. | .list _ | .isDefined _ =>
    .nil true
termination_by structural e => e

theorem Expr.explainedAll (find? : String → Option Value) :
    (es : List Expr) → Explains (Expr.applicationsAll find? es) (Expr.evalAll find? es)
  | [] => .nil []
  | e :: rest =>
    (e.explained find?).bind fun v _ => (Expr.explainedAll find? rest).map (v :: ·)
termination_by structural es => es

end

/-! ## What is not reached -/

section

variable (find? : String → Option Value)

mutual

/-- The second expression is the first but for parts that the evaluation of the first does not get
to. What stands to the right of an operand has to be the same only if that operand has a value. -/
inductive Expr.SameWhereReached : Expr → Expr → Prop where
  | same (e : Expr) : e.SameWhereReached e
  | field {object object' : Expr} (name : String) (first : object.SameWhereReached object') :
    (Expr.field object name).SameWhereReached (.field object' name)
  | not {operand operand' : Expr} (first : operand.SameWhereReached operand') :
    (Expr.not operand).SameWhereReached (.not operand')
  | negate {operand operand' : Expr} (first : operand.SameWhereReached operand') :
    (Expr.negate operand).SameWhereReached (.negate operand')
  | binary (op : BinaryOp) {l l' r r' : Expr} (first : l.SameWhereReached l')
    (second : ∀ v, l.eval find? = .ok v → r.SameWhereReached r') :
    (Expr.binary op l r).SameWhereReached (.binary op l' r')
  | and {l l' r r' : Expr} (first : l.SameWhereReached l')
    (second : ∀ v, l.eval find? = .ok v → v.isTruthy = true → r.SameWhereReached r') :
    (Expr.and l r).SameWhereReached (.and l' r')
  | or {l l' r r' : Expr} (first : l.SameWhereReached l')
    (second : ∀ v, l.eval find? = .ok v → v.isTruthy = false → r.SameWhereReached r') :
    (Expr.or l r).SameWhereReached (.or l' r')
  | list {items items' : List Expr} (first : Expr.AllSameWhereReached items items') :
    (Expr.list items).SameWhereReached (.list items')

/-- The same for the items of a list. They need not even be as many, when one of them fails. -/
inductive Expr.AllSameWhereReached : List Expr → List Expr → Prop where
  | nil : Expr.AllSameWhereReached [] []
  | cons {e e' : Expr} {rest rest' : List Expr} (first : e.SameWhereReached e')
    (second : ∀ v, e.eval find? = .ok v → Expr.AllSameWhereReached rest rest') :
    Expr.AllSameWhereReached (e :: rest) (e' :: rest')

end

end

/-- Two computations in a row have the result that two others have, if the first ones agree and the
second ones do after any value of the first. -/
theorem bind_eq_bind {α β : Type} {x x' : Except EvalError α} {f f' : α → Except EvalError β}
    (first : x' = x) (second : ∀ a, x = .ok a → f' a = f a) : x' >>= f' = x >>= f := by
  subst first
  cases x' with
  | error err => rfl
  | ok a => exact second a rfl

mutual

theorem Expr.SameWhereReached.eval_eq {find? : String → Option Value} :
    {e e' : Expr} → e.SameWhereReached find? e' → e'.eval find? = e.eval find?
  | _, _, .same _ => rfl
  | _, _, .field _ first => bind_eq_bind first.eval_eq fun _ _ => rfl
  | _, _, .not first => bind_eq_bind first.eval_eq fun _ _ => rfl
  | _, _, .negate first => bind_eq_bind first.eval_eq fun _ _ => rfl
  | _, _, .binary _ first second =>
    bind_eq_bind first.eval_eq fun v value =>
      bind_eq_bind (second v value).eval_eq fun _ _ => rfl
  | _, _, .and first second =>
    bind_eq_bind first.eval_eq fun v value => by
      cases truthy : v.isTruthy with
      | true => exact (second v value truthy).eval_eq
      | false => rfl
  | _, _, .or first second =>
    bind_eq_bind first.eval_eq fun v value => by
      cases truthy : v.isTruthy with
      | true => rfl
      | false => exact (second v value truthy).eval_eq
  | _, _, .list first => bind_eq_bind first.evalAll_eq fun _ _ => rfl
termination_by structural _ _ h => h

theorem Expr.AllSameWhereReached.evalAll_eq {find? : String → Option Value} :
    {es es' : List Expr} → Expr.AllSameWhereReached find? es es' →
      Expr.evalAll find? es' = Expr.evalAll find? es
  | _, _, .nil => rfl
  | _, _, .cons first second =>
    bind_eq_bind first.eval_eq fun v value =>
      bind_eq_bind (second v value).evalAll_eq fun _ _ => rfl
termination_by structural _ _ h => h

end

/-! ## The result -/

/-- **An evaluation fails where its first fault is.** Which operands an operator refuses, and with
which error, is what the table says. An evaluation fails if and only if one of the applications that
it comes to does; the error is the error of that one, the applications before it have results, and
there are none after it. What the evaluation does not get to, because it stands to the right of the
failure or behind an `and` or `or` that is decided, may be any expression at all. -/
theorem evaluation_fails_at_first_fault :
    (∀ (a : Application) (err : EvalError), a.result = .error err ↔ a.fault? = some err) ∧
      ∀ (find? : String → Option Value) (e : Expr),
        ((∃ err, e.eval find? = .error err) ↔
          ∃ a ∈ e.applications find?, ∃ err, a.result = .error err) ∧
        (∀ err, e.eval find? = .error err ↔
          ∃ before last, e.applications find? = before ++ [last] ∧
            (∀ b ∈ before, ∃ v, b.result = .ok v) ∧ last.result = .error err) ∧
        ∀ e', e.SameWhereReached find? e' → e'.eval find? = e.eval find? :=
  ⟨fun _ _ => Application.result_eq_error_iff, fun find? e =>
    ⟨(e.explained find?).exists_error_iff, fun _ => (e.explained find?).eq_error_iff,
      fun _ same => same.eval_eq⟩⟩

/-- In `[0 and -"a", 7 % 0, -"b"]` the division is the first failure, and it is reached: the signs
before both strings are not. -/
theorem evaluation_fails_at_the_division :
    let unbound : String → Option Value := fun _ => none
    let division : Expr := .binary .remainder (.const (.int 7)) (.const (.int 0))
    let e : Expr := .list
      [.and (.const (.int 0)) (.negate (.const (.string "a"))), division,
        .negate (.const (.string "b"))]
    let e' : Expr := .list [.and (.const (.int 0)) (.var "x"), division]
    e.eval unbound = .error (.zeroDivisor (.int 7)) ∧ e.SameWhereReached unbound e' ∧
      e'.eval unbound = e.eval unbound := by
  intro unbound division e e'
  have fails : (Application.binary .remainder (.int 7) (.int 0)).result =
      .error (.zeroDivisor (.int 7)) := (evaluation_fails_at_first_fault.1 _ _).2 rfl
  have same : e.SameWhereReached unbound e' := by
    refine .list (.cons (.and (.same _) ?_) fun _ _ => .cons (.same division) ?_)
    · rintro v ⟨⟩ truthy
      exact absurd truthy (by decide)
    · intro v value
      rw [show division.eval unbound = .error _ from fails] at value
      cases value
  obtain ⟨-, error, replaced⟩ := evaluation_fails_at_first_fault.2 unbound e
  exact ⟨(error _).2 ⟨[], _, rfl, by simp, fails⟩, same, replaced e' same⟩

end Stencil
