import Stencil.Proofs.Faults
import Stencil.Render.Context

/-!
# `Stencil/Proofs/Defined.lean` — being defined, and having a value

`isBound` and `eval` go along the same path, each in its own way. `eval` never stops: a field that
is missing is `empty` and so are the fields of `empty`. `isBound` asks at each step whether the next
one is there, and evaluates the object once more to see. This file shows that the two cannot tell
different stories:

> **what is not defined evaluates to `empty`, and the question fails only as the evaluation does.**

The converse of the first half is false, and that is what the question is for: a name bound to
`empty` is defined.

The recursion of `isBound` is not needed to know its answer. A field is bound if the object has it
(`Expr.isBound_field`), because an object that is not bound itself is `empty` and has no fields.
-/

set_option autoImplicit false

namespace Stencil

/-- The answer to the question whether something is bound is in agreement with its value. -/
structure BoundAgrees (bound : Except EvalError Bool) (value : Except EvalError Value) : Prop where
  empty_of_missing : bound = .ok false → value = .ok .empty
  error_of_error : ∀ {err}, bound = .error err → value = .error err

theorem BoundAgrees.of_true {value : Except EvalError Value} : BoundAgrees (.ok true) value where
  empty_of_missing missing := by cases missing
  error_of_error failed := by cases failed

namespace Expr

variable {find? : String → Option Value}

/-- The step of the induction along a path. The value of the object is enough to know whether a
field of it is bound. -/
theorem isBound_field_of_agrees {object : Expr} (name : String)
    (agrees : BoundAgrees (object.isBound find?) (object.eval find?)) :
    (object.field name).isBound find? = do return (← object.eval find?).hasField name := by
  rw [isBound]
  cases bound : object.isBound find? with
  | error err => rw [agrees.error_of_error bound]; rfl
  | ok b =>
    cases b with
    | true => rfl
    | false => rw [agrees.empty_of_missing bound]; rfl

/-- The induction is along the path, down to a name or to something that counts as bound. -/
theorem boundAgrees (e : Expr) : BoundAgrees (e.isBound find?) (e.eval find?) := by
  cases e with
  | var name =>
    refine ⟨fun missing => ?_, fun failed => ?_⟩
    · have unbound : find? name = none :=
        Option.not_isSome_iff_eq_none.1 (ne_true_of_eq_false (Except.ok.inj missing))
      show Except.ok ((find? name).getD .empty) = _
      rw [unbound, Option.getD_none]
    · cases failed
  | field object name =>
    rw [isBound_field_of_agrees name object.boundAgrees]
    show BoundAgrees _ (do return (← object.eval find?).field name)
    cases object.eval find? with
    | error err =>
      refine ⟨fun missing => ?_, fun failed => ?_⟩
      · cases missing
      · cases failed
        rfl
    | ok v =>
      refine ⟨fun missing => ?_, fun failed => ?_⟩
      · exact congrArg _ (Value.field_of_hasField_eq_false (Except.ok.inj missing))
      · cases failed
  | _ => exact .of_true
termination_by structural e

/-- A field is bound just when the value of the object has it. -/
theorem isBound_field (object : Expr) (name : String) :
    (object.field name).isBound find? = do return (← object.eval find?).hasField name :=
  isBound_field_of_agrees name object.boundAgrees

theorem eval_isDefined_eq_ok_iff {e : Expr} {b : Bool} :
    (isDefined e).eval find? = .ok (.bool b) ↔ e.isBound find? = .ok b := by
  show (do return Value.bool (← e.isBound find?)) = _ ↔ _
  cases e.isBound find? with
  | error err => exact ⟨nofun, nofun⟩
  | ok answer => exact ⟨fun | rfl => rfl, fun | rfl => rfl⟩

theorem eval_isDefined_eq_error_iff {e : Expr} {err : EvalError} :
    (isDefined e).eval find? = .error err ↔ e.isBound find? = .error err := by
  show (do return Value.bool (← e.isBound find?)) = _ ↔ _
  cases e.isBound find? with
  | error err' => exact ⟨fun | rfl => rfl, fun | rfl => rfl⟩
  | ok answer => exact ⟨nofun, nofun⟩

end Expr

open Stencil.Expr (isDefined)

/-- **Being defined agrees with having a value.** What is not defined evaluates to `empty`, and an
error in the question is an error of the evaluation. The question about a field fails if and only if
its object does, with the same error, and is otherwise answered by whether the object is a map with
that key, be there a value or `empty`. A name is defined if a scope or the globals bind it.
Everything else is defined, and nothing is evaluated to find that out. -/
theorem defined_agrees_with_value :
    (∀ (find? : String → Option Value) (e : Expr),
      ((isDefined e).eval find? = .ok (.bool false) → e.eval find? = .ok .empty) ∧
      ∀ err, (isDefined e).eval find? = .error err → e.eval find? = .error err) ∧
    (∀ (find? : String → Option Value) (object : Expr) (name : String),
      (∀ err, (isDefined (.field object name)).eval find? = .error err ↔
        object.eval find? = .error err) ∧
      ∀ v, object.eval find? = .ok v →
        ∃ b, (isDefined (.field object name)).eval find? = .ok (.bool b) ∧
          (b = true ↔ ∃ fields, v = .map fields ∧ name ∈ fields.keys)) ∧
    (∀ (c : Context) (name : String),
      ∃ b, (isDefined (.var name)).eval c.find? = .ok (.bool b) ∧
        (b = true ↔ c.scopes.Binds name ∨ (c.globals.get? name).isSome)) ∧
    ∀ (find? : String → Option Value) (e : Expr),
      (∀ name, e ≠ .var name) → (∀ object name, e ≠ .field object name) →
        (isDefined e).eval find? = .ok (.bool true) ∧ (isDefined e).applications find? = [] := by
  refine ⟨fun find? e => ⟨?missing, ?failed⟩, fun find? object name => ⟨?fails, ?answered⟩,
    fun c name => ⟨_, rfl, Context.isSome_find?_iff⟩, fun find? e noName noField => ?other⟩
  case missing =>
    intro answer
    exact e.boundAgrees.empty_of_missing (Expr.eval_isDefined_eq_ok_iff.1 answer)
  case failed =>
    intro err failed
    exact e.boundAgrees.error_of_error (Expr.eval_isDefined_eq_error_iff.1 failed)
  case fails =>
    intro err
    rw [Expr.eval_isDefined_eq_error_iff, Expr.isBound_field]
    cases object.eval find? with
    | error err' => exact ⟨fun | rfl => rfl, fun | rfl => rfl⟩
    | ok v => exact ⟨nofun, nofun⟩
  case answered =>
    intro v value
    refine ⟨v.hasField name, ?_, Value.hasField_iff⟩
    rw [Expr.eval_isDefined_eq_ok_iff, Expr.isBound_field, value]
    rfl
  case other =>
    cases e with
    | var name => exact absurd rfl (noName name)
    | field object name => exact absurd rfl (noField object name)
    | _ => exact ⟨rfl, rfl⟩

/-- A user whose name is `empty` has a name, but the name has no field. The question about a field
fails with its object, and the one about the object alone does not. -/
theorem defined_of_a_user_with_an_empty_name :
    let user := Value.map (.ofList [("name", .empty)])
    let c := Context.start .empty (.ofList [("user", user)]) {}
    let name := (Expr.var "user").field "name"
    let failing := Expr.negate (.const (.string "a"))
    (isDefined name).eval c.find? = .ok (.bool true) ∧
      (isDefined (name.field "first")).eval c.find? = .ok (.bool false) ∧
      (name.field "first").eval c.find? = .ok .empty ∧
      (isDefined (failing.field "x")).eval c.find? = .error (.notNumber (.string "a")) ∧
      (isDefined failing).eval c.find? = .ok (.bool true) := by
  intro user c name failing
  obtain ⟨agree, field, -, others⟩ := defined_agrees_with_value
  have value : (Expr.var "user").eval c.find? = .ok user := rfl
  obtain ⟨b, hasName, present⟩ := (field c.find? (.var "user") "name").2 user value
  have missing : (isDefined (name.field "first")).eval c.find? = .ok (.bool false) := rfl
  refine ⟨?_, missing, (agree c.find? _).1 missing, ((field c.find? failing "x").1 _).2 rfl,
    (others c.find? failing nofun nofun).1⟩
  rw [hasName, present.2 ⟨_, rfl, by decide⟩]

end Stencil
