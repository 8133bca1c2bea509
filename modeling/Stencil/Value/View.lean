import Stencil.Value.Sequence

/-!
# `Stencil/Value/View.lean` — what a template can ask of a value

A loop asks a value for elements, a path asks it for a field, a condition asks whether it holds.
**None of the three can fail.** What has no elements is simply not iterated over, a field that is
not there is `empty`, and every value is either true or false; the questions that do fail, those an
operator asks about the kinds of its operands, are in `Stencil/Expr/Operator.lean`.
-/

set_option autoImplicit false

namespace Stencil.Value

def ofList (xs : List Value) : Value := .list (.ofList xs)

/-- The elements to iterate over: those of a list, the keys of a map in ascending order, the
characters of a string. A scalar has none and is not iterable. -/
def toSequence? : Value → Option Sequence
  | .list elements => some elements
  | .map fields => some (.ofList (fields.keys.map .string))
  | .string s => some (.ofList (s.toList.map fun c => .string (String.singleton c)))
  | .empty | .bool _ | .int _ | .float _ => none

/-- The field of that name; `empty` when the value is no map, or a map without it. -/
def field (v : Value) (name : String) : Value :=
  match v with
  | .map fields => (fields.get? name).getD .empty
  | _ => .empty

/-- Whether the value is a map with a field of that name, be it `empty`. -/
def hasField (v : Value) (name : String) : Bool :=
  match v with
  | .map fields => (fields.get? name).isSome
  | _ => false

theorem hasField_iff {v : Value} {name : String} :
    v.hasField name ↔ ∃ fields, v = .map fields ∧ name ∈ fields.keys := by
  cases v with
  | map fields => simp [hasField, Fields.mem_keys_iff]
  | _ => simp [hasField]

/-- A field that a value does not have is `empty`. -/
theorem field_of_hasField_eq_false {v : Value} {name : String} (missing : v.hasField name = false) :
    v.field name = .empty := by
  cases v with
  | map fields => simp [field, Option.not_isSome_iff_eq_none.1 (ne_true_of_eq_false missing)]
  | _ => rfl

/-- How a value counts as a condition: zero, either sign, and whatever has no elements are false. -/
def isTruthy : Value → Bool
  | .empty => false
  | .bool b => b
  | .int n => n != 0
  | .float x => x != 0
  | .string s => !s.isEmpty
  | .list elements => elements.size != 0
  | .map fields => fields.size != 0

end Stencil.Value
