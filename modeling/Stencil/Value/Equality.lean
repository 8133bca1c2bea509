import Stencil.Value.Order

/-!
# `Stencil/Value/Equality.lean` — when two values are equal

Equality never fails: values of different kinds are simply different. Numbers are the exception to
"different kinds", an integer and a float being compared as floats. Lists are equal when they have
the same length and equal elements in order, and maps when they have the same keys and equal
values.

Two maps list their entries in one and the same order, so comparing them entry by entry is
comparing them key by key. A range is compared without being listed: beside another range by its
three numbers, and beside a list only once the lengths are known to agree.

**It is not an equivalence.** NaN differs from itself, and so does everything that holds one.
Transitivity fails as well, because an integer of more than 53 bits may round to a float that
another integer rounds to, too. How much is left of it is in `Stencil/Proofs/Equivalence.lean`.
-/

set_option autoImplicit false

namespace Stencil

def Value.equalsInt (v : Value) (n : Int64) : Bool :=
  match v with
  | .int m => m == n
  | .float x => x == Binary64.ofInt64 n
  | _ => false

def Range.equalsItems (r : Range) (xs : Array Value) : Bool :=
  r.size == xs.size && (r.toList.zip xs.toList).all fun (n, v) => v.equalsInt n

mutual

def Value.equals : Value → Value → Bool
  | .empty, .empty => true
  | .bool a, .bool b => a == b
  | .int a, .int b => a == b
  | .float a, .float b => a == b
  | .int a, .float b => Binary64.ofInt64 a == b
  | .float a, .int b => a == Binary64.ofInt64 b
  | .string a, .string b => a == b
  | .list a, .list b => a.equals b
  | .map a, .map b => a.equals b
  | _, _ => false
termination_by structural v => v

def Sequence.equals : Sequence → Sequence → Bool
  | .items ⟨xs⟩, .items ⟨ys⟩ => Value.allEqual xs ys
  | .items xs, .range s => s.equalsItems xs
  | .range r, .items ys => r.equalsItems ys
  | .range r, .range s => r.sameElements s
termination_by structural s => s

/-- Whether two lists of values have one length and are equal position by position. -/
def Value.allEqual : List Value → List Value → Bool
  | [], [] => true
  | x :: xs, y :: ys => x.equals y && Value.allEqual xs ys
  | _, _ => false
termination_by structural xs => xs

/-- Whether two maps have the same keys and, under each, equal values. -/
def Fields.equals : {lo lo' : Option String} → Fields lo → Fields lo' → Bool
  | _, _, .nil, .nil => true
  | _, _, .cons key _ value rest, .cons key' _ value' rest' =>
    key == key' && value.equals value' && rest.equals rest'
  | _, _, _, _ => false
termination_by structural _ _ fields => fields

end

/-! ## Equality of ranges is equality of lists -/

theorem Value.equals_int (v : Value) (n : Int64) : v.equals (.int n) = v.equalsInt n := by
  cases v <;> rfl

theorem Value.int_equals (n : Int64) (v : Value) : (Value.int n).equals v = v.equalsInt n := by
  cases v with
  | int m => exact BEq.comm
  | float x => exact Binary64.beq_comm _ _
  | _ => rfl

theorem Value.allEqual_ints (ns ms : List Int64) :
    Value.allEqual (ns.map .int) (ms.map .int) = (ns == ms) := by
  induction ns generalizing ms with
  | nil => cases ms <;> rfl
  | cons n ns ih =>
    cases ms with
    | nil => rfl
    | cons m ms =>
      simp only [List.map_cons, Value.allEqual, ih, List.cons_beq_cons]
      rfl

/-- A list beside a range is compared with its elements, from either side. -/
theorem Range.equalsItems_eq (r : Range) (xs : Array Value) :
    r.equalsItems xs = Value.allEqual xs.toList (r.toList.map .int) := by
  unfold equalsItems
  rw [← length_toList, ← Array.length_toList]
  generalize xs.toList = vs, r.toList = ns
  induction ns generalizing vs with
  | nil => cases vs <;> rfl
  | cons n ns ih =>
    cases vs with
    | nil => rfl
    | cons v vs =>
      rw [List.map_cons, Value.allEqual, ← ih, Value.equals_int]
      simp only [List.length_cons, List.zip_cons_cons, List.all_cons]
      grind

theorem Value.allEqual_ints_comm (ns : List Int64) (vs : List Value) :
    Value.allEqual (ns.map .int) vs = Value.allEqual vs (ns.map .int) := by
  induction ns generalizing vs with
  | nil => cases vs <;> rfl
  | cons n ns ih =>
    cases vs with
    | nil => rfl
    | cons v vs =>
      simp only [List.map_cons, Value.allEqual, ih, Value.equals_int, Value.int_equals]

/-- Whatever the two sequences are kept as, they are compared as the lists of their elements. -/
theorem Sequence.equals_eq : ∀ s t : Sequence, s.equals t = Value.allEqual s.toList t.toList
  | .items _, .items _ => rfl
  | .items xs, .range s => s.equalsItems_eq xs
  | .range r, .items ys => (r.equalsItems_eq ys).trans (Value.allEqual_ints_comm _ _).symm
  | .range r, .range s => (r.sameElements_eq s).trans (Value.allEqual_ints _ _).symm

end Stencil
