import Stencil.Value.Fields

/-!
# `Stencil/Value/Sequence.lean` — the elements of a list, by position

A list value answers two questions, how long it is and what stands at a position, and everything
else about it follows from those two. They cost the same for a range as for a list that has been
written out, which is why loops go by position and never list a range they may leave early.
-/

set_option autoImplicit false

namespace Stencil.Sequence

def size : Sequence → Nat
  | .items xs => xs.size
  | .range r => r.size

def get? : Sequence → Nat → Option Value
  | .items xs, i => xs[i]?
  | .range r, i => (r.get? i).map .int

def take : Sequence → Nat → List Value
  | .items xs, n => xs.toList.take n
  | .range r, n => (r.take n).map .int

def toList : Sequence → List Value
  | .items xs => xs.toList
  | .range r => r.toList.map .int

def ofList (xs : List Value) : Sequence := .items xs.toArray

/-- The elements of `s`, then those of `t`, written out. -/
def append (s t : Sequence) : Sequence := .ofList (s.toList ++ t.toList)

@[simp] theorem length_toList : ∀ s : Sequence, s.toList.length = s.size
  | .items _ => by simp [toList, size]
  | .range _ => by simp [toList, size]

/-- A sequence and its list of elements answer the same at every position. -/
theorem getElem?_toList : ∀ (s : Sequence) (i : Nat), s.toList[i]? = s.get? i
  | .items _, _ => by simp [toList, get?]
  | .range _, _ => by simp [toList, get?, Range.getElem?_toList]

/-- There is an element at each position below the size, and at no other. -/
theorem isSome_get? (s : Sequence) (i : Nat) : (s.get? i).isSome ↔ i < s.size := by
  rw [← getElem?_toList, ← length_toList, isSome_getElem?]

theorem get?_range_zero {r : Range} (nonempty : 0 < r.size) :
    (range r).get? 0 = some (.int r.start) := by
  rw [get?, Range.get?_zero nonempty]
  rfl

/-! ## Where a list of elements is taken apart -/

section Split

variable {s : Sequence} {before rest : List Value}

theorem size_of_split (split : s.toList = before ++ rest) :
    s.size = before.length + rest.length := by
  rw [← length_toList, split, List.length_append]

theorem get?_of_split {v : Value} (split : s.toList = before ++ v :: rest) :
    s.get? before.length = some v := by
  rw [← getElem?_toList, split, List.getElem?_append_right (Nat.le_refl _), Nat.sub_self]
  rfl

end Split

end Stencil.Sequence
