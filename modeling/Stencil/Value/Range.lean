/-!
# `Stencil/Value/Range.lean` — arithmetic progressions

A range is the list `start, start + step, start + 2 * step, …` of 64-bit integers that stays short
of `stop`, and it is kept as those three numbers because it may be far too long to write down: from
the least integer to the greatest there are `2 ^ 64 - 1` elements. A negative step counts down, and
a step of zero, which would never arrive, makes the range empty.

**Sizes and elements are computed in the unbounded integers**, where neither `stop - start` nor
`start + i * step` can overflow, and only an element that is known to lie between `start` and
`stop` is brought back to 64 bits. So the extreme bounds are not special cases of anything here.
-/

set_option autoImplicit false

namespace Stencil

/-- The integers from `start`, in steps of `step`, as long as they have not reached `stop`. -/
structure Range where
  start : Int64
  stop : Int64
  step : Int64
deriving DecidableEq, Repr

namespace Range

def size (r : Range) : Nat :=
  let start := r.start.toInt
  let stop := r.stop.toInt
  let step := r.step.toInt
  if 0 < step ∧ start < stop then ((stop - start - 1) / step + 1).toNat
  else if step < 0 ∧ stop < start then ((start - stop - 1) / -step + 1).toNat
  else 0

/-- However small the steps, there are no more of them than there are integers on the way. -/
theorem steps_le {distance : Int} (step : Int) (apart : 0 < distance) :
    ((distance - 1) / step + 1).toNat ≤ distance := by
  have steps : (distance - 1) / step ≤ distance - 1 := Int.ediv_le_self step (by omega)
  omega

/-- No range has as many elements as there are integers. -/
theorem size_lt (r : Range) : r.size < Int64.size := by
  have integers : Int64.size = 18446744073709551616 := rfl
  have start := And.intro r.start.le_toInt r.start.toInt_lt
  have stop := And.intro r.stop.le_toInt r.stop.toInt_lt
  simp only [size]
  split
  case isTrue up =>
    have := steps_le r.step.toInt (Int.sub_pos_of_lt up.2)
    omega
  split
  case isTrue down =>
    have := steps_le (-r.step.toInt) (Int.sub_pos_of_lt down.2)
    omega
  case isFalse => decide

/-- From the least integer on, all but the greatest. -/
def longest : Range := ⟨Int64.minValue, Int64.maxValue, 1⟩

theorem size_longest : longest.size = Int64.size - 1 := by decide

/-- What stands `i` steps from the start, whether or not the range reaches that far. -/
def nth (r : Range) (i : Nat) : Int := r.start.toInt + r.step.toInt * i

def get? (r : Range) (i : Nat) : Option Int64 :=
  if i < r.size then some (Int64.ofInt (r.nth i)) else none

/-- The first `n` elements, or all of them when there are fewer. -/
def take (r : Range) (n : Nat) : List Int64 :=
  (List.range (min n r.size)).map fun i => Int64.ofInt (r.nth i)

def toList (r : Range) : List Int64 := r.take r.size

/-- Whether two ranges hold the same elements, without listing them: progressions of one length
agree when they are empty, or start alike and then, past the first element, step alike. -/
def sameElements (r s : Range) : Bool :=
  r.size == s.size && (r.size == 0 || r.start == s.start && (r.size == 1 || r.step == s.step))

@[simp] theorem length_take (r : Range) (n : Nat) : (r.take n).length = min n r.size := by
  simp [take]

@[simp] theorem length_toList (r : Range) : r.toList.length = r.size := by
  simp [toList]

/-- A range and its list of elements answer the same at every position. -/
theorem getElem?_toList (r : Range) (i : Nat) : r.toList[i]? = r.get? i := by
  by_cases h : i < r.size
  · simp [toList, take, get?, h]
  · simp [toList, take, get?, Nat.le_of_not_lt h]

/-! ## When two ranges list the same elements -/

theorem get?_zero {r : Range} (nonempty : 0 < r.size) : r.get? 0 = some r.start := by
  rw [get?, if_pos nonempty, nth, Int.natCast_zero, Int.mul_zero, Int.add_zero, Int64.ofInt_toInt]

theorem get?_one {r : Range} (several : 1 < r.size) : r.get? 1 = some (r.start + r.step) := by
  rw [get?, if_pos several, nth, Int.natCast_one, Int.mul_one, Int64.ofInt_add, Int64.ofInt_toInt,
    Int64.ofInt_toInt]

/-- The first two elements of a progression say what the others are. -/
theorem toList_inj {r s : Range} : r.toList = s.toList ↔ r.size = s.size ∧
    (0 < r.size → r.start = s.start) ∧ (1 < r.size → r.step = s.step) := by
  constructor
  · intro same
    have size : r.size = s.size := by
      rw [← length_toList, same, length_toList]
    have get (i : Nat) : r.get? i = s.get? i := by
      rw [← getElem?_toList, same, getElem?_toList]
    have start (nonempty : 0 < r.size) : r.start = s.start := by
      have first := get 0
      rw [get?_zero nonempty, get?_zero (size ▸ nonempty)] at first
      exact Option.some.inj first
    refine ⟨size, start, fun several => ?_⟩
    have second := get 1
    rw [get?_one several, get?_one (size ▸ several), start (by omega)] at second
    exact (Int64.add_right_inj s.start).1 (Option.some.inj second)
  · rintro ⟨size, start, step⟩
    refine List.ext_getElem? fun i => ?_
    rw [getElem?_toList, getElem?_toList, get?, get?, ← size]
    by_cases inside : i < r.size
    · rw [if_pos inside, if_pos inside, nth, nth, start (by omega)]
      cases i with
      | zero => simp
      | succ i => rw [step (by omega)]
    · rw [if_neg inside, if_neg inside]

/-- To compare the three numbers is to compare the elements. -/
theorem sameElements_eq (r s : Range) : r.sameElements s = (r.toList == s.toList) := by
  rw [Bool.eq_iff_iff, beq_iff_eq, toList_inj]
  unfold sameElements
  simp only [Bool.and_eq_true, Bool.or_eq_true, beq_iff_eq]
  grind

end Range

end Stencil
