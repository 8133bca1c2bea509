import Mathlib.Data.Set.Card
import Stencil.Value.Sequence

/-!
# `Stencil/Proofs/Progression.lean` — the elements of a range, at every bound

The size of a range is a quotient that is rounded up, and an element is brought back to 64 bits
after it has been found. Both are right only if the bounds are what they seem to be, and at the ends
of the 64 bits there is no room for a bound to be off by one. This file says what a range holds
without dividing and without a width:

> **the elements are the integers at whole numbers of steps from the start that lie before the
> stop**, in the direction of the step.

All of it comes from one fact about the quotient (`Range.lt_steps_iff`): it is more than `i` just
when `i` steps are less than the distance. So a position is inside a range if and only if what
stands there lies before the stop (`Range.lt_size_iff`), and what lies between two integers of 64
bits is one.

## How much room the computation takes

The integers that sizes and elements are computed in have no bounds here. A computation in words of
128 bits has, and it ends with a narrowing to 64 bits, which may fail: `Range.wideSize?` and
`Range.wideGet?` are that computation, with every step checked. **They come to the same answers**,
on all ranges and at all positions, so that 128 bits are enough and no narrowing loses anything.
-/

set_option autoImplicit false

namespace Stencil

namespace Range

/-- The integer lies before the stop, as one sees it who goes in the direction of the step. Without
a direction nothing does. -/
def Before (r : Range) (z : Int) : Prop :=
  0 < r.step.toInt ∧ z < r.stop.toInt ∨ r.step.toInt < 0 ∧ r.stop.toInt < z

/-! ## Sizes -/

/-- The quotient is more than `i` when `i` steps do not go all the way. -/
theorem lt_steps_iff {distance step : Int} (forward : 0 < step) (apart : 0 < distance) (i : Nat) :
    i < ((distance - 1) / step + 1).toNat ↔ step * i < distance := by
  have quotient : 0 ≤ (distance - 1) / step := Int.ediv_nonneg (by omega) (by omega)
  calc
    _ ↔ (i : Int) ≤ (distance - 1) / step := by omega
    _ ↔ i * step ≤ distance - 1 := Int.le_ediv_iff_mul_le forward
    _ ↔ step * i < distance := by
      rw [Int.mul_comm]
      omega

/-- **A position is inside a range if what stands there lies before the stop.** -/
theorem lt_size_iff {r : Range} {i : Nat} : i < r.size ↔ r.Before (r.nth i) := by
  unfold size Before nth
  dsimp only
  split
  case isTrue up =>
    rw [lt_steps_iff up.1 (by omega)]
    omega
  split
  case isTrue down =>
    rw [lt_steps_iff (by omega) (by omega), Int.neg_mul]
    omega
  case isFalse notUp notDown =>
    have ahead (forward : 0 < r.step.toInt) : 0 ≤ r.step.toInt * i :=
      Int.mul_nonneg (by omega) (by omega)
    have behind (backward : r.step.toInt < 0) : r.step.toInt * i ≤ 0 :=
      Int.mul_nonpos_of_nonpos_of_nonneg (by omega) (by omega)
    omega

/-- The size counts the steps that end before the stop. -/
theorem encard_before (r : Range) : { k : Nat | r.Before (r.nth k) }.encard = r.size := by
  have positions : { k : Nat | r.Before (r.nth k) } = (Finset.range r.size : Set Nat) := by
    ext k
    rw [Set.mem_ofPred_eq, ← lt_size_iff, Finset.coe_range, Set.mem_Iio]
  rw [positions, Set.encard_coe_eq_coe_finsetCard, Finset.card_range]

/-! ## Elements -/

/-- One step further is further in the direction of the step. -/
theorem nth_lt_nth {r : Range} {i j : Nat} (later : i < j) :
    (0 < r.step.toInt → r.nth i < r.nth j) ∧ (r.step.toInt < 0 → r.nth j < r.nth i) := by
  have positions : (i : Int) < j := by omega
  constructor
  · intro forward
    exact Int.add_lt_add_left (Int.mul_lt_mul_of_pos_left positions forward) _
  · intro backward
    exact Int.add_lt_add_left (Int.mul_lt_mul_of_neg_left positions backward) _

/-- What stands at a position of a range is an integer of 64 bits. -/
theorem nth_bounds {r : Range} {i : Nat} (inside : i < r.size) :
    -2 ^ 63 ≤ r.nth i ∧ r.nth i < 2 ^ 63 := by
  have start := And.intro r.start.le_toInt r.start.toInt_lt
  have stop := And.intro r.stop.le_toInt r.stop.toInt_lt
  have first : r.nth 0 = r.start.toInt := by simp [nth]
  have further : i = 0 ∨ 0 < i := by omega
  obtain ⟨forward, before⟩ | ⟨backward, before⟩ := lt_size_iff.1 inside
  · have ahead : r.nth 0 ≤ r.nth i := by
      rcases further with rfl | further
      · exact Int.le_refl _
      · exact Int.le_of_lt ((nth_lt_nth further).1 forward)
    omega
  · have behind : r.nth i ≤ r.nth 0 := by
      rcases further with rfl | further
      · exact Int.le_refl _
      · exact Int.le_of_lt ((nth_lt_nth further).2 backward)
    omega

theorem toInt_ofInt_nth {r : Range} {i : Nat} (inside : i < r.size) :
    (Int64.ofInt (r.nth i)).toInt = r.nth i :=
  Int64.toInt_ofInt_of_le (nth_bounds inside).1 (nth_bounds inside).2

theorem get?_eq_some_iff {r : Range} {i : Nat} {n : Int64} :
    r.get? i = some n ↔ i < r.size ∧ n.toInt = r.nth i := by
  unfold get?
  split
  case isTrue inside =>
    rw [Option.some_inj, ← Int64.toInt_inj, toInt_ofInt_nth inside]
    simp [inside, eq_comm]
  case isFalse outside => simp [outside]

/-! ## The same in words of 128 bits -/

/-- The integer, if it is one of 128 bits. -/
def wide? (z : Int) : Option Int := if -2 ^ 127 ≤ z ∧ z < 2 ^ 127 then some z else none

/-- How many steps from `near` end before `far`, if nothing overflows on the way. -/
def wideSteps? (near far step : Int) : Option Int := do
  let distance ← wide? (far - near)
  let between ← wide? (distance - 1)
  let whole ← wide? (between.tdiv step)
  wide? (whole + 1)

def wideCount? (r : Range) : Option Int :=
  let start := r.start.toInt
  let stop := r.stop.toInt
  let step := r.step.toInt
  if 0 < step ∧ start < stop then wideSteps? start stop step
  else if step < 0 ∧ stop < start then do wideSteps? stop start (← wide? (-step))
  else some 0

/-- The size, if nothing overflows on the way. A count that is not one of 64 bits is replaced by the
greatest that is. -/
def wideSize? (r : Range) : Option Nat := do
  let count ← r.wideCount?
  return if 0 ≤ count ∧ count < 2 ^ 64 then count.toNat else 2 ^ 64 - 1

/-- What stands at a position, if nothing overflows on the way. An integer that is not one of 64 bits
is left out. -/
def wideGet? (r : Range) (i : Nat) : Option (Option Int64) := do
  let size ← r.wideSize?
  if i < size then
    let offset ← wide? (r.step.toInt * i)
    let n ← wide? (r.start.toInt + offset)
    return if -2 ^ 63 ≤ n ∧ n < 2 ^ 63 then some (.ofInt n) else none
  else return none

theorem wide?_eq_some {z : Int} (lower : -2 ^ 127 ≤ z) (upper : z < 2 ^ 127) : wide? z = some z :=
  if_pos ⟨lower, upper⟩

theorem wideSteps?_eq_some {near far step : Int} (apart : near < far) (forward : 0 < step)
    (room : far - near < 2 ^ 64) :
    wideSteps? near far step = some (((far - near - 1) / step + 1).toNat : Int) := by
  have nonneg : 0 ≤ far - near - 1 := by omega
  have quotient : 0 ≤ (far - near - 1) / step := Int.ediv_nonneg nonneg (by omega)
  have smaller : (far - near - 1) / step ≤ far - near - 1 := Int.ediv_le_self step nonneg
  simp only [wideSteps?, Option.bind_eq_bind]
  rw [wide?_eq_some (by omega) (by omega), Option.bind_some, wide?_eq_some (by omega) (by omega),
    Option.bind_some, Int.tdiv_eq_ediv_of_nonneg nonneg, wide?_eq_some (by omega) (by omega),
    Option.bind_some, wide?_eq_some (by omega) (by omega), Int.toNat_of_nonneg (by omega)]

theorem wideCount?_eq_some (r : Range) : r.wideCount? = some (r.size : Int) := by
  have start := And.intro r.start.le_toInt r.start.toInt_lt
  have stop := And.intro r.stop.le_toInt r.stop.toInt_lt
  have step := And.intro r.step.le_toInt r.step.toInt_lt
  unfold wideCount? size
  dsimp only
  split
  case isTrue up => exact wideSteps?_eq_some up.2 up.1 (by omega)
  split
  case isTrue down =>
    rw [wide?_eq_some (by omega) (by omega)]
    exact wideSteps?_eq_some down.2 (by omega) (by omega)
  case isFalse => rfl

/-- Nothing overflows, and the count is one of 64 bits. -/
theorem wideSize?_eq_some (r : Range) : r.wideSize? = some r.size := by
  have integers : Int64.size = 2 ^ 64 := rfl
  have fits := r.size_lt
  rw [wideSize?, wideCount?_eq_some]
  exact congrArg some ((if_pos (by omega)).trans (Int.toNat_natCast _))

/-- Nothing overflows, and what it comes to is an integer of 64 bits. -/
theorem wideGet?_eq_some (r : Range) (i : Nat) : r.wideGet? i = some (r.get? i) := by
  have start := And.intro r.start.le_toInt r.start.toInt_lt
  simp only [wideGet?, wideSize?_eq_some, Option.bind_eq_bind, Option.bind_some, get?]
  split
  case isTrue inside =>
    have bounds := nth_bounds inside
    have nth_eq : r.start.toInt + r.step.toInt * i = r.nth i := rfl
    rw [wide?_eq_some (by omega) (by omega), Option.bind_some, nth_eq,
      wide?_eq_some (by omega) (by omega), Option.bind_some, if_pos bounds]
    rfl
  case isFalse => rfl

end Range

/-- To go through the positions of a sequence is to go through its elements, and none is dropped. -/
theorem Sequence.filterMap_get? (s : Sequence) :
    (List.range s.size).filterMap s.get? = s.toList := by
  have positions (vs : List Value) : (List.range vs.length).filterMap (fun i => vs[i]?) = vs := by
    induction vs with
    | nil => rfl
    | cons v vs ih =>
      rw [List.length_cons, List.range_succ_eq_map]
      show v :: (List.map Nat.succ _).filterMap _ = v :: vs
      rw [List.filterMap_map]
      exact congrArg (v :: ·) ih
  have look_up : s.get? = fun i => s.toList[i]? := funext fun i => (s.getElem?_toList i).symm
  rw [look_up, ← length_toList, positions]

theorem Sequence.get?_range_eq_some_iff {r : Range} {i : Nat} {v : Value} :
    (range r).get? i = some v ↔ i < r.size ∧ ∃ n, v = .int n ∧ n.toInt = r.nth i := by
  rw [get?, Option.map_eq_some_iff]
  simp only [Range.get?_eq_some_iff]
  grind

/-- **Ranges are exact, at every bound.** The size is the number of steps that end before the stop,
and it is one of 64 bits. What stands at a position is the integer so many steps from the start if
the position is below the size, and otherwise there is nothing. To compute either in words of 128
bits is to overflow nowhere and to narrow nothing. To go through the positions is to find as many
elements as the size says, in order, ever further in the direction of the step. -/
theorem ranges_are_exact (r : Range) :
    { k : Nat | r.Before (r.nth k) }.encard = (Sequence.range r).size ∧
    (Sequence.range r).size < 2 ^ 64 ∧
    (∀ i < (Sequence.range r).size,
      ∃ n : Int64, (Sequence.range r).get? i = some (.int n) ∧ n.toInt = r.nth i) ∧
    (∀ i ≥ (Sequence.range r).size, (Sequence.range r).get? i = none) ∧
    r.wideCount? = some (r.size : Int) ∧ r.wideSize? = some r.size ∧
    (∀ i, r.wideGet? i = some (r.get? i)) ∧
    (List.range (Sequence.range r).size).filterMap (Sequence.range r).get? =
      (Sequence.range r).toList ∧
    (Sequence.range r).toList.length = (Sequence.range r).size ∧
    ∀ (i j : Nat) (m n : Int64), i < j → (Sequence.range r).toList[i]? = some (.int m) →
      (Sequence.range r).toList[j]? = some (.int n) →
      (0 < r.step.toInt → m < n) ∧ (r.step.toInt < 0 → n < m) := by
  refine ⟨r.encard_before, r.size_lt, ?inside, ?outside, r.wideCount?_eq_some,
    r.wideSize?_eq_some, r.wideGet?_eq_some, Sequence.filterMap_get? _, Sequence.length_toList _,
    ?monotone⟩
  case inside =>
    intro i inside
    exact ⟨.ofInt (r.nth i), Sequence.get?_range_eq_some_iff.2
      ⟨inside, _, rfl, Range.toInt_ofInt_nth inside⟩, Range.toInt_ofInt_nth inside⟩
  case outside =>
    intro i outside
    rw [← Option.not_isSome_iff_eq_none, Sequence.isSome_get?]
    exact Nat.not_lt.2 outside
  case monotone =>
    intro i j m n later left right
    rw [Sequence.getElem?_toList, Sequence.get?_range_eq_some_iff] at left right
    obtain ⟨-, _, ⟨⟩, left⟩ := left
    obtain ⟨-, _, ⟨⟩, right⟩ := right
    rw [Int64.lt_iff_toInt_lt, Int64.lt_iff_toInt_lt, left, right]
    exact Range.nth_lt_nth later

/-- The last element of the longest range, and the two of a range that goes down from the greatest
integer in the longest steps. -/
theorem ranges_are_exact_at_the_bounds :
    let longest := Sequence.range Range.longest
    let down := Sequence.range ⟨Int64.maxValue, Int64.minValue, Int64.minValue⟩
    longest.size = 2 ^ 64 - 1 ∧
      (∃ n : Int64, longest.get? (2 ^ 64 - 2) = some (.int n) ∧ n.toInt = 2 ^ 63 - 2) ∧
      longest.get? (2 ^ 64 - 1) = none ∧
      down.toList = [.int Int64.maxValue, .int (-1)] ∧ (-1 : Int64) < Int64.maxValue := by
  intro longest down
  have size : longest.size = 2 ^ 64 - 1 := by decide
  have elements : down.toList = [.int Int64.maxValue, .int (-1)] := rfl
  refine ⟨size, ?last, ?past, elements, ?less⟩
  case last =>
    obtain ⟨n, found, value⟩ :=
      (ranges_are_exact Range.longest).2.2.1 (2 ^ 64 - 2) (by decide)
    exact ⟨n, found, value.trans (by decide)⟩
  case past => exact (ranges_are_exact Range.longest).2.2.2.1 _ (Nat.le_of_eq size)
  case less =>
    obtain ⟨-, -, -, -, -, -, -, -, -, monotone⟩ :=
      ranges_are_exact ⟨Int64.maxValue, Int64.minValue, Int64.minValue⟩
    exact (monotone 0 1 _ _ (by decide) (congrArg (·[0]?) elements)
      (congrArg (·[1]?) elements)).2 (by decide)

end Stencil
