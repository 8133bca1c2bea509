import Stencil.Proofs.Ordering
import Stencil.Proofs.Positions

/-!
# `Stencil/Proofs/Equivalence.lean` — how far equality of values is an equivalence

It is symmetric without exception. The other two laws have one exception each, and both exceptions
are about numbers:

* NaN differs from itself, and a value is equal to itself just when there is no NaN in it
  (`Value.equals_self_iff`);
* of three values, each equal to the next, the first is equal to the last **unless there is a
  position at which the two hold different integers** (`Value.equals_trans_iff`). The value between
  them then has a float there, and the two integers are rounded to it, which takes 54 bits.

So on values without floats equality is an equivalence, and this cannot be said of values without
NaN.

## One induction for each law

Lists, ranges and maps have no arguments of their own here. Equality is taken apart once into what
is decided on the outside of two values and what is decided one step inside of them:

> **two values are equal if they agree on the outside and are equal after every step into them**

(`Value.equals_iff_steps`). What has to be known about `Value.AgreeOutside`, which goes into no
depth, is found by cases. The laws of equality follow by induction along the steps.
-/

set_option autoImplicit false

namespace Stencil

open Binary64 (Place placeOfInt)

namespace Value

/-! ## Equality by steps -/

/-- Beside a float, equality is that of the places. -/
theorem equals_iff_places {l r : Value} (float : l.isFloat ∨ r.isFloat) :
    l.equals r ↔ ∃ p, l.place? = some p ∧ r.place? = some p := by
  cases l <;> cases r <;>
    simp_all [isFloat, equals, place?, Binary64.beq_iff, Binary64.place?_ofInt64]

theorem exists_int_of_place? {v : Value} {p : Place} (place : v.place? = some p)
    (noFloat : ¬ v.isFloat) : ∃ n, v = .int n := by
  cases v with
  | int n => exact ⟨n, rfl⟩
  | float => exact absurd rfl noFloat
  | _ => cases place

/-- The two values agree in all that can be seen of them without a step inside: they are one value,
lists of one length, maps with the same keys, or numbers with one place of which one is a float. -/
inductive AgreeOutside : Value → Value → Prop where
  | same {v : Value} (number : v.isNaN = false) : AgreeOutside v v
  | lists {s t : Sequence} (size : s.size = t.size) : AgreeOutside (.list s) (.list t)
  | maps {fields fields' : Fields none} (keys : fields.keys = fields'.keys) :
      AgreeOutside (.map fields) (.map fields')
  | floats {v w : Value} {p : Place} (float : v.isFloat ∨ w.isFloat) (left : v.place? = some p)
      (right : w.place? = some p) : AgreeOutside v w

theorem equals_iff_agreeOutside {v w : Value} (noList : v.kind ≠ .list) (noMap : v.kind ≠ .map) :
    v.equals w ↔ v.AgreeOutside w := by
  by_cases float : v.isFloat ∨ w.isFloat
  · rw [equals_iff_places float]
    constructor
    · rintro ⟨p, left, right⟩
      exact .floats float left right
    · intro outside
      cases outside with
      | same number =>
        cases v with
        | float x =>
          obtain ⟨p, place⟩ := Option.isSome_iff_exists.1 (Binary64.isSome_place?_iff.2 number)
          exact ⟨p, place, place⟩
        | _ => simp [isFloat] at float
      | lists => exact absurd rfl noList
      | maps => exact absurd rfl noMap
      | floats _ left right => exact ⟨_, left, right⟩
  · -- without a float only a value itself is equal to it
    constructor
    · intro equal
      obtain rfl : v = w := by
        cases v <;> cases w <;> simp_all [equals, isFloat, kind]
      refine .same ?_
      cases v <;> simp_all [isFloat, isNaN]
    · intro outside
      cases outside with
      | same => cases v <;> simp_all [equals, isFloat, kind]
      | lists => exact absurd rfl noList
      | maps => exact absurd rfl noMap
      | floats float' => exact absurd float' float

theorem AgreeOutside.list_iff {s : Sequence} {w : Value} :
    (Value.list s).AgreeOutside w ↔ ∃ t, w = .list t ∧ s.size = t.size := by
  constructor
  · intro outside
    cases outside with
    | same => exact ⟨s, rfl, rfl⟩
    | lists size => exact ⟨_, rfl, size⟩
    | floats _ left => cases left
  · rintro ⟨t, rfl, size⟩
    exact .lists size

theorem AgreeOutside.map_iff {fields : Fields none} {w : Value} :
    (Value.map fields).AgreeOutside w ↔ ∃ fields', w = .map fields' ∧ fields.keys = fields'.keys := by
  constructor
  · intro outside
    cases outside with
    | same => exact ⟨fields, rfl, rfl⟩
    | maps keys => exact ⟨_, rfl, keys⟩
    | floats _ left => cases left
  · rintro ⟨fields', rfl, keys⟩
    exact .maps keys

/-- **Two values are equal if they agree on the outside and are equal after every step.** -/
theorem equals_iff_steps {v w : Value} : v.equals w ↔ v.AgreeOutside w ∧
    ∀ step a b, v.step? step = some a → w.step? step = some b → a.equals b := by
  cases v with
  | list s =>
    rw [AgreeOutside.list_iff]
    constructor
    · intro equal
      cases w with
      | list t =>
        obtain ⟨size, elements⟩ := Sequence.equals_iff.1 equal
        refine ⟨⟨t, rfl, size⟩, fun step a b left right => ?_⟩
        cases step with
        | element i => exact elements i a b left right
        | field => cases left
      | _ => cases equal
    · rintro ⟨⟨t, rfl, size⟩, inside⟩
      exact Sequence.equals_iff.2 ⟨size, fun i => inside (.element i)⟩
  | map fields =>
    rw [AgreeOutside.map_iff]
    constructor
    · intro equal
      cases w with
      | map fields' =>
        obtain ⟨keys, values⟩ := (Fields.equals_iff fields fields').1 equal
        refine ⟨⟨fields', rfl, keys⟩, fun step a b left right => ?_⟩
        cases step with
        | element => cases left
        | field key => exact values key a b left right
      | _ => cases equal
    · rintro ⟨⟨fields', rfl, keys⟩, inside⟩
      exact (Fields.equals_iff fields fields').2 ⟨keys, fun key => inside (.field key)⟩
  | _ =>
    -- no step leads anywhere from here
    rw [equals_iff_agreeOutside (by simp [kind]) (by simp [kind])]
    refine ⟨fun outside => ⟨outside, fun step a b reached => ?_⟩, And.left⟩
    cases reached

namespace AgreeOutside

theorem self_iff {v : Value} : v.AgreeOutside v ↔ v.isNaN = false := by
  refine ⟨fun outside => ?_, .same⟩
  cases outside with
  | same number => exact number
  | lists | maps => rfl
  | floats _ left =>
    cases v with
    | float x => exact Binary64.isSome_place?_iff.1 (Option.isSome_of_eq_some left)
    | _ => rfl

theorem symm {v w : Value} (outside : v.AgreeOutside w) : w.AgreeOutside v := by
  cases outside with
  | same number => exact .same number
  | lists size => exact .lists size.symm
  | maps keys => exact .maps keys.symm
  | floats float left right => exact .floats float.symm right left

theorem step?_of_place? {v : Value} {p : Place} (place : v.place? = some p) (step : Step) :
    v.step? step = none := by
  cases v with
  | int | float => rfl
  | _ => cases place

/-- Of two values that agree on the outside, the same steps lead into both. -/
theorem exists_step? {v w a : Value} {step : Step} (outside : v.AgreeOutside w)
    (reached : v.step? step = some a) : ∃ b, w.step? step = some b := by
  rw [← Option.isSome_iff_exists]
  cases outside with
  | same => exact Option.isSome_of_eq_some reached
  | @lists s t size =>
    cases step with
    | element i =>
      rw [step?, Sequence.isSome_get?, ← size, ← Sequence.isSome_get?]
      exact Option.isSome_of_eq_some reached
    | field => cases reached
  | @maps fields fields' keys =>
    cases step with
    | element => cases reached
    | field key =>
      rw [step?, ← Fields.mem_keys_iff, ← keys, Fields.mem_keys_iff]
      exact Option.isSome_of_eq_some reached
  | floats _ left =>
    rw [step?_of_place? left] at reached
    cases reached

/-- Agreement is passed on, unless it goes from an integer to another one by way of a float. -/
theorem trans_or {a b c : Value} (first : a.AgreeOutside b) (second : b.AgreeOutside c) :
    a.AgreeOutside c ∨ ∃ m n, a = .int m ∧ c = .int n := by
  cases first with
  | same => exact .inl second
  | lists size =>
    cases second with
    | same => exact .inl (.lists size)
    | lists size' => exact .inl (.lists (size.trans size'))
    | floats _ left => cases left
  | maps keys =>
    cases second with
    | same => exact .inl (.maps keys)
    | maps keys' => exact .inl (.maps (keys.trans keys'))
    | floats _ left => cases left
  | floats float left right =>
    cases second with
    | same => exact .inl (.floats float left right)
    | lists => cases right
    | maps => cases right
    | floats float' left' right' =>
      obtain rfl := Option.some.inj (left'.symm.trans right)
      by_cases either : a.isFloat ∨ c.isFloat
      · exact .inl (.floats either left right')
      · obtain ⟨m, rfl⟩ := exists_int_of_place? left (mt .inl either)
        obtain ⟨n, rfl⟩ := exists_int_of_place? right' (mt .inr either)
        exact .inr ⟨m, n, rfl, rfl⟩

end AgreeOutside

/-! ## Symmetry -/

theorem equals_comm : ∀ v w : Value, v.equals w = w.equals v := by
  refine induction_on_steps fun v ih w => ?_
  rw [Bool.eq_iff_iff, equals_iff_steps, equals_iff_steps]
  refine and_congr ⟨.symm, .symm⟩
    ⟨fun all step b a right left => ?_, fun all step a b left right => ?_⟩
  · rw [← ih step a left b]
    exact all step a b left right
  · rw [ih step a left b]
    exact all step b a right left

/-! ## Reflexivity -/

theorem equals_self_iff : ∀ v : Value, v.equals v ↔ v.Everywhere fun w => w.isNaN = false := by
  refine induction_on_steps fun v ih => ?_
  rw [equals_iff_steps, everywhere_iff, AgreeOutside.self_iff]
  refine and_congr Iff.rfl ⟨fun all step a reached => ?_, fun all step a b left right => ?_⟩
  · exact (ih step a reached).1 (all step a a reached reached)
  · obtain rfl := Option.some.inj (left.symm.trans right)
    exact (ih step a left).2 (all step a left)

/-! ## Transitivity -/

/-- What stands anywhere in a value is equal to what stands there in an equal one. -/
theorem exists_at?_of_equals {v w : Value} (equal : v.equals w) {path : List Step} {a : Value}
    (found : v.at? path = some a) : ∃ b, w.at? path = some b ∧ a.equals b := by
  induction path generalizing v w with
  | nil => exact ⟨w, rfl, Option.some.inj found ▸ equal⟩
  | cons step path ih =>
    obtain ⟨v', reached, found⟩ := Option.bind_eq_some_iff.1 found
    obtain ⟨outside, inside⟩ := equals_iff_steps.1 equal
    obtain ⟨w', reached'⟩ := outside.exists_step? reached
    obtain ⟨b, found', equal'⟩ := ih (inside step v' w' reached reached') found
    exact ⟨b, Option.bind_eq_some_iff.2 ⟨w', reached', found'⟩, equal'⟩

/-- Of three values, each equal to the next, the first is equal to the last unless the two have
different integers somewhere. -/
theorem equals_trans_iff : ∀ a b c : Value, a.equals b → b.equals c → (a.equals c ↔
    ∀ path m n, a.at? path = some (.int m) → c.at? path = some (.int n) → m = n) := by
  refine induction_on_steps fun a ih b c first second => ?_
  constructor
  · intro equal path m n left right
    obtain ⟨v, found, same⟩ := exists_at?_of_equals equal left
    obtain rfl := Option.some.inj (found.symm.trans right)
    exact beq_iff_eq.1 same
  · intro same
    rw [equals_iff_steps] at first second ⊢
    refine ⟨?_, fun step v w left right => ?_⟩
    · obtain outside | ⟨m, n, rfl, rfl⟩ := first.1.trans_or second.1
      · exact outside
      · obtain rfl := same [] m n rfl rfl
        exact .same rfl
    · obtain ⟨u, middle⟩ := first.1.exists_step? left
      have inside := ih step v left u w (first.2 step v u left middle)
        (second.2 step u w middle right)
      refine inside.2 fun path m n found found' => ?_
      exact same (step :: path) m n (Option.bind_eq_some_iff.2 ⟨v, left, found⟩)
        (Option.bind_eq_some_iff.2 ⟨w, right, found'⟩)

/-- An integer is equal to nothing but itself and floats. -/
theorem eq_or_float_of_int_equals {m : Int64} {v : Value} (equal : (Value.int m).equals v) :
    v = .int m ∨ ∃ x, v = .float x ∧ Binary64.ofInt64 m == x := by
  cases v with
  | int n => exact .inl (congrArg _ (beq_iff_eq.1 equal).symm)
  | float x => exact .inr ⟨x, rfl, equal⟩
  | _ => cases equal

/-- Where two different integers are equal to one value, that is a float which both are rounded
to. -/
theorem exists_float_of_ne {m n : Int64} {v : Value} (left : (Value.int m).equals v)
    (right : v.equals (.int n)) (different : m ≠ n) :
    ∃ x, v = .float x ∧ Binary64.ofInt64 m == x ∧ Binary64.ofInt64 n == x := by
  rw [equals_comm] at right
  obtain rfl | ⟨x, rfl, rounded⟩ := eq_or_float_of_int_equals left
  · exact absurd (beq_iff_eq.1 right).symm different
  · exact ⟨x, rfl, rounded, right⟩

/-- Integers of no more than 53 bits are told apart by the floats they are rounded to. -/
theorem magnitude_of_rounded {m n : Int64} {x : Float} (left : Binary64.ofInt64 m == x)
    (right : Binary64.ofInt64 n == x) (different : m ≠ n) : 2 ^ 53 ≤ m.toInt.natAbs := by
  obtain ⟨p, place, at_x⟩ := Binary64.beq_iff.1 left
  obtain ⟨q, place', at_x'⟩ := Binary64.beq_iff.1 right
  rw [Binary64.place?_ofInt64, Option.some_inj] at place place'
  have same : placeOfInt m.toInt = placeOfInt n.toInt := by
    rw [place, place']
    exact Option.some.inj (at_x.symm.trans at_x')
  by_contra short
  rw [Nat.not_le] at short
  rcases Int.lt_trichotomy m.toInt n.toInt with less | equal | greater
  · exact absurd same (ne_of_lt (Binary64.placeOfInt_lt less (.inl short)))
  · exact different (Int64.toInt_inj.1 equal)
  · exact absurd same (ne_of_gt (Binary64.placeOfInt_lt greater (.inr short)))

/-- The value holds no float, at any depth. -/
def FloatFree (v : Value) : Prop := v.Everywhere fun w => w.isFloat = false

theorem FloatFree.equals_self {v : Value} (free : v.FloatFree) : v.equals v := by
  refine (equals_self_iff v).2 fun path w found => ?_
  have noFloat := free path w found
  cases w with
  | float => cases noFloat
  | _ => rfl

theorem FloatFree.equals_trans {a b c : Value} (free : b.FloatFree) (first : a.equals b)
    (second : b.equals c) : a.equals c := by
  refine (equals_trans_iff a b c first second).2 fun path m n left right => ?_
  obtain ⟨v, found, equal⟩ := exists_at?_of_equals first left
  obtain ⟨w, found', equal'⟩ := exists_at?_of_equals second found
  obtain rfl := Option.some.inj (found'.symm.trans right)
  by_contra different
  obtain ⟨x, rfl, -⟩ := exists_float_of_ne equal equal' different
  cases free path _ found

end Value

/-- **Equality is symmetric and goes by contents.** It is an equivalence where there are no floats,
and in general only NaN keeps a value from being equal to itself. Lists are equal that have one size
and equal elements, however they are kept; maps are equal that have the same keys and equal values.
If two maps have one size it is enough to look up in one of them what the other one holds. -/
theorem equality_goes_by_contents :
    (∀ v w : Value, v.equals w = w.equals v) ∧
    (∀ v : Value, v.equals v ↔ v.Everywhere fun w => w.isNaN = false) ∧
    (Equivalence fun v w : { v : Value // v.FloatFree } => v.1.equals w.1) ∧
    (∀ s t : Sequence, (Value.list s).equals (.list t) ↔
      s.size = t.size ∧ ∀ i v w, s.get? i = some v → t.get? i = some w → v.equals w) ∧
    (∀ f g : Fields none, (Value.map f).equals (.map g) ↔
      (∀ key, key ∈ f.keys ↔ key ∈ g.keys) ∧
        ∀ key v w, f.get? key = some v → g.get? key = some w → v.equals w) ∧
    ∀ f g : Fields none, (Value.map f).equals (.map g) ↔
      f.size = g.size ∧ ∀ key v, f.get? key = some v → ∃ w, g.get? key = some w ∧ v.equals w := by
  refine ⟨Value.equals_comm, Value.equals_self_iff, ?equivalence, fun s t => Sequence.equals_iff,
    fun f g => ?maps, fun f g => Fields.equals_iff_of_size f g⟩
  case equivalence =>
    exact
      { refl := fun v => v.2.equals_self
        symm := fun {v w} equal => Value.equals_comm v w ▸ equal
        trans := fun {_ w _} first second => w.2.equals_trans first second }
  case maps =>
    rw [← Fields.keys_eq_iff]
    exact Fields.equals_iff f g

/-- A range beside a list of floats, each in a map of two fields, and the same beside a list that
holds NaN. -/
theorem equality_goes_by_contents_of_a_range :
    let counted := Value.map (.ofList [("a", .list (.range ⟨7, 3, -2⟩)), ("b", .empty)])
    let written := Value.map (.ofList [("b", .empty), ("a", .ofList [.float 7, .int 5])])
    let broken := Value.map (.ofList [("a", .ofList [.float 7, .float (0 / 0)]), ("b", .empty)])
    counted.equals written ∧ written.equals counted ∧ ¬ broken.equals broken := by
  intro counted written broken
  have equal : counted.equals written := rfl
  refine ⟨equal, ?_, fun self => ?_⟩
  · rw [← equality_goes_by_contents.1 counted written]
    exact equal
  · have noNaN := (equality_goes_by_contents.2.1 broken).1 self
    cases noNaN [.field "a", .element 1] (.float (0 / 0)) rfl

/-! ## Three values, each equal to the next -/

/-- **Equality is transitive but for rounding.** Of three values, each equal to the next, the first
is equal to the last unless the two have different integers at one position. The value between them
then has a float there, which both integers are rounded to, and both have more than 53 bits. -/
theorem equality_is_transitive_but_for_rounding (a b c : Value) (first : a.equals b)
    (second : b.equals c) :
    (a.equals c ↔
      ∀ path m n, a.at? path = some (.int m) → c.at? path = some (.int n) → m = n) ∧
    ∀ path m n, a.at? path = some (.int m) → c.at? path = some (.int n) → m ≠ n →
      2 ^ 53 ≤ m.toInt.natAbs ∧ 2 ^ 53 ≤ n.toInt.natAbs ∧
        ∃ x, b.at? path = some (.float x) ∧ Binary64.ofInt64 m == x ∧ Binary64.ofInt64 n == x := by
  refine ⟨Value.equals_trans_iff a b c first second, fun path m n left right different => ?_⟩
  obtain ⟨v, middle, equal⟩ := Value.exists_at?_of_equals first left
  obtain ⟨w, right', equal'⟩ := Value.exists_at?_of_equals second middle
  obtain rfl := Option.some.inj (right'.symm.trans right)
  obtain ⟨x, rfl, roundsFirst, roundsLast⟩ := Value.exists_float_of_ne equal equal' different
  exact ⟨Value.magnitude_of_rounded roundsFirst roundsLast different,
    Value.magnitude_of_rounded roundsLast roundsFirst different.symm,
    x, middle, roundsFirst, roundsLast⟩

/-- Two integers with a float between them, each in a list in a map. The second elements of the lists
are no obstacle. -/
theorem equality_is_transitive_but_for_rounding_in_depth :
    let a := Value.map (.ofList [("a", .ofList [.int 9007199254740993, .int 7])])
    let b := Value.map (.ofList [("a", .ofList [.float 9007199254740992, .float 7])])
    let c := Value.map (.ofList [("a", .ofList [.int 9007199254740992, .int 7])])
    a.equals b ∧ b.equals c ∧ ¬ a.equals c ∧
      ∃ x, b.at? [.field "a", .element 0] = some (.float x) ∧
        Binary64.ofInt64 9007199254740993 == x ∧ Binary64.ofInt64 9007199254740992 == x := by
  intro a b c
  have first : a.equals b := rfl
  have second : b.equals c := rfl
  have different : (9007199254740993 : Int64) ≠ 9007199254740992 := by decide
  obtain ⟨equal_iff, rounded⟩ := equality_is_transitive_but_for_rounding a b c first second
  refine ⟨first, second, fun equal => ?_, ?_⟩
  · exact different (equal_iff.1 equal [.field "a", .element 0] _ _ rfl rfl)
  · exact (rounded [.field "a", .element 0] _ _ rfl rfl different).2.2

/-- **Equality is not transitive**, not even on values without NaN: an integer of 54 bits is equal
to a float that another integer is equal to. -/
theorem equality_is_not_transitive :
    ¬ ∀ a b c : Value, (∀ v ∈ [a, b, c], v.Everywhere fun w => w.isNaN = false) →
      a.equals b → b.equals c → a.equals c := by
  intro transitive
  have noNaN {v : Value} (self : v.equals v) := (Value.equals_self_iff v).1 self
  have equal := transitive (.int 9007199254740993) (.float 9007199254740992) (.int 9007199254740992)
    (by simpa using ⟨noNaN rfl, noNaN rfl, noNaN rfl⟩) rfl rfl
  cases equal

end Stencil
