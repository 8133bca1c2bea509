import Mathlib.Data.List.Sort
import Stencil.Value.Equality
import Stencil.Value.View

/-!
# `Stencil/Proofs/Positions.lean` — positions inside a value, and equality at them

A value holds others when it is a list or a map, and these may hold others again. A *step* goes from
a value to an element of a list or to a field of a map, a *position* is a path of steps, and
`v.at? path` is what stands there. "At any depth" in a statement about a value means at any
position of it.

What holds of a value if it holds of all that are a step away from it holds of every value
(`Value.induction_on_steps`). A list, a map and a scalar are then one case and not three, and a list
that is kept as a range is in no way special, since a step goes into it as into any other.

Equality compares the elements of two lists in order, and the entries of two maps in the one order
that both are kept in. Here it is put in terms of what steps lead to:

> **lists are equal of one size with equal elements, maps with the same keys and equal values**

(`Sequence.equals_iff`, `Fields.equals_iff`), and since no map has a key twice it is enough to count
two maps and to look up in one of them what the other holds (`Fields.equals_iff_of_size`).
-/

set_option autoImplicit false

namespace Stencil

/-! ## Positions -/

/-- A step from a list to an element, or from a map to a field. -/
inductive Step where
  | element (i : Nat)
  | field (key : String)
deriving DecidableEq, Repr

namespace Value

def step? : Value → Step → Option Value
  | .list elements, .element i => elements.get? i
  | .map fields, .field key => fields.get? key
  | _, _ => none

/-- What stands at the end of a path, if it leads anywhere. -/
def at? (v : Value) : List Step → Option Value
  | [] => some v
  | step :: rest => (v.step? step).bind fun w => w.at? rest

example :
    (ofList [.int 4, .list (.range ⟨7, 0, -2⟩)]).at? [.element 1, .element 2] = some (.int 3) := rfl

/-- The property holds of the value and of all values in it, at any depth. -/
def Everywhere (p : Value → Prop) (v : Value) : Prop := ∀ path w, v.at? path = some w → p w

theorem everywhere_iff {p : Value → Prop} {v : Value} :
    v.Everywhere p ↔ p v ∧ ∀ step w, v.step? step = some w → w.Everywhere p := by
  constructor
  · intro all
    refine ⟨all [] v rfl, fun step w reached path u found => all (step :: path) u ?_⟩
    rw [at?, reached]
    exact found
  · rintro ⟨here, inside⟩ path u found
    cases path with
    | nil => exact Option.some.inj found ▸ here
    | cons step path =>
      obtain ⟨w, reached, found⟩ := Option.bind_eq_some_iff.1 found
      exact inside step w reached path u found

end Value

theorem Sequence.mem_toList_of_get? {s : Sequence} {i : Nat} {v : Value}
    (found : s.get? i = some v) : v ∈ s.toList := by
  rw [← getElem?_toList] at found
  exact List.mem_of_getElem? found

theorem Fields.mem_toList_of_get? {lo : Option String} {fields : Fields lo} {key : String}
    {v : Value} (found : fields.get? key = some v) : (key, v) ∈ fields.toList := by
  obtain ⟨before, after, split, -⟩ := List.lookup_eq_some_iff.1 found
  rw [split]
  simp

/-! ## Induction along the steps -/

/-- The property holds of a value if it holds of all that are a step away from it. -/
def Value.Progressive (P : Value → Prop) : Prop :=
  ∀ v : Value, (∀ step w, v.step? step = some w → P w) → P v

/-- The lists and maps, and the arrays and lists they are made of, only pass the property on from
the values in them. -/
theorem Value.induction_on_steps {P : Value → Prop} (progressive : Value.Progressive P) (v : Value) :
    P v := by
  have scalar {v : Value} (inside : ∀ step, v.step? step = none) : P v := by
    refine progressive v fun step w reached => ?_
    rw [inside] at reached
    cases reached
  refine @Value.rec P (fun s => ∀ w ∈ s.toList, P w)
    (fun _ fields => ∀ entry ∈ fields.toList, P entry.2) (fun xs => ∀ w ∈ xs.toList, P w)
    (fun vs => ∀ w ∈ vs, P w) ?empty ?bool ?int ?float ?string ?list ?map ?items ?range ?noFields
    ?field ?array ?noElements ?element v
  case empty => exact scalar fun _ => rfl
  case bool | int | float | string => exact fun _ => scalar fun _ => rfl
  case list =>
    intro elements ih
    refine progressive _ fun step w reached => ?_
    cases step with
    | element i => exact ih w (Sequence.mem_toList_of_get? reached)
    | field => cases reached
  case map =>
    intro fields ih
    refine progressive _ fun step w reached => ?_
    cases step with
    | element => cases reached
    | field key => exact ih (key, w) (Fields.mem_toList_of_get? reached)
  case items => exact fun xs ih => ih
  case range =>
    intro r w mem
    obtain ⟨n, -, rfl⟩ := List.mem_map.1 mem
    exact scalar fun _ => rfl
  case noFields => exact fun {_} => List.forall_mem_nil _
  case field =>
    intro _ key above value rest first others
    exact List.forall_mem_cons.2 ⟨first, others⟩
  case array => exact fun xs ih => ih
  case noElements => exact List.forall_mem_nil _
  case element =>
    intro first rest here others
    exact List.forall_mem_cons.2 ⟨here, others⟩

/-! ## Equality of lists and of maps -/

theorem Value.allEqual_iff {vs ws : List Value} : Value.allEqual vs ws ↔
    vs.length = ws.length ∧
      ∀ (i : Nat) (v w : Value), vs[i]? = some v → ws[i]? = some w → v.equals w := by
  induction vs generalizing ws with
  | nil => cases ws <;> simp [allEqual]
  | cons v vs ih =>
    cases ws with
    | nil => simp [allEqual]
    | cons w ws =>
      rw [allEqual, Bool.and_eq_true, ih]
      constructor
      · rintro ⟨first, length, others⟩
        refine ⟨congrArg (· + 1) length, fun i a b left right => ?_⟩
        cases i with
        | zero =>
          cases left
          cases right
          exact first
        | succ i => exact others i a b left right
      · rintro ⟨length, all⟩
        exact ⟨all 0 v w rfl rfl, Nat.succ.inj length, fun i => all (i + 1)⟩

/-- Two lists are equal if they have the same length and equal elements at each position. -/
theorem Sequence.equals_iff {s t : Sequence} : s.equals t ↔
    s.size = t.size ∧ ∀ i v w, s.get? i = some v → t.get? i = some w → v.equals w := by
  rw [equals_eq, Value.allEqual_iff, length_toList, length_toList]
  simp only [getElem?_toList]

namespace Fields

theorem get?_bound {key : String} (fields : Fields (some key)) : fields.get? key = none := by
  rw [← Option.not_isSome_iff_eq_none, ← mem_keys_iff]
  exact fun mem => String.lt_irrefl key (lt_of_mem_keys fields key mem key rfl)

theorem keys_cons {lo : Option String} (key : String) (above : ∀ l ∈ lo, l < key) (value : Value)
    (rest : Fields (some key)) : (cons key above value rest).keys = key :: rest.keys := rfl

theorem length_keys {lo : Option String} (fields : Fields lo) :
    fields.keys.length = fields.size := by
  rw [keys, List.length_map, size]

/-- Two maps are equal if they have the same keys and equal values under each. -/
theorem equals_iff : ∀ {lo lo' : Option String} (fields : Fields lo) (fields' : Fields lo'),
    fields.equals fields' ↔ fields.keys = fields'.keys ∧
      ∀ key v w, fields.get? key = some v → fields'.get? key = some w → v.equals w
  | _, _, .nil, .nil => by simp [equals, keys, toList]
  | _, _, .nil, .cons .. => by simp [equals, keys, toList]
  | _, _, .cons .., .nil => by simp [equals, keys, toList]
  | _, _, .cons key above value rest, .cons key' above' value' rest' => by
    rw [equals, Bool.and_eq_true, Bool.and_eq_true, beq_iff_eq, equals_iff rest rest', keys_cons,
      keys_cons, List.cons_eq_cons]
    constructor
    · rintro ⟨⟨rfl, first⟩, keys, others⟩
      refine ⟨⟨rfl, keys⟩, fun name v w left right => ?_⟩
      rw [get?_cons] at left right
      by_cases same : name = key
      · rw [if_pos same] at left right
        cases left
        cases right
        exact first
      · rw [if_neg same] at left right
        exact others name v w left right
    · rintro ⟨⟨rfl, keys⟩, all⟩
      have first : value.equals value' := all key value value' (by simp) (by simp)
      refine ⟨⟨rfl, first⟩, keys, fun name v w left right => all name v w ?_ ?_⟩
      all_goals
        have other : name ≠ key := by
          rintro rfl
          rw [get?_bound] at left
          cases left
        rw [get?_cons, if_neg other]
        assumption

/-- The keys of a map are found out from which of them there are. -/
theorem keys_eq_iff {lo lo' : Option String} {fields : Fields lo} {fields' : Fields lo'} :
    fields.keys = fields'.keys ↔ ∀ key, key ∈ fields.keys ↔ key ∈ fields'.keys := by
  refine ⟨fun same key => by rw [same], fun same => ?_⟩
  exact fields.pairwise_keys.eq_of_mem_iff fields'.pairwise_keys same

/-- Where there are as many keys, it is enough that those of one map are found in the other. -/
theorem keys_eq_of_subset {lo lo' : Option String} {fields : Fields lo} {fields' : Fields lo'}
    (size : fields.size = fields'.size) (subset : fields.keys ⊆ fields'.keys) :
    fields.keys = fields'.keys := by
  have sublist := List.sublist_of_subperm_of_pairwise
    (List.subperm_of_subset fields.pairwise_keys.nodup subset)
    fields.pairwise_keys fields'.pairwise_keys
  refine sublist.eq_of_length ?_
  rwa [length_keys, length_keys]

/-- To compare two maps it is enough to count them and to look up in one what the other holds. -/
theorem equals_iff_of_size {lo lo' : Option String} (fields : Fields lo) (fields' : Fields lo') :
    fields.equals fields' ↔ fields.size = fields'.size ∧
      ∀ key v, fields.get? key = some v → ∃ w, fields'.get? key = some w ∧ v.equals w := by
  rw [equals_iff]
  constructor
  · rintro ⟨keys, equal⟩
    refine ⟨by rw [← length_keys, keys, length_keys], fun key v found => ?_⟩
    have there : key ∈ fields'.keys := keys ▸ mem_keys_iff.2 (Option.isSome_of_eq_some found)
    obtain ⟨w, found'⟩ := Option.isSome_iff_exists.1 (mem_keys_iff.1 there)
    exact ⟨w, found', equal key v w found found'⟩
  · rintro ⟨size, equal⟩
    refine ⟨keys_eq_of_subset size fun key mem => ?_, fun key v w found found' => ?_⟩
    · obtain ⟨v, found⟩ := Option.isSome_iff_exists.1 (mem_keys_iff.1 mem)
      obtain ⟨w, found', -⟩ := equal key v found
      exact mem_keys_iff.2 (Option.isSome_of_eq_some found')
    · obtain ⟨u, there, same⟩ := equal key v found
      exact Option.some.inj (there.symm.trans found') ▸ same

end Fields

end Stencil
