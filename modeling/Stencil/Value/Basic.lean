import Stencil.Value.Range

/-!
# `Stencil/Value/Basic.lean` — the values a template computes with

Three types, declared together because each holds the others: a `Value` may be a list or a map, a
`Sequence` is what a list value holds, and `Fields` is what a map value holds.

## A map that is out of order cannot be written down

A map has at most one value for a key, and wherever its entries are listed they come in ascending
order of the keys. Both facts are in the type. `Fields lo` is a list of entries whose keys all lie
above `lo`: each entry carries a proof that its key does, and the entries after it lie above *its*
key. So a map value needs no well-formedness hypothesis in any statement about it, and two maps
with the same entries are the same value.

Keys are compared as strings are everywhere in the library, by code point; that is also the
order of their UTF-8 bytes.

## A list may be a range

`Sequence.range` is a list that has not been written out (`Stencil/Value/Range.lean`). Nothing a
template can do tells it from the list of its elements, but a render that only looks at the first
few of them, or only asks for the length, costs no more than that.
-/

set_option autoImplicit false

namespace Stencil

mutual

inductive Value where
  /-- The value of a name that is not bound and of a field that is not there. -/
  | empty
  | bool (b : Bool)
  | int (n : Int64)
  | float (x : Float)
  | string (s : String)
  | list (elements : Sequence)
  | map (fields : Fields none)

inductive Sequence where
  | items (xs : Array Value)
  | range (r : Range)

/-- Entries in ascending order of their keys, all of which lie above `lo`. -/
inductive Fields : Option String → Type where
  | nil {lo : Option String} : Fields lo
  | cons {lo : Option String} (key : String) (above : ∀ l ∈ lo, l < key) (value : Value)
      (rest : Fields (some key)) : Fields lo

end

instance : Inhabited Value := ⟨.empty⟩

end Stencil
