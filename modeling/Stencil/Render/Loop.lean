import Stencil.Render.Action

/-!
# `Stencil/Render/Loop.lean` — the positions of a loop

A loop goes through its elements by position and never lists them, since the elements may be a
range too long to list and the body may leave the loop at the first one.

Before each rendering of the body the innermost scope is given `loop`, a map that says where the
loop stands, and then the variables; so **a variable that is itself called `loop` wins**. A
filter sees the variables only, in a scope of its own, and is done with all the elements before the
body is rendered for the first: what the body binds cannot change which elements are kept, and the
positions that `loop` counts are positions among those.

The numbers in `loop` are template integers. A loop over a range with more elements than there are
positive integers reports a length that has wrapped around.
-/

set_option autoImplicit false

namespace Stencil

/-- How rendering goes on after a statement. -/
inductive Flow where
  /-- With the next statement. -/
  | proceed
  /-- Not at all: an `extend` has taken over from the rest of the template. -/
  | delegated
deriving DecidableEq, Repr

/-- Where a loop stands at position `i`. The element before is absent at the first position and the
element after at the last, so that a template can ask whether they are defined.

`index` is the result of an addition and wraps at position `2 ^ 63 - 1`, as in an optimised build of
the renderer. A build that checks additions for overflow comes to a halt there instead. The other
counts are converted, and wrap in any build. -/
def Sequence.position (items : Sequence) (i : Nat) : Value :=
  let previous := match i with
    | 0 => none
    | j + 1 => items.get? j
  .map <| .ofList <|
    [("length", .int (Int64.ofNat items.size)),
      ("index", .int (Int64.ofNat i + 1)),
      ("index0", .int (Int64.ofNat i)),
      ("first", .bool (i == 0)),
      ("last", .bool (i + 1 == items.size))]
    ++ (previous.map (("previtem", ·))).toList
    ++ ((items.get? (i + 1)).map (("nextitem", ·))).toList

namespace Action

/-- The elements at the last `remaining` positions that pass a filter, after those already kept. -/
def keepRest (vars : List String) (filter : Expr) (items : Sequence) (kept : Array Value) :
    Nat → Action (Array Value)
  | 0 => return kept
  | remaining + 1 =>
    match items.get? (items.size - (remaining + 1)) with
    | none => return kept
    | some item => do
      assign vars item
      let verdict ← evaluate filter
      keepRest vars filter items (if verdict.isTruthy then kept.push item else kept) remaining

def filtered (vars : List String) (filter : Option Expr) (items : Sequence) : Action Sequence :=
  match filter with
  | none => return items
  | some filter => inScope do return .items (← keepRest vars filter items #[] items.size)

/-- Runs the body at the last `remaining` positions, until it delegates. -/
def repeatRest (vars : List String) (items : Sequence) (body : Action Flow) : Nat → Action Flow
  | 0 => return .proceed
  | remaining + 1 =>
    let i := items.size - (remaining + 1)
    match items.get? i with
    | none => return .proceed
    | some item => do
      assign ["loop"] (items.position i)
      assign vars item
      match ← body with
      | .proceed => repeatRest vars items body remaining
      | .delegated => return .delegated

def forEach (vars : List String) (items : Sequence) (body : Action Flow) : Action Flow :=
  repeatRest vars items body items.size

/-! ## One position after the other

Where the elements are taken apart into those that a loop has been through and the rest, the number
of the former is its position, and the number of the latter is how many positions remain. -/

section Split

variable {items : Sequence} {before rest : List Value} {item : Value}

theorem keepRest_of_split (split : items.toList = before ++ item :: rest) (vars : List String)
    (filter : Expr) (kept : Array Value) :
    keepRest vars filter items kept (rest.length + 1) = (do
      assign vars item
      let verdict ← evaluate filter
      keepRest vars filter items (if verdict.isTruthy then kept.push item else kept)
        rest.length) := by
  have position : items.size - (rest.length + 1) = before.length := by
    rw [Sequence.size_of_split split, List.length_cons, Nat.add_sub_cancel]
  simp only [keepRest, position, Sequence.get?_of_split split]

theorem repeatRest_of_split (split : items.toList = before ++ item :: rest) (vars : List String)
    (body : Action Flow) :
    repeatRest vars items body (rest.length + 1) = (do
      assign ["loop"] (items.position before.length)
      assign vars item
      match ← body with
      | .proceed => repeatRest vars items body rest.length
      | .delegated => return .delegated) := by
  have position : items.size - (rest.length + 1) = before.length := by
    rw [Sequence.size_of_split split, List.length_cons, Nat.add_sub_cancel]
  simp only [repeatRest, position, Sequence.get?_of_split split]

end Split

end Action

end Stencil
