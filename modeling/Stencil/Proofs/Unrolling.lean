import Stencil.Proofs.Filtering
import Stencil.Proofs.Splicing

/-!
# `Stencil/Proofs/Unrolling.lean` — a loop written out

What a loop goes through is settled before its first pass, and so is where it stands at each of
them. So a loop might as well be written out:

> **for each element in turn, an assignment to `loop`, one to the variables, and then the body**,

all in one list and in one scope. That it is one list is what makes an `extend` or an error in a
pass the end of the passes after it, and that it is one scope lets a pass see what was bound in an
earlier one. With nothing to go through there is no such list, and no scope either: a loop is its
`otherwise` then, and stands for it in the scope around the loop.
-/

set_option autoImplicit false

namespace Stencil

open Stencil.Action

/-! ## Passes -/

/-- What a loop does at one of its positions, as statements. -/
def onePass (vars : List String) (items : Sequence) (body : Body) (i : Nat) (item : Value) : Body :=
  .assign ["loop"] (some (.const (items.position i))) ::
    .assign vars (some (.const item)) :: body

/-- What a loop does from a position on, where these elements are left. -/
def unrolledFrom (vars : List String) (items : Sequence) (body : Body) (i : Nat)
    (rest : List Value) : Body :=
  (rest.zipIdx i).flatMap fun (item, i) => onePass vars items body i item

/-- The loop written out. -/
def unrolled (vars : List String) (items : Sequence) (body : Body) : Body :=
  unrolledFrom vars items body 0 items.toList

theorem renderAllWith_assign (jump : Jump) (names : List String) (value : Value) (rest : Body) :
    renderAllWith jump (.assign names (some (.const value)) :: rest) = (do
      assign names value
      renderAllWith jump rest) := rfl

theorem repeatRest_eq_unrolledFrom (jump : Jump) (vars : List String) (items : Sequence)
    (body : Body) (rest : List Value) :
    ∀ before : List Value, items.toList = before ++ rest →
      repeatRest vars items (renderAllWith jump body) rest.length =
        renderAllWith jump (unrolledFrom vars items body before.length rest) := by
  induction rest with
  | nil =>
    intro before split
    rfl
  | cons item rest ih =>
    intro before split
    have split' : items.toList = (before ++ [item]) ++ rest :=
      split.trans (List.append_cons before item rest)
    have others := ih (before ++ [item]) split'
    rw [List.length_append, List.length_singleton] at others
    have written : unrolledFrom vars items body before.length (item :: rest) =
        onePass vars items body before.length item ++
          unrolledFrom vars items body (before.length + 1) rest := by
      unfold unrolledFrom
      rw [List.zipIdx_cons, List.flatMap_cons]
    rw [List.length_cons, repeatRest_of_split split, written, onePass, List.cons_append,
      List.cons_append, renderAllWith_assign, renderAllWith_assign, renderAllWith_append]
    refine bind_congr fun _ => bind_congr fun _ => bind_congr fun flow => ?_
    cases flow with
    | proceed => exact others
    | delegated => rfl

theorem forEach_eq_unrolled (jump : Jump) (vars : List String) (items : Sequence) (body : Body) :
    forEach vars items (renderAllWith jump body) =
      renderAllWith jump (unrolled vars items body) := by
  have written := repeatRest_eq_unrolledFrom jump vars items body items.toList [] rfl
  rwa [Sequence.length_toList] at written

/-- **A loop is what it says, written out.** When its source has elements and the filter has a value
for each of them, a loop over at least one is its passes, one after the other in a list, in a scope
of their own; and a loop over none is its `otherwise`, if it has any. A source without elements is
remarked on, and that is all. -/
theorem loop_unrolls (bound : Nat) (vars : List String) (source : Expr) (filter : Option Expr)
    (body otherwise : Body) (s : Session) {value : Value}
    (evaluated : source.eval s.context.find? = .ok value) :
    let loop := Statement.loop vars source filter body otherwise
    (∀ items kept, value.toSequence? = some items →
      s.context.loopItems? vars filter items = .ok kept →
      (0 < kept.size →
        loop.render bound s = inScope (renderAll bound (unrolled vars kept body)) s) ∧
      (kept.size = 0 → loop.render bound s = renderAll bound otherwise s) ∧
      (kept.size = 0 → otherwise = [] → loop.render bound s = .done .proceed s)) ∧
    (value.toSequence? = none →
      loop.render bound s = .done .proceed (s.noticing (.notIterable value.text))) := by
  intro loop
  constructor
  · intro items kept elements found
    have goesOver : loop.render bound s = loopOver (jumpWithin bound) vars kept body otherwise s :=
      render_eq_loopOver evaluated elements found
    refine ⟨fun nonempty => ?_, fun empty => ?_, fun empty nothing => ?_⟩
    · rw [goesOver, loopOver_of_nonempty nonempty, forEach_eq_unrolled]
      rfl
    · rw [goesOver, loopOver_of_empty empty]
      rfl
    · rw [goesOver, loopOver_of_empty empty, nothing]
      rfl
  · exact loop_eq_of_scalar evaluated

/-- The second of three passes sees what the first has bound and then delegates. Of the same loop
over nothing there is left what its `otherwise` binds. -/
theorem loop_unrolls_until_extend :
    let body : Body := [.output (.var "last"), .assign ["last"] (some (.var "x")),
      .cond (.binary .equal (.var "x") (.const (.int 2))) [.extend "nowhere" true []] []]
    let loop (items : Sequence) : Statement :=
      .loop ["x"] (.const (.list items)) none body [.assign ["last"] (some (.const (.int 7)))]
    let numbers := Sequence.ofList [.int 1, .int 2, .int 3]
    let s := Session.start (.start .empty .empty {})
    (loop numbers).render 1 s = inScope (renderAll 1 (unrolled ["x"] numbers body)) s ∧
      ((loop numbers).render 1 s).session?.map (·.output) = some "1" ∧
      (loop (.ofList [])).render 1 s =
        renderAll 1 [.assign ["last"] (some (.const (.int 7)))] s := by
  intro body loop numbers s
  have three := loop_unrolls 1 ["x"] (.const (.list numbers)) none body
    [.assign ["last"] (some (.const (.int 7)))] s rfl
  have nothing := loop_unrolls 1 ["x"] (.const (.list (.ofList []))) none body
    [.assign ["last"] (some (.const (.int 7)))] s rfl
  refine ⟨(three.1 numbers numbers rfl rfl).1 (by decide), by decide +kernel, ?_⟩
  exact (nothing.1 _ _ rfl rfl).2.1 rfl

end Stencil
