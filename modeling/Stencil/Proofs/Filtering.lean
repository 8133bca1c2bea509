import Stencil.Proofs.Frame

/-!
# `Stencil/Proofs/Filtering.lean` — a filter is done before the loop begins

The filter of a loop is evaluated for one element after the other, and all of them take turns in one
scope: what was bound for an element is still there when the next one is looked at. None of it can
be seen, because each element binds the same names as the one before. So

> **whether an element passes is a matter of that element alone**, in the scopes around the loop.

The elements that pass make up a list, and from there on the filter has no part in the loop: what is
counted, what comes before and after, and whether there was anything at all, is as in a loop over
that list (`filter_comes_first`). All that a filter can do besides is to fail, and then nothing has
been done yet.
-/

set_option autoImplicit false

namespace Stencil

open Stencil.Action

/-- An evaluation as the end of an action: there is a value, or an error that stops the render. -/
def Outcome.ofEval {α : Type} (result : Except EvalError α) (s : Session) : Outcome α :=
  match result with
  | .ok a => .done a s
  | .error e => .failed (.evaluation e) s

theorem Action.evaluate_eq (e : Expr) (s : Session) :
    evaluate e s = .ofEval (e.eval s.context.find?) s := by
  unfold evaluate
  cases e.eval s.context.find? <;> rfl

theorem Action.evaluate_eq_done {e : Expr} {s : Session} {value : Value}
    (evaluated : e.eval s.context.find? = .ok value) : evaluate e s = .done value s := by
  rw [evaluate_eq, evaluated]
  rfl

/-! ## Elements that pass -/

namespace Context

/-- Whether an element passes a filter: in these scopes, with the variables bound to it. -/
def passes? (c : Context) (vars : List String) (filter : Expr) (item : Value) :
    Except EvalError Bool := do
  return (← filter.eval (c.enterScope.assign vars item).find?).isTruthy

/-- The elements that pass a filter, unless it fails on one of them. -/
def passing? (c : Context) (vars : List String) (filter : Expr) :
    List Value → Except EvalError (List Value)
  | [] => .ok []
  | item :: rest => do
    let passes ← c.passes? vars filter item
    let others ← c.passing? vars filter rest
    return if passes then item :: others else others

/-- The elements that a loop goes through when its source has these. -/
def loopItems? (c : Context) (vars : List String) (filter : Option Expr) (items : Sequence) :
    Except EvalError Sequence :=
  match filter with
  | none => .ok items
  | some filter => (c.passing? vars filter items.toList).map .ofList

section Passing

variable {c : Context} {vars : List String} {filter : Expr} {items : List Value}

theorem passing?_of_ok (all : ∀ item ∈ items, ∃ b, c.passes? vars filter item = .ok b) :
    c.passing? vars filter items =
      .ok (items.filter fun item => (c.passes? vars filter item).toOption == some true) := by
  induction items with
  | nil => rfl
  | cons item rest ih =>
    obtain ⟨b, hb⟩ := all item List.mem_cons_self
    have others := ih fun item mem => all item (List.mem_cons_of_mem _ mem)
    rw [passing?, hb, others, List.filter_cons, hb]
    cases b <;> rfl

/-- Of several failures the first one counts. -/
theorem passing?_of_error {before after : List Value} {item : Value} {e : EvalError}
    (all : ∀ item ∈ before, ∃ b, c.passes? vars filter item = .ok b)
    (fails : c.passes? vars filter item = .error e) :
    c.passing? vars filter (before ++ item :: after) = .error e := by
  induction before with
  | nil =>
    rw [List.nil_append, passing?, fails]
    rfl
  | cons first rest ih =>
    obtain ⟨b, hb⟩ := all first List.mem_cons_self
    have others := ih fun item mem => all item (List.mem_cons_of_mem _ mem)
    rw [List.cons_append, passing?, hb, others]
    rfl

end Passing

/-! ## One scope for all elements -/

/-- All names but these mean the same in both contexts. -/
def SameBut (names : List String) (c d : Context) : Prop :=
  ∀ name, name ∉ names → d.find? name = c.find? name

namespace SameBut

variable {names : List String} {c d : Context}

theorem assign (h : SameBut names c d) (value : Value) :
    SameBut names c (d.assign names value) := by
  intro name new
  rw [find?_assign, Scope.assigned_eq_none_iff.2 new, Option.none_or]
  exact h name new

/-- Where these names are bound again, nothing is left of what they were bound to. -/
theorem find?_assign_eq (h : SameBut names c d) (value : Value) :
    (d.assign names value).find? = (c.assign names value).find? := by
  funext name
  rw [find?_assign, find?_assign]
  by_cases mem : name ∈ names
  · rw [Scope.assigned_of_mem value mem]
    rfl
  · rw [h name mem]

end SameBut

end Context

open Context

/-- Looking at the elements one after the other, in a scope that is shared by all, gives those that
pass when each is looked at alone. -/
theorem keepRest_eq {c : Context} {vars : List String} {items : Sequence} (filter : Expr)
    (rest : List Value) :
    ∀ (before : List Value) (kept : Array Value) (s : Session), items.toList = before ++ rest →
      SameBut vars c.enterScope s.context → ∃ d, keepRest vars filter items kept rest.length s =
        .ofEval ((c.passing? vars filter rest).map (kept ++ ·.toArray))
          { s with context := d } := by
  induction rest with
  | nil =>
    intro before kept s split same
    have unchanged : kept ++ ([] : List Value).toArray = kept := Array.append_empty
    refine ⟨s.context, ?_⟩
    rw [passing?, Except.map, unchanged]
    rfl
  | cons item rest ih =>
    intro before kept s split same
    let next : Session := { s with context := s.context.assign vars item }
    have assigned : Action.assign vars item s = .done () next := rfl
    have alone : evaluate filter next =
        .ofEval (filter.eval (c.enterScope.assign vars item).find?) next := by
      rw [evaluate_eq, same.find?_assign_eq]
    rw [List.length_cons, keepRest_of_split split, bind_done assigned, passing?, passes?]
    cases verdict : filter.eval (c.enterScope.assign vars item).find? with
    | error e =>
      rw [verdict] at alone
      exact ⟨next.context, bind_failed alone⟩
    | ok value =>
      rw [verdict] at alone
      have split' : items.toList = (before ++ [item]) ++ rest :=
        split.trans (List.append_cons before item rest)
      obtain ⟨d, eq⟩ := ih (before ++ [item]) (if value.isTruthy then kept.push item else kept)
        next split' (same.assign item)
      refine ⟨d, (bind_done alone).trans (eq.trans ?_)⟩
      have together (others : List Value) :
          (if value.isTruthy then kept.push item else kept) ++ others.toArray =
            kept ++ (if value.isTruthy then item :: others else others).toArray := by
        cases value.isTruthy <;> simp
      cases c.passing? vars filter rest with
      | error e => rfl
      | ok others => exact congrArg (Outcome.done · _) (together others)

/-- An action that does no more in a scope of its own than to evaluate does no more outside it. -/
theorem inScope_eq_ofEval {α : Type} {x : Action α} (keeps : Keeps x)
    {result : Except EvalError α} {s : Session} {d : Context}
    (eq : x { s with context := s.context.enterScope } = .ofEval result { s with context := d }) :
    inScope x s = .ofEval result s := by
  have ends : inScope x s = .ofEval result { s with context := d.exitScope } := by
    simp only [inScope, bracket, eq]
    cases result <;> rfl
  have unchanged : d.exitScope = s.context := by
    refine keeps.inScope s { s with context := d.exitScope } ?_
    rw [ends]
    cases result <;> rfl
  rw [ends, unchanged]

/-- What passes a filter is found without a trace, and where the filter fails nothing has been
done. -/
theorem inScope_filtered (vars : List String) (filter : Option Expr) (items : Sequence)
    (s : Session) :
    inScope (filtered vars filter items) s =
      .ofEval (s.context.loopItems? vars filter items) s := by
  cases filter with
  | none => rfl
  | some filter =>
    -- The scope of the filter is entered in that of the loop, in which nothing is bound yet.
    let inner : Session := { s with context := s.context.enterScope.enterScope }
    have same : SameBut vars s.context.enterScope inner.context := fun _ _ => rfl
    obtain ⟨d, eq⟩ := keepRest_eq filter items.toList [] #[] inner rfl same
    rw [Sequence.length_toList] at eq
    have keeps := keepRest_keeps vars filter items
    refine inScope_eq_ofEval keeps.inScope.keeps (inScope_eq_ofEval keeps (d := d) ?_)
    simp only [Bind.bind, eq, inner, loopItems?]
    cases s.context.passing? vars filter items.toList with
    | error e => rfl
    | ok kept =>
      have kept : #[] ++ kept.toArray = kept.toArray := Array.empty_append
      exact congrArg (fun xs => Outcome.done (Sequence.items xs) _) kept

/-! ## Loops -/

/-- What a loop does once it is known what it goes through. -/
def loopOver (jump : Jump) (vars : List String) (items : Sequence) (body otherwise : Body) :
    Action Flow := do
  match ← inScope (forEach vars items (renderAllWith jump body)) with
  | .proceed => if items.size = 0 then renderAllWith jump otherwise else return .proceed
  | .delegated => return .delegated

theorem loopOver_of_nonempty {jump : Jump} {vars : List String} {items : Sequence}
    {body otherwise : Body} (nonempty : 0 < items.size) :
    loopOver jump vars items body otherwise =
      inScope (forEach vars items (renderAllWith jump body)) := by
  unfold loopOver
  refine Eq.trans (bind_congr fun flow => ?_) (bind_pure _)
  cases flow with
  | proceed => exact if_neg (Nat.ne_of_gt nonempty)
  | delegated => rfl

theorem loopOver_of_empty {jump : Jump} {vars : List String} {items : Sequence}
    {body otherwise : Body} (empty : items.size = 0) :
    loopOver jump vars items body otherwise = renderAllWith jump otherwise := by
  unfold loopOver forEach
  rw [empty, if_pos rfl]
  rfl

section Loop

variable {jump : Jump} {vars : List String} {source : Expr} {filter : Option Expr}
  {body otherwise : Body} {s : Session} {value : Value} {items : Sequence}

theorem loop_eq_of_scalar (evaluated : source.eval s.context.find? = .ok value)
    (scalar : value.toSequence? = none) :
    (Statement.loop vars source filter body otherwise).renderWith jump s =
      .done .proceed (s.noticing (.notIterable value.text)) := by
  rw [loop_eq, bind_done (evaluate_eq_done evaluated)]
  simp only [scalar]
  rfl

theorem loop_eq_of_elements (evaluated : source.eval s.context.find? = .ok value)
    (elements : value.toSequence? = some items) :
    (Statement.loop vars source filter body otherwise).renderWith jump s =
      match s.context.loopItems? vars filter items with
      | .ok kept => loopOver jump vars kept body otherwise s
      | .error e => .failed (.evaluation e) s := by
  rw [loop_eq, bind_done (evaluate_eq_done evaluated)]
  simp only [elements]
  have filtering := inScope_filtered vars filter items s
  cases found : s.context.loopItems? vars filter items with
  | ok kept =>
    rw [found] at filtering
    exact bind_done filtering
  | error e =>
    rw [found] at filtering
    exact bind_failed filtering

theorem render_eq_loopOver {bound : Nat} {kept : Sequence}
    (evaluated : source.eval s.context.find? = .ok value)
    (elements : value.toSequence? = some items)
    (found : s.context.loopItems? vars filter items = .ok kept) :
    (Statement.loop vars source filter body otherwise).render bound s =
      loopOver (jumpWithin bound) vars kept body otherwise s := by
  unfold Statement.render
  rw [loop_eq_of_elements evaluated elements, found]

end Loop

/-- **A filter has its say before the loop begins.** If it has a value for each element, looked at
alone, then the loop is the one without it over the list of those it holds of, in their order. And
if it fails on some element, the first of these failures is all that the loop comes to. -/
theorem filter_comes_first (bound : Nat) (vars : List String) (source filter : Expr)
    (body otherwise : Body) (s : Session) {value : Value} {items : Sequence}
    (evaluated : source.eval s.context.find? = .ok value)
    (elements : value.toSequence? = some items) :
    let loop := Statement.loop vars source (some filter) body otherwise
    let passes? := s.context.passes? vars filter
    ((∀ item ∈ items.toList, ∃ b, passes? item = .ok b) →
      let kept := items.toList.filter fun item => (passes? item).toOption == some true
      loop.render bound s =
        (Statement.loop vars (.const (.ofList kept)) none body otherwise).render bound s) ∧
    (∀ before item after e, items.toList = before ++ item :: after →
      (∀ item ∈ before, ∃ b, passes? item = .ok b) → passes? item = .error e →
      loop.render bound s = .failed (.evaluation e) s) := by
  intro loop passes?
  constructor
  · intro all kept
    have found : s.context.loopItems? vars (some filter) items = .ok (.ofList kept) := by
      rw [loopItems?, passing?_of_ok all]
      rfl
    have bare : s.context.loopItems? vars none (.ofList kept) = .ok (.ofList kept) := rfl
    rw [render_eq_loopOver evaluated elements found, render_eq_loopOver rfl rfl bare]
  · intro before item after e split all fails
    have found : s.context.loopItems? vars (some filter) items = .error e := by
      rw [loopItems?, split, passing?_of_error all fails]
      rfl
    unfold Statement.render
    rw [loop_eq_of_elements evaluated elements, found]

/-- The variables are fields of the elements. With the filter one row of three is left out, and in a
second table there is one that cannot be compared. -/
theorem filter_comes_first_on_fields :
    let row (k : String) (n : Value) : Value := .map (.ofList [("k", .string k), ("n", n)])
    let loop (rows : List Value) (filter : Option Expr) : Statement :=
      .loop ["k", "n"] (.const (.ofList rows)) filter [.output (.var "k")] []
    let few : Expr := .binary .less (.var "n") (.const (.int 3))
    let s := Session.start (.start .empty .empty {})
    (loop [row "a" (.int 1), row "b" (.int 5), row "c" (.int 2)] (some few)).render 0 s =
      (loop [row "a" (.int 1), row "c" (.int 2)] none).render 0 s ∧
    (loop [row "a" (.int 1), row "b" .empty, row "c" (.bool true)] (some few)).render 0 s =
      .failed (.evaluation (.notComparable .empty (.int 3))) s := by
  intro row loop few s
  let passes? := s.context.passes? ["k", "n"] few
  have a : passes? (row "a" (.int 1)) = .ok true := rfl
  have b : passes? (row "b" (.int 5)) = .ok false := rfl
  have c : passes? (row "c" (.int 2)) = .ok true := rfl
  have all : ∀ item ∈ [row "a" (.int 1), row "b" (.int 5), row "c" (.int 2)],
      ∃ b, passes? item = .ok b := by
    simp only [List.forall_mem_cons]
    exact ⟨⟨true, a⟩, ⟨false, b⟩, ⟨true, c⟩, List.forall_mem_nil _⟩
  have before : ∀ item ∈ [row "a" (.int 1)], ∃ b, passes? item = .ok b :=
    List.forall_mem_singleton.2 ⟨true, a⟩
  have fails : passes? (row "b" .empty) = .error (.notComparable .empty (.int 3)) := rfl
  constructor
  · have kept := filter_comes_first 0 ["k", "n"]
      (.const (.ofList [row "a" (.int 1), row "b" (.int 5), row "c" (.int 2)])) few
      [.output (.var "k")] [] s rfl rfl
    exact kept.1 all
  · have stopped := filter_comes_first 0 ["k", "n"]
      (.const (.ofList [row "a" (.int 1), row "b" .empty, row "c" (.bool true)])) few
      [.output (.var "k")] [] s rfl rfl
    exact stopped.2 _ _ _ _ rfl before fails

end Stencil
