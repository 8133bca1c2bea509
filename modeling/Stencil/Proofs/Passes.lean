import Mathlib.Algebra.Group.Nat.Defs
import Stencil.Proofs.Filtering

/-!
# `Stencil/Proofs/Passes.lean` — what the passes of a loop find

Each rendering of the body of a loop is a pass. It begins with `loop` and the variables bound
afresh, over whatever the pass before has made of them, and so

> **what `loop` says at the beginning of a pass is where the loop stands**, and nothing a body does
> can change what the next pass is told.

`Begins` says in which session each pass begins, and `render_eq_last_pass` that the loop is these
passes: the last of them to begin, be it that the elements were through or that it delegated or
failed, ends as the loop does.

## How far the counts go

The counts in `loop` are template integers, and a range can have more elements than there are
positive ones among these. `loop_says_where_it_stands` is about all loops that are not as long as
that. What the longer ones are told is `loop_counts_wrap`: counts are kept modulo `2 ^ 64`, and from
`2 ^ 63` elements on the length is a negative number, in the first pass already.
-/

set_option autoImplicit false

namespace Stencil

open Stencil.Action

/-! ## What `loop` says -/

/-- The element in front of a position. -/
def Sequence.previous? (items : Sequence) : Nat → Option Value
  | 0 => none
  | i + 1 => items.get? i

namespace Fields

/-- The entries of `loop`, the last two as far as there are neighbours. -/
def positionEntries (length index index0 first last : Value) (previous next : Option Value) :
    List (String × Value) :=
  [("length", length), ("index", index), ("index0", index0), ("first", first), ("last", last)]
    ++ (previous.map (("previtem", ·))).toList ++ (next.map (("nextitem", ·))).toList

theorem get?_positionEntries (length index index0 first last : Value)
    (previous next : Option Value) (key : String) :
    (ofList (positionEntries length index index0 first last previous next)).get? key =
      match key with
      | "length" => some length
      | "index" => some index
      | "index0" => some index0
      | "first" => some first
      | "last" => some last
      | "previtem" => previous
      | "nextitem" => next
      | _ => none := by
  rw [get?_ofList]
  unfold positionEntries
  split
  case h_8 =>
    rw [List.lookup_eq_none_iff]
    cases previous <;> cases next <;> simp_all
  all_goals cases previous <;> cases next <;> rfl

/-- The counts in `loop`. -/
structure Counts (fields : Fields none) (length index index0 : Int64) : Prop where
  length : fields.get? "length" = some (.int length)
  index : fields.get? "index" = some (.int index)
  index0 : fields.get? "index0" = some (.int index0)

/-- What else there is in `loop` when a loop over these elements stands at a position. -/
structure Surrounds (fields : Fields none) (items : Sequence) (i : Nat) : Prop where
  first : fields.get? "first" = some (.bool (decide (i = 0)))
  last : fields.get? "last" = some (.bool (decide (i + 1 = items.size)))
  hasPrevitem : (fields.get? "previtem").isSome ↔ 0 < i
  previtem : 0 < i → fields.get? "previtem" = items.get? (i - 1)
  hasNextitem : (fields.get? "nextitem").isSome ↔ i + 1 < items.size
  nextitem : i + 1 < items.size → fields.get? "nextitem" = items.get? (i + 1)
  others : ∀ key, (fields.get? key).isSome →
    key ∈ ["length", "index", "index0", "first", "last", "previtem", "nextitem"]

end Fields

theorem Sequence.position_eq (items : Sequence) (i : Nat) :
    items.position i = .map (.ofList (Fields.positionEntries (.int (.ofNat items.size))
      (.int (.ofNat (i + 1))) (.int (.ofNat i)) (.bool (decide (i = 0)))
      (.bool (decide (i + 1 = items.size))) (items.previous? i) (items.get? (i + 1)))) := by
  have successor : Int64.ofNat (i + 1) = Int64.ofNat i + 1 := Int64.ofNat_add i 1
  rw [successor]
  cases i <;> rfl

theorem Sequence.isSome_previous? {items : Sequence} {i : Nat} (inside : i < items.size) :
    (items.previous? i).isSome ↔ 0 < i := by
  cases i with
  | zero => simp [previous?]
  | succ j =>
    have before : j < items.size := Nat.lt_of_succ_lt inside
    simp [previous?, (items.isSome_get? j).2 before]

/-- What `loop` is bound to at a position that there is. -/
theorem Sequence.exists_position {items : Sequence} {i : Nat} (inside : i < items.size) :
    ∃ fields : Fields none, items.position i = .map fields ∧
      fields.Counts (.ofNat items.size) (.ofNat (i + 1)) (.ofNat i) ∧
      fields.Surrounds items i := by
  have entry := Fields.get?_positionEntries (.int (.ofNat items.size)) (.int (.ofNat (i + 1)))
    (.int (.ofNat i)) (.bool (decide (i = 0))) (.bool (decide (i + 1 = items.size)))
    (items.previous? i) (items.get? (i + 1))
  refine ⟨_, items.position_eq i, ⟨entry _, entry _, entry _⟩, ?_⟩
  refine ⟨entry _, entry _, ?_, ?_, ?_, fun _ => entry _, ?_⟩
  · rw [entry]
    exact isSome_previous? inside
  · intro later
    rw [entry]
    cases i with
    | zero => cases later
    | succ j => rfl
  · rw [entry]
    exact items.isSome_get? (i + 1)
  · intro key present
    rw [entry] at present
    split at present
    case h_8 => cases present
    all_goals simp

/-! ## Counts as template integers -/

/-- The counts that are exact are those below `2 ^ 63`. -/
theorem toInt_ofNat_eq_iff {n : Nat} : (Int64.ofNat n).toInt = n ↔ n < 2 ^ 63 := by
  constructor
  · intro same
    have := (Int64.ofNat n).toInt_lt
    omega
  · exact Int64.toInt_ofNat_of_lt

/-- A count that has wrapped around once is negative. -/
theorem toInt_ofNat_of_ge {n : Nat} (many : 2 ^ 63 ≤ n) (few : n < Int64.size) :
    (Int64.ofNat n).toInt = n - Int64.size := by
  have integers : Int64.size = 2 ^ 64 := rfl
  rw [Int64.toInt_ofNat', Int.bmod_def]
  rw [integers] at few ⊢
  omega

theorem toInt_counts {size i : Nat} (inside : i < size) (few : size < 2 ^ 63) :
    (Int64.ofNat size).toInt = size ∧ (Int64.ofNat (i + 1)).toInt = i + 1 ∧
      (Int64.ofNat i).toInt = i :=
  ⟨toInt_ofNat_eq_iff.2 few, toInt_ofNat_eq_iff.2 (by omega), toInt_ofNat_eq_iff.2 (by omega)⟩

/-! ## Passes -/

/-- The session with the names bound that a loop binds at a position. -/
def Session.atPosition (s : Session) (vars : List String) (items : Sequence) (i : Nat)
    (item : Value) : Session :=
  { s with context := (s.context.assign ["loop"] (items.position i)).assign vars item }

/-- In a loop over these elements, started in the session `s`, a pass at a position begins in
another. The first one begins where the loop does, once the names are bound, and each other one in
the same way where the pass before it has ended, if it has and goes on. -/
inductive Begins (vars : List String) (items : Sequence) (body : Action Flow) (s : Session) :
    Nat → Session → Prop
  | first {item : Value} (here : items.get? 0 = some item) :
    Begins vars items body s 0 (s.atPosition vars items 0 item)
  | next {i : Nat} {t u : Session} {item : Value} (before : Begins vars items body s i t)
    (ends : body t = .done .proceed u) (here : items.get? (i + 1) = some item) :
    Begins vars items body s (i + 1) (u.atPosition vars items (i + 1) item)

section Passes

variable {vars : List String} {items : Sequence} {body : Action Flow} {s t : Session} {i : Nat}

/-- Whatever came before, a pass begins right after its names have been bound. -/
theorem Begins.bound (h : Begins vars items body s i t) :
    ∃ (item : Value) (u : Session),
      items.get? i = some item ∧ t = u.atPosition vars items i item := by
  cases h with
  | first here => exact ⟨_, s, here, rfl⟩
  | next before ends here => exact ⟨_, _, here, rfl⟩

theorem Begins.lt_size (h : Begins vars items body s i t) : i < items.size := by
  obtain ⟨item, u, here, -⟩ := h.bound
  exact (items.isSome_get? i).1 (by rw [here]; rfl)

theorem find?_atPosition (u : Session) (item : Value) (name : String) :
    (u.atPosition vars items i item).context.find? name =
      (Scope.assigned vars item name).or
        (if name = "loop" then some (items.position i) else u.context.find? name) := by
  unfold Session.atPosition
  rw [Context.find?_assign, Context.find?_assign, Scope.assigned]
  by_cases same : name = "loop" <;> simp [same]

/-- What is left of a loop after a pass, with this many positions to come. -/
def afterPass (vars : List String) (items : Sequence) (body : Action Flow) (remaining : Nat) :
    Flow → Action Flow
  | .proceed => repeatRest vars items body remaining
  | .delegated => return .delegated

theorem repeatRest_eq_pass {before rest : List Value} {item : Value}
    (split : items.toList = before ++ item :: rest) :
    repeatRest vars items body (rest.length + 1) s =
      (body >>= afterPass vars items body rest.length)
        (s.atPosition vars items before.length item) := by
  rw [repeatRest_of_split split]
  rfl

/-- A pass that does not go on is the last. -/
theorem afterPass_of_stop {remaining : Nat} (stop : ∀ u, body t ≠ .done .proceed u) :
    (body >>= afterPass vars items body remaining) t = body t := by
  cases ends : body t with
  | done flow u =>
    rw [bind_done ends]
    cases flow with
    | proceed => exact absurd ends (stop u)
    | delegated => rfl
  | failed e u => exact bind_failed ends
  | exhausted => exact bind_exhausted ends

/-- From the beginning of a pass on, a loop comes to a last one, and ends as that does. -/
theorem ends_with_pass (rest : List Value) :
    ∀ (before : List Value) (item : Value) (t : Session), items.toList = before ++ item :: rest →
      Begins vars items body s before.length t →
      ∃ i u, Begins vars items body s i u ∧
        (body >>= afterPass vars items body rest.length) t = body u ∧
        ∀ v, body u = .done .proceed v → i + 1 = items.size := by
  induction rest with
  | nil =>
    intro before item t split begins
    have last : before.length + 1 = items.size := (Sequence.size_of_split split).symm
    refine ⟨before.length, t, begins, ?_, fun _ _ => last⟩
    cases ends : body t with
    | done flow u =>
      rw [bind_done ends]
      cases flow <;> rfl
    | failed e u => exact bind_failed ends
    | exhausted => exact bind_exhausted ends
  | cons following rest ih =>
    intro before item t split begins
    by_cases goesOn : ∃ u, body t = .done .proceed u
    · obtain ⟨u, ends⟩ := goesOn
      have split' : items.toList = (before ++ [item]) ++ following :: rest :=
        split.trans (List.append_cons before item (following :: rest))
      have length : (before ++ [item]).length = before.length + 1 := List.length_append
      have next := Begins.next begins ends (length ▸ Sequence.get?_of_split split')
      rw [← length] at next
      obtain ⟨i, v, h⟩ := ih (before ++ [item]) following _ split' next
      refine ⟨i, v, ?_⟩
      rw [bind_done ends, afterPass, List.length_cons, repeatRest_eq_pass split']
      exact h
    · have stop : ∀ u, body t ≠ .done .proceed u := fun u ends => goesOn ⟨u, ends⟩
      exact ⟨before.length, t, begins, afterPass_of_stop stop, fun u ends => absurd ends (stop u)⟩

/-- **A loop is its passes.** With anything to go through, it ends as the last pass to begin ends,
and that is the one at the last position unless it delegates or fails. -/
theorem forEach_eq_last_pass (vars : List String) (body : Action Flow) (s : Session)
    (nonempty : 0 < items.size) :
    ∃ i t, Begins vars items body s i t ∧ forEach vars items body s = body t ∧
      ∀ u, body t = .done .proceed u → i + 1 = items.size := by
  cases split : items.toList with
  | nil =>
    rw [← Sequence.length_toList, split] at nonempty
    cases nonempty
  | cons item rest =>
    have split : items.toList = [] ++ item :: rest := split
    have here : items.get? 0 = some item := Sequence.get?_of_split split
    obtain ⟨i, t, begins, ends, last⟩ := ends_with_pass rest [] item _ split (.first here)
    refine ⟨i, t, begins, ?_, last⟩
    unfold forEach
    rw [Sequence.size_of_split split, List.length_nil, List.length_cons, Nat.zero_add,
      repeatRest_eq_pass split]
    exact ends

end Passes

/-! ## Loops -/

section Loop

variable {vars : List String} {items : Sequence} {body : Action Flow} {s t : Session} {i : Nat}

/-- What is found under `loop` and under the variables when a pass begins. -/
theorem Begins.finds (begins : Begins vars items body s i t) (unnamed : "loop" ∉ vars) :
    ∃ (item : Value) (fields : Fields none), items.get? i = some item ∧
      t.context.find? "loop" = some (.map fields) ∧
      fields.Counts (.ofNat items.size) (.ofNat (i + 1)) (.ofNat i) ∧ fields.Surrounds items i ∧
      ∀ name ∈ vars,
        t.context.find? name = some (if vars.length = 1 then item else item.field name) := by
  obtain ⟨fields, position, counts, surrounds⟩ := Sequence.exists_position begins.lt_size
  obtain ⟨item, u, here, rfl⟩ := begins.bound
  refine ⟨item, fields, here, ?_, counts, surrounds, fun name mem => ?_⟩
  · rw [find?_atPosition, Scope.assigned_eq_none_iff.2 unnamed, position]
    rfl
  · rw [find?_atPosition, Scope.assigned_of_mem item mem]
    rfl

end Loop

/-- With anything to go through, a loop is its passes in a scope of their own. -/
theorem render_eq_last_pass {bound : Nat} {vars : List String} {source : Expr}
    {filter : Option Expr} {body otherwise : Body} {s : Session} {value : Value}
    {items kept : Sequence} (evaluated : source.eval s.context.find? = .ok value)
    (elements : value.toSequence? = some items)
    (found : s.context.loopItems? vars filter items = .ok kept) (nonempty : 0 < kept.size) :
    ∃ i t, Begins vars kept (renderAll bound body) { s with context := s.context.enterScope } i t ∧
      (Statement.loop vars source filter body otherwise).render bound s =
        (renderAll bound body t).mapSession
          (fun u => { u with context := u.context.exitScope }) ∧
      ∀ u, renderAll bound body t = .done .proceed u → i + 1 = kept.size := by
  obtain ⟨i, t, begins, ends, last⟩ := forEach_eq_last_pass vars (renderAll bound body)
    { s with context := s.context.enterScope } nonempty
  refine ⟨i, t, begins, ?_, last⟩
  rw [← ends, render_eq_loopOver evaluated elements found, loopOver_of_nonempty nonempty]
  exact bracket_eq _ _ _ s

/-- **What `loop` says when a pass begins is where the loop stands.** The three counts are exact,
what comes before and after is there just where there is something before and after, and there is
nothing else. That holds in each pass, whatever those before it have bound; and after the loop every
name means what it meant before. -/
theorem loop_says_where_it_stands (bound : Nat) (vars : List String) (source : Expr)
    (filter : Option Expr) (body otherwise : Body) (s : Session) {value : Value}
    {items kept : Sequence} (evaluated : source.eval s.context.find? = .ok value)
    (elements : value.toSequence? = some items)
    (found : s.context.loopItems? vars filter items = .ok kept) (few : kept.size ≤ 2 ^ 63 - 1)
    (unnamed : "loop" ∉ vars) :
    let loop := Statement.loop vars source filter body otherwise
    let begins := Begins vars kept (renderAll bound body)
      { s with context := s.context.enterScope }
    (∀ i t, begins i t → ∃ item fields length index index0, kept.get? i = some item ∧
      t.context.find? "loop" = some (.map fields) ∧ fields.Counts length index index0 ∧
      length.toInt = kept.size ∧ index.toInt = i + 1 ∧ index0.toInt = i ∧
      fields.Surrounds kept i ∧ ∀ name ∈ vars,
        t.context.find? name = some (if vars.length = 1 then item else item.field name)) ∧
    (0 < kept.size →
      (∃ i t, begins i t ∧ loop.render bound s = (renderAll bound body t).mapSession
          (fun u => { u with context := u.context.exitScope }) ∧
        ∀ u, renderAll bound body t = .done .proceed u → i + 1 = kept.size) ∧
      ∀ t, (loop.render bound s).session? = some t →
        ∀ name, t.context.find? name = s.context.find? name) := by
  intro loop begins
  constructor
  · intro i t begun
    obtain ⟨item, fields, here, told, counts, surrounds, values⟩ := begun.finds unnamed
    obtain ⟨length, index, index0⟩ := toInt_counts begun.lt_size (by omega)
    exact ⟨item, fields, _, _, _, here, told, counts, length, index, index0, surrounds, values⟩
  · intro nonempty
    refine ⟨render_eq_last_pass evaluated elements found nonempty, fun t ends name => ?_⟩
    have keeps : Restores (loopOver (jumpWithin bound) vars kept body otherwise) := by
      rw [loopOver_of_nonempty nonempty]
      exact (forEach_keeps (renderAllWith_keeps (jumpWithin_keeps bound) body)).inScope
    rw [render_eq_loopOver evaluated elements found] at ends
    rw [keeps s t ends]

/-- One of four numbers does not pass the filter, and the last of those that do is empty. The second
pass is told so, although the first has made something else of `loop` and of the variable. -/
theorem loop_says_where_it_stands_once_overwritten :
    let numbers : Value := .ofList [.int 1, .int 0, .int 2, .empty]
    let body : Body := [.assign ["loop"] (some (.const (.string "mine"))),
      .assign ["x"] (some (.var "loop"))]
    let loop := Statement.loop ["x"] (.const numbers)
      (some (.binary .notEqual (.var "x") (.const (.int 0)))) body []
    let s := Session.start (.start .empty .empty {})
    ∃ t fields length index index0,
      Begins ["x"] (.ofList [.int 1, .int 2, .empty]) (renderAll 0 body)
        { s with context := s.context.enterScope } 1 t ∧
      t.context.find? "loop" = some (.map fields) ∧ fields.Counts length index index0 ∧
      length.toInt = 3 ∧ index.toInt = 2 ∧ index0.toInt = 1 ∧
      fields.get? "previtem" = some (.int 1) ∧ fields.get? "nextitem" = some .empty ∧
      t.context.find? "x" = some (.int 2) ∧
      ∃ u, (loop.render 0 s).session? = some u ∧ u.context.find? "loop" = none := by
  intro numbers body loop s
  let three : Sequence := .ofList [.int 1, .int 2, .empty]
  have found : s.context.loopItems? ["x"] (some (.binary .notEqual (.var "x") (.const (.int 0))))
      (.ofList [.int 1, .int 0, .int 2, .empty]) = .ok three := rfl
  obtain ⟨passes, after⟩ := loop_says_where_it_stands 0 ["x"] (.const numbers)
    (some (.binary .notEqual (.var "x") (.const (.int 0)))) body [] s rfl rfl found
    (by decide) (by decide)
  have second : ∃ t, Begins ["x"] three (renderAll 0 body)
      { s with context := s.context.enterScope } 1 t :=
    ⟨_, .next (.first rfl) rfl rfl⟩
  obtain ⟨t, begun⟩ := second
  obtain ⟨item, fields, length, index, index0, here, told, counts, hl, hi, hi0, around,
    values⟩ := passes 1 t begun
  obtain rfl : item = .int 2 := Option.some.inj here.symm
  refine ⟨t, fields, length, index, index0, begun, told, counts, hl, hi, hi0,
    around.previtem Nat.one_pos, around.nextitem (by decide), values "x" (by simp), ?_⟩
  have ends : (loop.render 0 s).session?.isSome := by decide +kernel
  obtain ⟨u, ends⟩ := Option.isSome_iff_exists.1 ends
  exact ⟨u, ends, (after (by decide)).2 u ends "loop"⟩

/-- **Counts are kept modulo `2 ^ 64`.** They are exact below `2 ^ 63`, and no further. A length
that is exact is positive, and the position is within it; and a range that is too long for that has
a negative length in each of its passes. -/
theorem loop_counts_wrap (bound : Nat) (vars : List String) (source : Expr)
    (filter : Option Expr) (body otherwise : Body) (s : Session) {value : Value}
    {items kept : Sequence} (evaluated : source.eval s.context.find? = .ok value)
    (elements : value.toSequence? = some items)
    (found : s.context.loopItems? vars filter items = .ok kept) (unnamed : "loop" ∉ vars) :
    let loop := Statement.loop vars source filter body otherwise
    let begins := Begins vars kept (renderAll bound body)
      { s with context := s.context.enterScope }
    (∀ i t, begins i t → ∃ fields length index index0,
      t.context.find? "loop" = some (.map fields) ∧ fields.Counts length index index0 ∧
      length.toInt = (kept.size : Int).bmod Int64.size ∧
      index.toInt = (i + 1 : Int).bmod Int64.size ∧ index0.toInt = (i : Int).bmod Int64.size ∧
      (length.toInt = kept.size ↔ kept.size < 2 ^ 63) ∧
      (index.toInt = i + 1 ↔ i + 1 < 2 ^ 63) ∧ (index0.toInt = i ↔ i < 2 ^ 63) ∧
      (kept.size < 2 ^ 63 →
        0 < length.toInt ∧ index.toInt = index0.toInt + 1 ∧ index.toInt ≤ length.toInt) ∧
      ∀ r, kept = .range r → 2 ^ 63 ≤ r.size → length.toInt = r.size - Int64.size) ∧
    (0 < kept.size → ∃ i t, begins i t ∧
      loop.render bound s = (renderAll bound body t).mapSession
        (fun u => { u with context := u.context.exitScope }) ∧
      ∀ u, renderAll bound body t = .done .proceed u → i + 1 = kept.size) := by
  intro loop begins
  refine ⟨fun i t begun => ?_, render_eq_last_pass evaluated elements found⟩
  obtain ⟨item, fields, -, told, counts, -, -⟩ := begun.finds unnamed
  refine ⟨fields, _, _, _, told, counts, Int64.toInt_ofNat', Int64.toInt_ofNat',
    Int64.toInt_ofNat', toInt_ofNat_eq_iff, toInt_ofNat_eq_iff, toInt_ofNat_eq_iff, ?_, ?_⟩
  · intro few
    have inside : i < kept.size := begun.lt_size
    obtain ⟨length, index, index0⟩ := toInt_counts inside few
    omega
  · intro r same many
    rw [same]
    exact toInt_ofNat_of_ge many r.size_lt

/-- Over the longest range there is, the first pass is told that there are minus one elements, and
writes that there are none. -/
theorem loop_counts_wrap_over_longest :
    let numbers : Sequence := .range .longest
    let body : Body :=
      [.output (.binary .greater (.field (.var "loop") "length") (.const (.int 0))),
        .extend "nowhere" true []]
    let loop := Statement.loop ["i"] (.const (.list numbers)) none body []
    let s := Session.start (.start .empty .empty {})
    (∃ t fields length index index0,
      Begins ["i"] numbers (renderAll 1 body) { s with context := s.context.enterScope } 0 t ∧
      t.context.find? "loop" = some (.map fields) ∧ fields.Counts length index index0 ∧
      length.toInt = -1 ∧ index.toInt = 1 ∧ index0.toInt = 0) ∧
    (loop.render 1 s).session?.map (·.output) = some "false" := by
  intro numbers body loop s
  have nonempty : 0 < Range.longest.size := by rw [Range.size_longest]; decide
  have first : ∃ t, Begins ["i"] numbers (renderAll 1 body)
      { s with context := s.context.enterScope } 0 t :=
    ⟨_, .first (Sequence.get?_range_zero nonempty)⟩
  obtain ⟨t, begun⟩ := first
  obtain ⟨passes, -⟩ := loop_counts_wrap 1 ["i"] (.const (.list numbers)) none body [] s
    rfl rfl rfl (by decide)
  obtain ⟨fields, length, index, index0, told, counts, -, -, -, -, hi, hi0, -, long⟩ :=
    passes 0 t begun
  have wrapped := long .longest rfl
  rw [Range.size_longest] at wrapped
  have one : length.toInt = -1 := wrapped (by decide)
  exact ⟨⟨t, fields, length, index, index0, begun, told, counts, one, hi.2 (by decide),
    hi0.2 (by decide)⟩, by decide +kernel⟩

/-- So a count in `loop` is not always the number it stands for. -/
theorem loop_counts_inexact :
    ¬∀ (bound : Nat) (vars : List String) (source : Expr) (filter : Option Expr)
      (body : Body) (s : Session) (value : Value) (items kept : Sequence),
      source.eval s.context.find? = .ok value → value.toSequence? = some items →
      s.context.loopItems? vars filter items = .ok kept → "loop" ∉ vars →
      ∀ i t, Begins vars kept (renderAll bound body)
        { s with context := s.context.enterScope } i t →
      ∃ fields length index index0, t.context.find? "loop" = some (.map fields) ∧
        fields.Counts length index index0 ∧ length.toInt = kept.size ∧ index0.toInt = i ∧
        index.toInt = index0.toInt + 1 ∧ index.toInt ≤ length.toInt := by
  intro exact
  have nonempty : 0 < Range.longest.size := by rw [Range.size_longest]; decide
  obtain ⟨fields, length, index, index0, -, -, size, -⟩ :=
    exact 0 ["i"] (.const (.list (.range .longest))) none [] (Session.start (.start .empty .empty {}))
      _ _ _ rfl rfl rfl (by decide) 0 _ (.first (Sequence.get?_range_zero nonempty))
  have integers : Int64.size = 2 ^ 64 := rfl
  rw [Sequence.size, Range.size_longest, integers] at size
  have := length.toInt_lt
  omega

end Stencil
