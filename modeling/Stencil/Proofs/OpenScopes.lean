import Mathlib.Data.List.Induction
import Mathlib.Data.Nat.Find
import Stencil.Proofs.Lifetime

/-!
# `Stencil/Proofs/OpenScopes.lean` — what a name means after all that was done to the scopes

Scopes are entered, names are bound in the innermost one, and scopes are left, in any order and as
often as one likes. What a name means in the end can be read off the history of these changes,
without any scope in hand. Each change is made at some *depth*, the number of scopes inside the
outermost one, and the scope it is made in is open until the depth goes below that. A binding
*persists* as long as its scope is open. Then

> **a name means what the last of its bindings in the innermost scope gave it, among those that
> persist, and what the globals say if none does**

(`lookups_follow_history`). An exit at depth 0 leaves the depth as it is, and so a binding in the
outermost scope persists whatever exits there are.

## One invariant for every scope

An exit uncovers bindings that may have been hidden before. So the invariant of a history
(`Scopes.Reflects`) is not only about what names mean in the innermost scope. It says for each open
scope what they would mean in it, were the scopes inside of it left.
-/

set_option autoImplicit false

namespace Stencil

/-! ## Histories -/

/-- Something done to the scopes of a context. -/
inductive ScopeChange where
  | enter
  | exit
  | bind (name : String) (value : Value)

def ScopeChange.apply (c : Context) : ScopeChange → Context
  | .enter => c.enterScope
  | .exit => c.exitScope
  | .bind name value => c.assign [name] value

/-- The context after these changes, one after the other. -/
def Context.after (c : Context) (history : List ScopeChange) : Context :=
  history.foldl ScopeChange.apply c

/-- The number of scopes inside the outermost one after a change, from the number before it. -/
def ScopeChange.depth (depth : Nat) : ScopeChange → Nat
  | .enter => depth + 1
  | .exit => depth - 1
  | .bind _ _ => depth

def depthAfter (history : List ScopeChange) : Nat := history.foldl ScopeChange.depth 0

/-- The depth at which the `i`-th change was made. -/
def depthAt (history : List ScopeChange) (i : Nat) : Nat := depthAfter (history.take i)

/-- The scope that was the innermost one at the `i`-th change has not been left since. -/
def StillOpen (history : List ScopeChange) (i : Nat) : Prop :=
  ∀ j, i ≤ j → depthAt history i ≤ depthAt history j

/-- The `i`-th change bound the name to the value, in a scope that is still open. -/
structure Persists (history : List ScopeChange) (name : String) (value : Value) (i : Nat) :
    Prop where
  made : history[i]? = some (.bind name value)
  stillOpen : StillOpen history i

/-- Of the bindings of the name that persist, the `i`-th change made the last one in the innermost
scope that has any. -/
structure Governs (history : List ScopeChange) (name : String) (value : Value) (i : Nat) : Prop
    extends Persists history name value i where
  innermost : ∀ value' j, Persists history name value' j → depthAt history j ≤ depthAt history i
  last : ∀ value' j, Persists history name value' j → depthAt history j = depthAt history i → j ≤ i

/-- Each scope that is entered is left again, and no other one is. -/
inductive WellNested : List ScopeChange → Prop
  | nil : WellNested []
  | bind (name : String) (value : Value) {rest : List ScopeChange} (others : WellNested rest) :
    WellNested (.bind name value :: rest)
  | nest {inside rest : List ScopeChange} (within : WellNested inside) (others : WellNested rest) :
    WellNested (.enter :: inside ++ .exit :: rest)

theorem Context.after_concat (c : Context) (history : List ScopeChange) (change : ScopeChange) :
    c.after (history ++ [change]) = change.apply (c.after history) :=
  List.foldl_append

section Depth

variable {history : List ScopeChange} {change : ScopeChange} {i : Nat}

theorem depthAfter_concat : depthAfter (history ++ [change]) = change.depth (depthAfter history) :=
  List.foldl_append

theorem depthAt_of_length_le (beyond : history.length ≤ i) :
    depthAt history i = depthAfter history := by
  rw [depthAt, List.take_of_length_le beyond]

theorem depthAt_length : depthAt history history.length = depthAfter history :=
  depthAt_of_length_le (Nat.le_refl _)

theorem depthAt_concat (within : i ≤ history.length) :
    depthAt (history ++ [change]) i = depthAt history i := by
  rw [depthAt, List.take_append_of_le_length within, depthAt]

theorem depthAt_concat_length :
    depthAt (history ++ [change]) history.length = depthAfter history := by
  rw [depthAt_concat (Nat.le_refl _), depthAt_length]

theorem depthAt_concat_of_lt (beyond : history.length < i) :
    depthAt (history ++ [change]) i = change.depth (depthAfter history) := by
  rw [depthAt_of_length_le (by rwa [List.length_append]), depthAfter_concat]

theorem StillOpen.depthAt_le (h : StillOpen history i) :
    depthAt history i ≤ depthAfter history := by
  have atEnd := h (max i history.length) (Nat.le_max_left _ _)
  rwa [depthAt_of_length_le (Nat.le_max_right _ _)] at atEnd

/-- One more change leaves those scopes open that are not deeper than it goes. -/
theorem stillOpen_concat (within : i ≤ history.length) : StillOpen (history ++ [change]) i ↔
    StillOpen history i ∧ depthAt history i ≤ change.depth (depthAfter history) := by
  unfold StillOpen
  rw [depthAt_concat within]
  constructor
  · intro h
    refine ⟨fun j le => ?_, ?_⟩
    · rcases Nat.le_total j history.length with inside | outside
      · simpa only [depthAt_concat inside] using h j le
      · rw [depthAt_of_length_le outside]
        simpa only [depthAt_concat_length] using h history.length within
    · have now := h (history.length + 1) (by omega)
      rwa [depthAt_concat_of_lt (by omega)] at now
  · rintro ⟨h, now⟩ j le
    rcases Nat.lt_or_ge history.length j with beyond | inside
    · rwa [depthAt_concat_of_lt beyond]
    · rw [depthAt_concat inside]
      exact h j le

end Depth

/-! ## Bindings that persist -/

section Persisting

variable {history : List ScopeChange} {change : ScopeChange} {name : String} {value : Value}
  {i depth : Nat}

theorem Persists.lt_length (h : Persists history name value i) : i < history.length :=
  (List.getElem?_eq_some_iff.1 h.made).1

/-- After one more change those bindings persist whose scopes it leaves open, and the one that it
makes. -/
theorem persists_concat : Persists (history ++ [change]) name value i ↔
    (Persists history name value i ∧ depthAt history i ≤ change.depth (depthAfter history)) ∨
      (i = history.length ∧ change = .bind name value) := by
  constructor
  · rintro ⟨made, stillOpen⟩
    rcases Nat.lt_trichotomy i history.length with within | rfl | beyond
    · rw [List.getElem?_append_left within] at made
      obtain ⟨stillOpen, le⟩ := (stillOpen_concat (Nat.le_of_lt within)).1 stillOpen
      exact .inl ⟨⟨made, stillOpen⟩, le⟩
    · rw [List.getElem?_concat_length] at made
      exact .inr ⟨rfl, Option.some.inj made⟩
    · rw [List.getElem?_eq_none (by rwa [List.length_append])] at made
      cases made
  · rintro (⟨h, le⟩ | ⟨rfl, rfl⟩)
    · have within := h.lt_length
      refine ⟨by rw [List.getElem?_append_left within, h.made], ?_⟩
      exact (stillOpen_concat (Nat.le_of_lt within)).2 ⟨h.stillOpen, le⟩
    · refine ⟨List.getElem?_concat_length, (stillOpen_concat (Nat.le_refl _)).2 ⟨?_, ?_⟩⟩
      · intro j le
        rw [depthAt_length, depthAt_of_length_le le]
      · rw [depthAt_length]
        exact Nat.le_refl _

/-- The last binding that persists is in the innermost scope that has one. -/
theorem governs_iff : Governs history name value i ↔
    Persists history name value i ∧ ∀ value' j, Persists history name value' j → j ≤ i := by
  constructor
  · intro h
    refine ⟨h.toPersists, fun value' j other => ?_⟩
    rcases Nat.le_total j i with le | after
    · exact le
    · exact h.last value' j other
        (Nat.le_antisymm (h.innermost value' j other) (h.stillOpen j after))
  · rintro ⟨h, last⟩
    exact ⟨h, fun value' j other => other.stillOpen i (last value' j other),
      fun value' j other _ => last value' j other⟩

/-- If any binding of the name persists, one of them governs. -/
theorem exists_governs (h : Persists history name value i) :
    ∃ value' j, Governs history name value' j := by
  classical
  let P (j : Nat) : Prop := ∃ value', Persists history name value' j
  obtain ⟨value', persists⟩ : P (Nat.findGreatest P history.length) :=
    Nat.findGreatest_spec (Nat.le_of_lt h.lt_length) ⟨value, h⟩
  refine ⟨value', _, governs_iff.2 ⟨persists, fun value'' j other => ?_⟩⟩
  exact Nat.le_findGreatest (Nat.le_of_lt other.lt_length) ⟨value'', other⟩

/-- The binding persists, and its scope is one of the outermost `depth`. -/
def PersistsAbove (history : List ScopeChange) (depth : Nat) (name : String) (value : Value)
    (i : Nat) : Prop :=
  Persists history name value i ∧ depthAt history i < depth

/-- Of the bindings of the name that persist in the outermost `depth` scopes the last one is to the
value. -/
def LastAbove (history : List ScopeChange) (depth : Nat) (name : String) (value : Value) : Prop :=
  ∃ i, PersistsAbove history depth name value i ∧
    ∀ value' j, PersistsAbove history depth name value' j → j ≤ i

theorem persistsAbove_concat (change : ScopeChange)
    (le : depth ≤ change.depth (depthAfter history) + 1)
    (unbound : ∀ value, change = .bind name value → depth ≤ depthAfter history) :
    PersistsAbove (history ++ [change]) depth name value i ↔
      PersistsAbove history depth name value i := by
  unfold PersistsAbove
  rw [persists_concat]
  constructor
  · rintro ⟨⟨h, -⟩ | ⟨rfl, made⟩, above⟩
    · rw [depthAt_concat (Nat.le_of_lt h.lt_length)] at above
      exact ⟨h, above⟩
    · rw [depthAt_concat_length] at above
      exact absurd (unbound value made) (Nat.not_le.2 above)
  · rintro ⟨h, above⟩
    rw [depthAt_concat (Nat.le_of_lt h.lt_length)]
    exact ⟨.inl ⟨h, by omega⟩, above⟩

/-- A change says nothing new about the scopes that it leaves open, except for what it binds in the
innermost of them. -/
theorem lastAbove_concat (change : ScopeChange)
    (le : depth ≤ change.depth (depthAfter history) + 1)
    (unbound : ∀ value, change = .bind name value → depth ≤ depthAfter history) :
    LastAbove (history ++ [change]) depth name value ↔ LastAbove history depth name value := by
  simp only [LastAbove, persistsAbove_concat change le unbound]

/-- With all scopes taken into account, the binding just made is the last one of its name. -/
theorem lastAbove_bind {value' : Value} :
    LastAbove (history ++ [.bind name value]) (depthAfter history + 1) name value' ↔
      value = value' := by
  have made : PersistsAbove (history ++ [.bind name value]) (depthAfter history + 1) name value
      history.length := by
    refine ⟨persists_concat.2 (.inr ⟨rfl, rfl⟩), ?_⟩
    rw [depthAt_concat_length]
    exact Nat.lt_succ_self _
  constructor
  · rintro ⟨i, ⟨h, -⟩, last⟩
    rcases persists_concat.1 h with ⟨earlier, -⟩ | ⟨-, same⟩
    · exact absurd (last _ _ made) (Nat.not_le.2 earlier.lt_length)
    · exact (ScopeChange.bind.inj same).2
  · rintro rfl
    refine ⟨_, made, fun value'' j other => ?_⟩
    have within := other.1.lt_length
    rw [List.length_append, List.length_singleton] at within
    omega

/-- Where every open scope is taken into account, the last binding is the one that governs. -/
theorem lastAbove_iff_governs (all : depthAfter history < depth) :
    LastAbove history depth name value ↔ ∃ i, Governs history name value i := by
  have every (value' : Value) (j : Nat) :
      PersistsAbove history depth name value' j ↔ Persists history name value' j :=
    and_iff_left_of_imp fun h => Nat.lt_of_le_of_lt h.stillOpen.depthAt_le all
  simp only [LastAbove, every, governs_iff]

end Persisting

/-! ## What the scopes hold -/

/-- Every open scope, with the ones around it, gives names the values that were bound last there. -/
structure Scopes.Reflects (scopes : Scopes) (history : List ScopeChange) : Prop where
  depth : scopes.chain.length = depthAfter history + 1
  lookups : ∀ around, around <:+ scopes.chain → ∀ name value,
    around.findSome? (·.get? name) = some value ↔ LastAbove history around.length name value

namespace Scopes.Reflects

variable {scopes : Scopes} {history : List ScopeChange}

theorem root : Scopes.root.Reflects [] where
  depth := rfl
  lookups around suffix name value := by
    have nothing : ∀ scope ∈ around, scope.get? name = none := by
      intro scope mem
      rw [List.mem_singleton.1 (suffix.subset mem)]
      rfl
    rw [List.findSome?_eq_none_iff.2 nothing]
    constructor
    · intro found
      cases found
    · rintro ⟨i, h, -⟩
      exact absurd h.1.lt_length (Nat.not_lt_zero i)

/-- What the scopes hold that a change leaves as they were. -/
theorem lookups_concat (h : scopes.Reflects history) (change : ScopeChange) {around : List Scope}
    (suffix : around <:+ scopes.chain) {name : String}
    (le : around.length ≤ change.depth (depthAfter history) + 1)
    (unbound : ∀ value, change = .bind name value → around.length ≤ depthAfter history)
    (value : Value) : around.findSome? (·.get? name) = some value ↔
      LastAbove (history ++ [change]) around.length name value := by
  rw [h.lookups around suffix, lastAbove_concat change le unbound]

theorem enter (h : scopes.Reflects history) : scopes.enter.Reflects (history ++ [.enter]) := by
  have depth : scopes.enter.chain.length = depthAfter history + 2 := by
    rw [Scopes.chain_enter, List.length_cons, h.depth]
  refine ⟨by rw [depth, depthAfter_concat]; rfl, fun around suffix name value => ?_⟩
  rw [Scopes.chain_enter, List.suffix_cons_iff] at suffix
  rcases suffix with rfl | suffix
  · -- nothing is bound in the new scope
    have lookup : (Scope.empty :: scopes.chain).findSome? (·.get? name) =
      scopes.chain.findSome? (·.get? name) := rfl
    have kept : LastAbove (history ++ [.enter]) (depthAfter history + 2) name value ↔
        LastAbove history (depthAfter history + 2) name value :=
      lastAbove_concat .enter (Nat.le_refl _) nofun
    rw [lookup, h.lookups _ List.suffix_rfl, ← Scopes.chain_enter, depth, h.depth, kept,
      lastAbove_iff_governs (by omega), lastAbove_iff_governs (by omega)]
  · have le := h.depth ▸ suffix.length_le
    exact h.lookups_concat .enter suffix (Nat.le_succ_of_le le) nofun value

theorem exit (h : scopes.Reflects history) : scopes.exit.Reflects (history ++ [.exit]) := by
  have depth : scopes.exit.chain.length = depthAfter history - 1 + 1 := by
    rw [Scopes.chain_exit, h.depth]
    split
    · rw [List.length_tail, h.depth]
      omega
    · rw [h.depth]
      omega
  have suffix' : scopes.exit.chain <:+ scopes.chain := by
    rw [Scopes.chain_exit]
    split
    · exact List.tail_suffix _
    · exact List.suffix_rfl
  refine ⟨by rw [depth, depthAfter_concat]; rfl, fun around suffix name value => ?_⟩
  exact h.lookups_concat .exit (suffix.trans suffix') (depth ▸ suffix.length_le) nofun value

theorem bind (h : scopes.Reflects history) (name : String) (value : Value) :
    (scopes.modify (·.insert name value)).Reflects (history ++ [.bind name value]) := by
  have depth : (scopes.inner.insert name value :: scopes.chain.tail).length =
    depthAfter history + 1 := h.depth
  have outside : scopes.chain.tail.length = depthAfter history := Nat.succ.inj depth
  refine ⟨by rw [Scopes.chain_modify, depth, depthAfter_concat]; rfl, ?_⟩
  intro around suffix name' value'
  rw [Scopes.chain_modify, List.suffix_cons_iff] at suffix
  rcases suffix with rfl | suffix
  · rw [depth, List.findSome?_cons, Scope.get?_insert]
    by_cases same : name' = name
    · subst same
      rw [if_pos rfl, lastAbove_bind, Option.some_inj]
    · have unbound (other : Value) : ScopeChange.bind name value = .bind name' other →
          scopes.chain.length ≤ depthAfter history :=
        fun made => absurd (ScopeChange.bind.inj made).1.symm same
      have kept := h.lookups_concat (.bind name value) List.suffix_rfl (Nat.le_of_eq h.depth)
        unbound value'
      rw [h.depth] at kept
      rw [if_neg same]
      exact kept
  · have le := outside ▸ suffix.length_le
    exact h.lookups_concat (.bind name value) (suffix.trans (List.tail_suffix _))
      (Nat.le_succ_of_le le) (fun _ _ => le) value'

theorem after (library : Library) (globals : Scope) (settings : Settings)
    (history : List ScopeChange) :
    ((Context.start library globals settings).after history).scopes.Reflects history := by
  induction history using List.reverseRecOn with
  | nil => exact root
  | append_singleton history change ih =>
    rw [Context.after_concat]
    cases change with
    | enter => exact ih.enter
    | exit => exact ih.exit
    | bind name value => exact ih.bind name value

theorem find?_eq_some_iff (h : scopes.Reflects history) {name : String} {value : Value} :
    scopes.find? name = some value ↔ ∃ i, Governs history name value i := by
  refine (h.lookups scopes.chain List.suffix_rfl name value).trans ?_
  rw [h.depth]
  exact lastAbove_iff_governs (Nat.lt_succ_self _)

theorem find?_eq_none_iff (h : scopes.Reflects history) {name : String} :
    scopes.find? name = none ↔ ∀ value i, ¬ Persists history name value i := by
  constructor
  · intro unbound value i persists
    obtain ⟨value', j, governs⟩ := exists_governs persists
    rw [h.find?_eq_some_iff.2 ⟨j, governs⟩] at unbound
    cases unbound
  · intro nothing
    by_contra bound
    obtain ⟨value, found⟩ := Option.ne_none_iff_exists'.1 bound
    obtain ⟨i, governs⟩ := h.find?_eq_some_iff.1 found
    exact nothing value i governs.toPersists

end Scopes.Reflects

theorem Context.globals_after (c : Context) (history : List ScopeChange) :
    (c.after history).globals = c.globals := by
  induction history using List.reverseRecOn with
  | nil => rfl
  | append_singleton history change ih =>
    rw [Context.after_concat, ← ih]
    cases change <;> rfl

/-! ## Scopes that are left again -/

/-- Where there is no scope but the outermost one, an exit does nothing. -/
theorem Context.exitScope_of_outermost {c : Context} (outermost : c.scopes.outer = []) :
    c.exitScope = c := by
  have same : c.scopes.exit = c.scopes := by
    unfold Scopes.exit
    rw [outermost]
  rw [Context.exitScope, same]

/-- The context with no more than the bindings of its innermost scope changed. -/
def Context.Rebinds (c c' : Context) : Prop :=
  ∃ scope, c' = { c with scopes := ⟨scope, c.scopes.outer⟩ }

theorem Context.after_nest {c : Context} {inside : List ScopeChange}
    (rebinds : c.enterScope.Rebinds (c.enterScope.after inside)) (rest : List ScopeChange) :
    c.after (.enter :: inside ++ .exit :: rest) = c.after rest := by
  obtain ⟨scope, within⟩ := rebinds
  calc c.after (.enter :: inside ++ .exit :: rest)
    _ = (c.enterScope.after inside).exitScope.after rest := List.foldl_append
    _ = c.after rest := congrArg (·.exitScope.after rest) within

theorem WellNested.rebinds {inside : List ScopeChange} (nested : WellNested inside) (c : Context) :
    c.Rebinds (c.after inside) := by
  induction nested generalizing c with
  | nil => exact ⟨c.scopes.inner, rfl⟩
  | bind name value _ others => exact others (c.assign [name] value)
  | nest _ _ within others =>
    rw [Context.after_nest (within c.enterScope)]
    exact others c

/-- **Lookups follow the history of the scopes.** After any changes to the scopes a name means what
the binding that governs it says, and if none persists what the globals say. The outermost scope is
not left by an exit. And after an exit from a scope that was entered, with only well-nested changes
in between, all names mean what they meant before that scope. -/
theorem lookups_follow_history (library : Library) (globals : Scope) (settings : Settings)
    (history : List ScopeChange) :
    let c := (Context.start library globals settings).after history
    c.scopes.chain.length = depthAfter history + 1 ∧
    (∀ name value, c.find? name = some value ↔
      (∃ i, Governs history name value i) ∨
        (∀ value' i, ¬ Persists history name value' i) ∧ globals.get? name = some value) ∧
    (depthAfter history = 0 → (c.after [.exit]).find? = c.find?) ∧
    ∀ inside, WellNested inside → (c.after (.enter :: inside ++ [.exit])).find? = c.find? := by
  intro c
  have reflects : c.scopes.Reflects history := .after library globals settings history
  have sameGlobals : c.globals = globals := Context.globals_after _ history
  refine ⟨reflects.depth, fun name value => ?_, fun outermost => ?_, fun inside nested => ?_⟩
  · rw [Context.find?, Option.or_eq_some_iff, reflects.find?_eq_some_iff,
      reflects.find?_eq_none_iff, sameGlobals]
  · have alone : c.scopes.outer = [] :=
      List.eq_nil_of_length_eq_zero (Nat.succ.inj (outermost ▸ reflects.depth))
    exact congrArg Context.find? (Context.exitScope_of_outermost alone)
  · exact congrArg Context.find? (Context.after_nest (nested.rebinds c.enterScope) [])

/-- An exit too many does not touch the outermost scope, and so the `x` bound there still governs.
The `x` and `y` of the scope that was left do not, and what `y` means is left to the globals. -/
theorem lookups_follow_history_past_exits :
    let history : List ScopeChange := [.bind "x" (.int 1), .exit, .enter, .bind "x" (.int 2),
      .bind "y" (.int 3), .exit]
    let inside : List ScopeChange := [.bind "x" (.int 4), .enter, .bind "y" (.int 5), .exit]
    let c := (Context.start .empty (.ofList [("y", .int 9)]) {}).after history
    (c.find? "x" = some (.int 1) ∧ ∃ i, Governs history "x" (.int 1) i) ∧
    (c.find? "y" = some (.int 9) ∧ ∀ value i, ¬ Persists history "y" value i) ∧
    (depthAfter history = 0 ∧ (c.after [.exit]).find? = c.find?) ∧
    WellNested inside ∧ (c.after (.enter :: inside ++ [.exit])).find? = c.find? := by
  intro history inside c
  obtain ⟨-, follows, outermost, back⟩ :=
    lookups_follow_history .empty (.ofList [("y", .int 9)]) {} history
  have x : c.find? "x" = some (.int 1) := rfl
  have y : c.find? "y" = some (.int 9) := rfl
  have nested : WellNested inside := .bind _ _ (.nest (.bind _ _ .nil) .nil)
  refine ⟨⟨x, ?_⟩, ⟨y, ?_⟩, ⟨rfl, outermost rfl⟩, nested, back inside nested⟩
  · rcases (follows "x" (.int 1)).1 x with governs | ⟨-, unbound⟩
    · exact governs
    · cases unbound
  · rcases (follows "y" (.int 9)).1 y with ⟨i, governs⟩ | ⟨nothing, -⟩
    · have made := List.mem_of_getElem? governs.made
      simp [history] at made
    · exact nothing

end Stencil
