import Stencil.Value.View

/-!
# `Stencil/Render/Scope.lean` — bindings, and scopes inside scopes

A scope binds names to values. While a template renders there is a chain of them, one for the
template and one more for each loop and each slot it is inside of, and a name means what the
innermost scope that binds it says. Bindings are only ever made in the innermost scope.

**The chain is never empty.** It is an innermost scope and the scopes around it, so there is always
a scope to bind a name in, and `exit` at the outermost scope stays where it is.
-/

set_option autoImplicit false

namespace Stencil

structure Scope where
  bindings : List (String × Value)

namespace Scope

def empty : Scope := ⟨[]⟩

def get? (scope : Scope) (name : String) : Option Value := scope.bindings.lookup name

/-- The bindings with `name` bound to `value`, in its old place if it had one. -/
def replace (name : String) (value : Value) : List (String × Value) → List (String × Value)
  | [] => [(name, value)]
  | (name', value') :: rest =>
    if name' = name then (name, value) :: rest else (name', value') :: replace name value rest

def insert (scope : Scope) (name : String) (value : Value) : Scope :=
  ⟨replace name value scope.bindings⟩

/-- The scope of these bindings, a later one replacing an earlier one for the same name. -/
def ofList (bindings : List (String × Value)) : Scope :=
  bindings.foldl (fun scope binding => scope.insert binding.1 binding.2) empty

/-- Binds one name to the whole value. Any other number of names takes it apart: each is bound to
the field that is called the same. -/
def assign (scope : Scope) (names : List String) (value : Value) : Scope :=
  match names with
  | [name] => scope.insert name value
  | names => names.foldl (fun scope name => scope.insert name (value.field name)) scope

theorem lookup_replace (name name' : String) (value : Value) (bindings : List (String × Value)) :
    (replace name value bindings).lookup name' =
      if name' = name then some value else bindings.lookup name' := by
  induction bindings with
  | nil =>
    simp only [replace, List.lookup_cons, List.lookup_nil]
    split <;> simp_all
  | cons binding rest ih =>
    obtain ⟨key, old⟩ := binding
    rw [replace]
    split <;> grind

/-- After an insertion the name has the new value, and every other name the value it had. -/
theorem get?_insert (scope : Scope) (name name' : String) (value : Value) :
    (scope.insert name value).get? name' = if name' = name then some value else scope.get? name' :=
  lookup_replace name name' value scope.bindings

/-- What an assignment binds a name to, if the name is one that it binds. -/
def assigned (names : List String) (value : Value) (name : String) : Option Value :=
  match names with
  | [single] => if name = single then some value else none
  | names => if name ∈ names then some (value.field name) else none

/-- Which names an assignment binds does not depend on the value. -/
theorem assigned_eq_none_iff {names : List String} {value : Value} {name : String} :
    assigned names value name = none ↔ name ∉ names := by
  unfold assigned
  split
  · simp [eq_comm]
  · simp

/-- A name alone is bound to the value, and one of several to its field. -/
theorem assigned_of_mem {names : List String} (value : Value) {name : String}
    (mem : name ∈ names) :
    assigned names value name = some (if names.length = 1 then value else value.field name) := by
  unfold assigned
  split
  · simp [List.mem_singleton.1 mem]
  · next several =>
    have plural : names.length ≠ 1 := by
      intro single
      obtain ⟨only, rfl⟩ := List.length_eq_one_iff.1 single
      exact several only rfl
    rw [if_pos mem, if_neg plural]

theorem get?_fields (scope : Scope) (names : List String) (value : Value) (name : String) :
    (names.foldl (fun scope name => scope.insert name (value.field name)) scope).get? name =
      if name ∈ names then some (value.field name) else scope.get? name := by
  induction names generalizing scope with
  | nil => simp
  | cons first rest ih =>
    rw [List.foldl_cons, ih, get?_insert]
    grind

/-- After an assignment the names that it binds have the new values, and every other name the value
it had. -/
theorem get?_assign (scope : Scope) (names : List String) (value : Value) (name : String) :
    (scope.assign names value).get? name = (assigned names value name).or (scope.get? name) := by
  unfold assign assigned
  split
  · rw [get?_insert]
    split <;> rfl
  · rw [get?_fields]
    split <;> rfl

end Scope

/-- A chain of scopes, the innermost one apart and the ones around it from the inside out. -/
structure Scopes where
  inner : Scope
  outer : List Scope

namespace Scopes

def root : Scopes := ⟨.empty, []⟩

def enter (scopes : Scopes) : Scopes := ⟨.empty, scopes.inner :: scopes.outer⟩

/-- The chain without its innermost scope; the outermost scope is never left. -/
def exit (scopes : Scopes) : Scopes :=
  match scopes.outer with
  | [] => scopes
  | scope :: outer => ⟨scope, outer⟩

/-- The value that the innermost scope binding the name gives it. -/
def find? (scopes : Scopes) (name : String) : Option Value :=
  (scopes.inner :: scopes.outer).findSome? (·.get? name)

def modify (scopes : Scopes) (f : Scope → Scope) : Scopes :=
  { scopes with inner := f scopes.inner }

@[simp] theorem exit_enter (scopes : Scopes) : scopes.enter.exit = scopes := rfl

/-- One of the scopes binds the name. -/
def Binds (scopes : Scopes) (name : String) : Prop :=
  ∃ scope ∈ scopes.inner :: scopes.outer, (scope.get? name).isSome

theorem isSome_find?_iff {scopes : Scopes} {name : String} :
    (scopes.find? name).isSome ↔ scopes.Binds name := by
  simp only [find?, Binds, List.findSome?_isSome_iff]

theorem find?_eq_none_iff {scopes : Scopes} {name : String} :
    scopes.find? name = none ↔ ¬scopes.Binds name := by
  rw [← isSome_find?_iff, Option.not_isSome_iff_eq_none]

end Scopes

end Stencil
