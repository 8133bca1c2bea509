import Stencil.Value.Basic

/-!
# `Stencil/Value/Fields.lean` — the entries of a map

Reading, inserting and listing. `insert` is the only way entries are added, and it keeps the order
that the type asks for by walking to the place where the key belongs; a key that is already there
keeps its place and takes the new value. `ofList` inserts from left to right, so that **of several
entries for one key the last wins**, and their order is otherwise forgotten.
-/

set_option autoImplicit false

/-- What is done to the values of an association list is done to the value that is looked up. -/
theorem Stencil.lookup_map_values {α β : Type} (f : α → β) (entries : List (String × α))
    (key : String) :
    (entries.map (Prod.map id f)).lookup key = (entries.lookup key).map f := by
  induction entries with
  | nil => rfl
  | cons entry rest ih =>
    obtain ⟨name, value⟩ := entry
    simp only [List.map_cons, Prod.map, id, List.lookup_cons]
    cases key == name with
    | true => rfl
    | false => exact ih

namespace Stencil.Fields

def toList : {lo : Option String} → Fields lo → List (String × Value)
  | _, .nil => []
  | _, .cons key _ value rest => (key, value) :: rest.toList
termination_by structural _ fields => fields

def size {lo : Option String} (fields : Fields lo) : Nat := fields.toList.length

def keys {lo : Option String} (fields : Fields lo) : List String := fields.toList.map (·.1)

def get? {lo : Option String} (fields : Fields lo) (key : String) : Option Value :=
  fields.toList.lookup key

def insert (key : String) (value : Value) :
    {lo : Option String} → (∀ l ∈ lo, l < key) → Fields lo → Fields lo
  | _, above, .nil => .cons key above value .nil
  | _, above, .cons key' above' value' rest =>
    if h : key < key' then .cons key above value (.cons key' (by simpa using h) value' rest)
    else if h' : key' < key then
      .cons key' above' value' (insert key value (by simpa using h') rest)
    else .cons key' above' value rest
termination_by structural _ _ fields => fields

/-- The map with these entries, a later one replacing an earlier one for the same key. -/
def ofList (entries : List (String × Value)) : Fields none :=
  entries.foldl (fun fields entry => insert entry.1 entry.2 (by simp) fields) .nil

/-! ## What the operations do to a look-up -/

@[simp] theorem get?_nil {lo : Option String} (name : String) :
    (Fields.nil : Fields lo).get? name = none := rfl

@[simp] theorem get?_cons {lo : Option String} (key : String) (above : ∀ l ∈ lo, l < key)
    (value : Value) (rest : Fields (some key)) (name : String) :
    (Fields.cons key above value rest).get? name =
      if name = key then some value else rest.get? name := by
  simp only [get?, toList, List.lookup_cons]
  split <;> simp_all

/-- A key is listed just when it is found, whatever it is found with. -/
theorem mem_keys_iff {lo : Option String} {fields : Fields lo} {name : String} :
    name ∈ fields.keys ↔ (fields.get? name).isSome := by
  rw [get?, keys, List.lookup_isSome_iff, List.mem_map]
  simp only [beq_iff_eq, @eq_comm _ name]

/-- After an insertion the key has the new value, and every other key the value it had. -/
theorem get?_insert (key : String) (value : Value) (name : String) :
    ∀ {lo : Option String} (above : ∀ l ∈ lo, l < key) (fields : Fields lo),
      (insert key value above fields).get? name =
        if name = key then some value else fields.get? name
  | _, above, .nil => by simp [insert]
  | _, above, .cons key' above' value' rest => by
    rw [insert]
    split
    · simp
    · split
      · rename_i h
        rw [get?_cons, get?_insert key value name _ rest, get?_cons]
        have := String.lt_irrefl key
        grind
      · rename_i h h'
        have : key = key' := String.le_antisymm (String.not_lt.1 h') (String.not_lt.1 h)
        grind [get?_cons]

/-- Of the entries for one key the last one is found. -/
theorem get?_ofList (entries : List (String × Value)) (name : String) :
    (ofList entries).get? name = entries.reverse.lookup name := by
  have inserted (entries : List (String × Value)) (fields : Fields none) :
      (entries.foldl (fun fields entry => insert entry.1 entry.2 (by simp) fields) fields).get? name =
        (entries.reverse.lookup name).or (fields.get? name) := by
    induction entries generalizing fields with
    | nil => rfl
    | cons entry rest ih =>
      rw [List.foldl_cons, ih, get?_insert, List.reverse_cons, List.lookup_append,
        List.lookup_cons, List.lookup_nil]
      by_cases same : name = entry.1
      · simp [same]
      · simp [same, beq_false_of_ne same]
  rw [ofList, inserted, get?_nil, Option.or_none]

/-! ## The order of the keys -/

theorem lt_of_mem_keys : ∀ {lo : Option String} (fields : Fields lo),
    ∀ key ∈ fields.keys, ∀ l ∈ lo, l < key
  | _, .nil => by simp [keys, toList]
  | _, .cons key above _ rest => by
    intro name mem l hl
    rcases List.mem_cons.1 mem with rfl | mem
    · exact above l hl
    · exact String.lt_trans (above l hl) (lt_of_mem_keys rest name mem key rfl)

/-- Keys are listed in ascending order, so each of them once. -/
theorem pairwise_keys : ∀ {lo : Option String} (fields : Fields lo),
    fields.keys.Pairwise (· < ·)
  | _, .nil => .nil
  | _, .cons key _ _ rest =>
    .cons (fun name mem => lt_of_mem_keys rest name mem key rfl) (pairwise_keys rest)

end Stencil.Fields
