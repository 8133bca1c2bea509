import Stencil.Template.Statement

/-!
# `Stencil/Proofs/Parts.lean` — the statements inside a statement

There are two senses in which a statement is inside another. In the wide sense everything that
is written in it is, at any depth. In the narrow sense only what **belongs to the same block**
is: the content of a slot is the content of another block, and so is each body that an `extend`
registers. A `super` means the block it belongs to, so it is the narrow sense that says which.
-/

set_option autoImplicit false

namespace Stencil

mutual

/-- The statement and all statements in it. -/
def Statement.parts : Statement → List Statement
  | .text s => [.text s]
  | .output value => [.output value]
  | .loop vars source filter body otherwise =>
    .loop vars source filter body otherwise :: (bodyParts body ++ bodyParts otherwise)
  | .cond guard body branches =>
    .cond guard body branches :: (bodyParts body ++ branchParts branches)
  | .assign targets value => [.assign targets value]
  | .block name body => .block name body :: bodyParts body
  | .slot name inherits body => .slot name inherits body :: bodyParts body
  | .extend target isPath overrides => .extend target isPath overrides :: overrideParts overrides
  | .super => [.super]
termination_by structural statement => statement

/-- All statements in a body. -/
def bodyParts : List Statement → List Statement
  | [] => []
  | statement :: rest => statement.parts ++ bodyParts rest
termination_by structural body => body

def branchParts : List Branch → List Statement
  | [] => []
  | ⟨_, body⟩ :: rest => bodyParts body ++ branchParts rest
termination_by structural branches => branches

def overrideParts : List (String × List Statement) → List Statement
  | [] => []
  | (_, body) :: rest => bodyParts body ++ overrideParts rest
termination_by structural overrides => overrides

end

mutual

/-- The statement and the statements in it that belong to the same block. -/
def Statement.ownParts : Statement → List Statement
  | .text s => [.text s]
  | .output value => [.output value]
  | .loop vars source filter body otherwise =>
    .loop vars source filter body otherwise :: (bodyOwnParts body ++ bodyOwnParts otherwise)
  | .cond guard body branches =>
    .cond guard body branches :: (bodyOwnParts body ++ branchOwnParts branches)
  | .assign targets value => [.assign targets value]
  | .block name body => .block name body :: bodyOwnParts body
  | .slot name inherits body => [.slot name inherits body]
  | .extend target isPath overrides => [.extend target isPath overrides]
  | .super => [.super]
termination_by structural statement => statement

/-- The statements in a body that belong to the block whose content it is. -/
def bodyOwnParts : List Statement → List Statement
  | [] => []
  | statement :: rest => statement.ownParts ++ bodyOwnParts rest
termination_by structural body => body

def branchOwnParts : List Branch → List Statement
  | [] => []
  | ⟨_, body⟩ :: rest => bodyOwnParts body ++ branchOwnParts rest
termination_by structural branches => branches

end

/-! ## Overrides -/

theorem Registry.mem_of_find? {registry : Registry} {name : String} {level : Body}
    (found : registry.find? name = some level) : (name, level) ∈ registry := by
  obtain ⟨before, after, split, -⟩ := List.lookup_eq_some_iff.1 found
  exact List.mem_reverse.1 (by rw [split]; simp)

theorem bodyParts_subset_overrideParts {registry : Registry} {name : String} {level : Body}
    (mem : (name, level) ∈ registry) : bodyParts level ⊆ overrideParts registry := by
  induction registry with
  | nil => cases mem
  | cons entry rest ih =>
    obtain ⟨name', body⟩ := entry
    simp only [overrideParts]
    cases mem with
    | head => exact List.subset_append_left _ _
    | tail _ mem => exact List.subset_append_of_subset_right _ (ih mem)

end Stencil
