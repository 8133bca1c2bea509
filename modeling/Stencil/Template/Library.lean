import Stencil.Template.Statement

/-!
# `Stencil/Template/Library.lean` — templates by name

A render starts from one template and reaches others by name only, through the library. The
template it starts from need not be in there, and may even share its name with one that is.

**All that a render knows of a library is which template it finds under a name**, and so a library
is nothing else. It may find a template under other names than the template's own, and ever new
templates under ever new names. A library that is made of a list of templates (`ofList`) does
neither.
-/

set_option autoImplicit false

namespace Stencil

structure Template where
  name : String
  body : Body

/-- The templates that others can extend. -/
@[ext] structure Library where
  /-- The template that is found under a name. -/
  find? : String → Option Template

namespace Library

/-- The library in which nothing is found. -/
def empty : Library := ⟨fun _ => none⟩

/-- The library with one more template, which hides what was found under its name before. -/
def insert (library : Library) (template : Template) : Library :=
  ⟨fun name => if template.name = name then some template else library.find? name⟩

/-- The library of these templates, a later one hiding an earlier one of its name. -/
def ofList (templates : List Template) : Library := templates.foldl insert empty

/-- The library with something done to each of its templates. -/
def map (f : Template → Template) (library : Library) : Library :=
  ⟨fun name => (library.find? name).map f⟩

variable {templates : List Template} {template : Template} {name : String}

theorem find?_insert (library : Library) (template : Template) (name : String) :
    (library.insert template).find? name =
      if template.name = name then some template else library.find? name := rfl

theorem find?_map (f : Template → Template) (library : Library) (name : String) :
    (library.map f).find? name = (library.find? name).map f := rfl

/-- What is found in a library of templates is one of them, under its own name. -/
theorem mem_of_find?_ofList : (ofList templates).find? name = some template →
    template ∈ templates ∧ template.name = name := by
  have either (library : Library) :
      (templates.foldl insert library).find? name = some template →
        (template ∈ templates ∧ template.name = name) ∨ library.find? name = some template := by
    induction templates generalizing library with
    | nil => exact .inr
    | cons first rest ih =>
      intro found
      rcases ih (library.insert first) found with ⟨mem, named⟩ | found
      · exact .inl ⟨List.mem_cons_of_mem first mem, named⟩
      · rw [find?_insert] at found
        split at found
        · next named =>
          cases found
          exact .inl ⟨List.mem_cons_self, named⟩
        · exact .inr found
  intro found
  exact (either empty found).resolve_right nofun

/-- What is done to a library of templates, and leaves them their names, is done to each of them. -/
theorem map_ofList {f : Template → Template} (named : ∀ template, (f template).name = template.name)
    (templates : List Template) : (ofList templates).map f = ofList (templates.map f) := by
  have map_insert (library : Library) (template : Template) :
      (library.map f).insert (f template) = (library.insert template).map f := by
    ext1
    funext name
    simp only [find?_map, find?_insert, named]
    split <;> rfl
  unfold ofList
  rw [List.foldl_map]
  exact (List.foldl_hom (map f) map_insert).symm

end Library

structure Settings where
  /-- The most templates that may be under way at once, the one a render starts from included. -/
  maxDepth : Nat := 32
deriving DecidableEq, Repr

end Stencil
