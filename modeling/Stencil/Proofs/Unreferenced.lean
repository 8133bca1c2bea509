import Stencil.Proofs.Parallel

/-!
# `Stencil/Proofs/Unreferenced.lean` — overrides that no slot asks for

Overrides are looked up by name, and only a slot looks them up. So if no slot has a certain name,

> **whatever is registered under that name is never rendered**, and might as well not be there.

That is a statement about two runs which hold different registries from the first `extend` on, and
chains of them of any length. The second one is *pruned*: everything registered under the name is
taken out, also from the registries inside of bodies that stay. What the two have in common is what
every slot finds, name by name, and no more than that is compared (`Standing.Pruned.overrides`).

The condition has to hold of all bodies that can come to be rendered, because a slot of that name
in any one of them would find the overrides. Of two versions of a program that differ in such
overrides both are pruned to the same one, which is how they are compared in the end.
-/

set_option autoImplicit false

namespace Stencil

open Stencil.Action

/-! ## Pruning -/

section Pruning

variable (name : String)

mutual

/-- The statement with nothing registered under the name, neither by it nor by a statement in it. -/
def Statement.pruned : Statement → Statement
  | .text s => .text s
  | .output value => .output value
  | .loop vars source filter body otherwise =>
    .loop vars source filter (pruneAll body) (pruneAll otherwise)
  | .cond guard body branches => .cond guard (pruneAll body) (pruneFirst branches)
  | .assign targets value => .assign targets value
  | .block label body => .block label (pruneAll body)
  | .slot label inherits body => .slot label inherits (pruneAll body)
  | .extend target isPath overrides => .extend target isPath (pruneOverrides overrides)
  | .super => .super
termination_by structural statement => statement

def pruneAll : List Statement → List Statement
  | [] => []
  | statement :: rest => statement.pruned :: pruneAll rest
termination_by structural body => body

def pruneFirst : List Branch → List Branch
  | [] => []
  | ⟨guard, body⟩ :: rest => ⟨guard, pruneAll body⟩ :: pruneFirst rest
termination_by structural branches => branches

def pruneOverrides : List (String × List Statement) → List (String × List Statement)
  | [] => []
  | (label, body) :: rest =>
    if label = name then pruneOverrides rest else (label, pruneAll body) :: pruneOverrides rest
termination_by structural overrides => overrides

end

def Template.pruned (template : Template) : Template :=
  { template with body := pruneAll name template.body }

def Library.pruned (library : Library) : Library := library.map (·.pruned name)

end Pruning

/-- Under every other name the pruned registry has what it had, pruned in turn. -/
theorem Registry.find?_pruned {name label : String} (other : label ≠ name) (registry : Registry) :
    Registry.find? (pruneOverrides name registry) label =
      (registry.find? label).map (pruneAll name) := by
  induction registry with
  | nil => rfl
  | cons entry rest ih =>
    obtain ⟨key, body⟩ := entry
    rw [pruneOverrides, Registry.find?_cons]
    by_cases gone : key = name
    · have absent : label ≠ key := by
        rw [gone]
        exact other
      rw [if_pos gone, if_neg absent, ih, Option.or_none]
    · rw [if_neg gone, Registry.find?_cons, ih, Option.map_or]
      split <;> rfl

/-! ## Slots of a name -/

/-- None of the statements is a slot of that name. -/
def NoSlot (name : String) (statements : List Statement) : Prop :=
  ∀ inherits default, Statement.slot name inherits default ∉ statements

namespace NoSlot

variable {name : String} {p q : List Statement} {statement : Statement}

theorem mono (h : NoSlot name q) (sub : p ⊆ q) : NoSlot name p := by
  intro inherits default mem
  exact h inherits default (sub mem)

theorem left (h : NoSlot name (p ++ q)) : NoSlot name p := h.mono (List.subset_append_left p q)

theorem right (h : NoSlot name (p ++ q)) : NoSlot name q := h.mono (List.subset_append_right p q)

theorem tail (h : NoSlot name (statement :: p)) : NoSlot name p :=
  h.mono (List.subset_cons_self statement p)

theorem ne {label : String} {inherits : Bool} {default : Body}
    (h : NoSlot name (.slot label inherits default :: p)) : label ≠ name := by
  rintro rfl
  exact h inherits default List.mem_cons_self

end NoSlot

/-- No slot of that name is written anywhere in the template or in one that it can come to. -/
structure Unreferenced (name : String) (main : Template) (library : Library) : Prop where
  main : NoSlot name (bodyParts main.body)
  library : ∀ key template, library.find? key = some template → NoSlot name (bodyParts template.body)

/-! ## A render and the pruned one -/

/-- The second body is the first one pruned, and has no slot of the name. -/
structure IsPruned (name : String) (body body' : Body) : Prop where
  eq : body' = pruneAll name body
  free : NoSlot name (bodyParts body)

/-- The second render stands where the first does, with pruned registries and templates. -/
structure Standing.Pruned (name : String) (a b : Standing) : Prop where
  settings : b.settings = a.settings
  library : ∀ key, b.library.find? key = (a.library.find? key).map (·.pruned name)
  loadable : ∀ key template, a.library.find? key = some template →
    NoSlot name (bodyParts template.body)
  dispatched : b.dispatch.isEmpty = a.dispatch.isEmpty
  /-- What slots find, when they have another name. -/
  overrides : ∀ label, label ≠ name →
    List.Forall₂ (IsPruned name) (a.overrides label) (b.overrides label)
  supers : List.Forall₂ (IsPruned name) a.supers b.supers
  active : b.active = a.active

namespace Standing.Pruned

variable {name : String} {a b : Standing} (h : a.Pruned name b)
include h

theorem leaving {levels levels' : List Body}
    (same : List.Forall₂ (IsPruned name) levels levels') :
    (a.leaving levels).Pruned name (b.leaving levels') :=
  { h with supers := same }

theorem entering (template : String) : (a.entering template).Pruned name (b.entering template) := by
  refine { h with active := ?_ }
  simp only [Standing.entering, h.active]

theorem adding {registry : Registry} (free : NoSlot name (overrideParts registry)) :
    (a.adding registry).Pruned name (b.adding (pruneOverrides name registry)) := by
  refine { h with dispatched := ?_, overrides := fun label other => ?_ }
  · rw [Standing.isEmpty_adding, Standing.isEmpty_adding]
  · simp only [Standing.overrides, Standing.adding, List.filterMap_append, List.filterMap_cons,
      List.filterMap_nil, Registry.find?_pruned other]
    refine List.rel_append (h.overrides label other) ?_
    cases found : registry.find? label with
    | none => exact .nil
    | some level =>
      have sub := bodyParts_subset_overrideParts (Registry.mem_of_find? found)
      exact .cons ⟨rfl, free.mono sub⟩ .nil

end Standing.Pruned

/-- The second render is the pruned one. -/
def pruning (name : String) : Comparison where
  visible _ := True
  standing := Standing.Pruned name
  log l l' := l' = l
  bodies := IsPruned name
  excused _ := False
  noticed := by
    rintro a b l l' standing rfl notice
    rw [standing.active]
  dispatched h := h.dispatched
  leftover h := h.supers
  leaving h same := h.leaving same

section Rendering

variable {name : String}

theorem pruning_enters {c d : Context} {template : Template}
    (standing : c.standing.Pruned name d.standing) (free : NoSlot name (bodyParts template.body)) :
    (pruning name).Enters c d template (template.pruned name) := by
  have active : d.active = c.active := standing.active
  have settings : d.settings = c.settings := standing.settings
  refine ⟨⟨rfl, free⟩, fun e he => .inr ?_, fun new room => ?_⟩
  · rw [Context.enterTemplate_eq_error_iff] at he ⊢
    rwa [active, settings]
  · rw [active, settings]
    exact ⟨new, room, standing.entering template.name⟩

open Comparison Parallel

theorem extend_pruning {jump jump' : Jump} (follows : (pruning name).Follows jump jump')
    (target : String) {overrides : Registry} (free : NoSlot name (overrideParts overrides)) :
    (pruning name).Parallel Flow ((Statement.extend target true overrides).renderWith jump)
      ((Statement.extend target true (pruneOverrides name overrides)).renderWith jump') := by
  have lookup {s t : Session} (h : (pruning name).Abreast s t) :
      t.context.library.find? target =
        (s.context.library.find? target).map (·.pruned name) :=
    h.standing.library target
  apply extend follows
  · intro s t h missing
    rw [lookup h, missing]
    exact ⟨rfl, rfl⟩
  · intro s t h template found
    refine ⟨template.pruned name, ?_, ?_⟩
    · rw [lookup h, found]
      rfl
    · apply renderExtended_written follows h
      exact pruning_enters (h.standing.adding free) (h.standing.loadable target template found)

mutual

theorem renderWith_pruning {jump jump' : Jump} (follows : (pruning name).Follows jump jump') :
    ∀ statement : Statement, NoSlot name statement.parts →
      (pruning name).Parallel Flow (statement.renderWith jump)
        ((statement.pruned name).renderWith jump')
  | .text s, _ => ordinary.text s
  | .output _, _ => ordinary.output fun _ _ => trivial
  | .loop vars _ _ body otherwise, free =>
    ordinary.loop vars (fun _ _ => trivial) (fun _ _ _ _ => trivial)
      (renderAllWith_pruning follows body free.tail.left)
      (renderAllWith_pruning follows otherwise free.tail.right)
  | .cond _ body branches, free =>
    ordinary.cond (fun _ _ => trivial) (renderAllWith_pruning follows body free.tail.left)
      (renderFirstWith_pruning follows branches free.tail.right)
  | .assign targets _, _ => ordinary.assignment targets fun _ _ _ _ => trivial
  | .block label body, free =>
    ordinary.block label (renderAllWith_pruning follows body free.tail)
  | .slot _ _ _, free =>
    slot follows ⟨rfl, free.tail⟩ fun _ _ standing => standing.overrides _ free.ne
  | .extend target isPath overrides, free => by
    cases isPath with
    | false => exact computed target overrides _
    | true => exact extend_pruning follows target free.tail
  | .super, _ => super follows
termination_by structural statement => statement

theorem renderAllWith_pruning {jump jump' : Jump} (follows : (pruning name).Follows jump jump') :
    ∀ body : List Statement, NoSlot name (bodyParts body) →
      (pruning name).Parallel Flow (renderAllWith jump body)
        (renderAllWith jump' (pruneAll name body))
  | [], _ => .pure Flow.proceed
  | statement :: rest, free =>
    ordinary.cons (renderWith_pruning follows statement free.left)
      (renderAllWith_pruning follows rest free.right)
termination_by structural body => body

theorem renderFirstWith_pruning {jump jump' : Jump}
    (follows : (pruning name).Follows jump jump') :
    ∀ branches : List Branch, NoSlot name (branchParts branches) →
      (pruning name).Parallel Flow (renderFirstWith jump branches)
        (renderFirstWith jump' (pruneFirst name branches))
  | [], _ => .pure Flow.proceed
  | ⟨none, body⟩ :: _, free => renderAllWith_pruning follows body free.left
  | ⟨some _, body⟩ :: rest, free =>
    ordinary.branch (fun _ _ => trivial) (renderAllWith_pruning follows body free.left)
      (renderFirstWith_pruning follows rest free.right)
termination_by structural branches => branches

end

theorem jumpWithin_pruning (name : String) (bound : Nat) :
    (pruning name).Follows (jumpWithin bound) (jumpWithin bound) := by
  refine ⟨jumpWithin_keeps bound, jumpWithin_keeps bound, ?_⟩
  induction bound with
  | zero =>
    intro body body' _
    exact ⟨jumpWithin_keeps 0 body, jumpWithin_keeps 0 body', fun _ _ _ => .inr .exhausted⟩
  | succ bound ih =>
    rintro body body' ⟨rfl, free⟩
    exact renderAllWith_pruning ⟨jumpWithin_keeps bound, jumpWithin_keeps bound, ih⟩ body free

/-- Where a run starts, no overrides are in force. -/
theorem start_pruning {main : Template} {library : Library}
    (unreferenced : Unreferenced name main library) (globals : Scope) (settings : Settings) :
    (Context.start library globals settings).standing.Pruned name
      (Context.start (library.pruned name) globals settings).standing where
  settings := rfl
  library := library.find?_map (·.pruned name)
  loadable := unreferenced.library
  dispatched := rfl
  overrides _ _ := .nil
  supers := .nil
  active := rfl

end Rendering

/-! ## Runs -/

theorem run_pruned {name : String} {main : Template} {library : Library}
    (unreferenced : Unreferenced name main library) (globals : Scope) (settings : Settings)
    (bound : Nat) :
    (main.run bound library globals settings).Related SameWriting
      ((main.pruned name).run bound (library.pruned name) globals settings) := by
  have enters := pruning_enters (start_pruning unreferenced globals settings) unreferenced.main
  have written := Comparison.renderTemplate_written (jumpWithin_pruning name bound)
    (s := .start (.start library globals settings))
    (t := .start (.start (library.pruned name) globals settings))
    ⟨rfl, rfl⟩ ⟨fun _ _ => rfl, fun _ _ => rfl⟩ enters
  have related := written.related fun _ _ excused => excused
  exact related.imp fun u v _ _ huv => ⟨huv.output, huv.log⟩

/-- **Overrides of a block that has no slot do not matter.** Of the two programs, one comes of the
other by adding, replacing or taking out overrides of that name, in any of the registries that are
written in them. Whatever the globals and the limit, they write the same text, make the same remarks
and end in the same way. -/
theorem run_ignores_unreferenced {name : String} {main main' : Template} {library library' : Library}
    (sameMain : main'.pruned name = main.pruned name)
    (sameLibrary : library'.pruned name = library.pruned name)
    (unreferenced : Unreferenced name main library)
    (unreferenced' : Unreferenced name main' library')
    (globals : Scope) (settings : Settings) (bound : Nat) :
    (main.run bound library globals settings).Related SameWriting
      (main'.run bound library' globals settings) := by
  have first := run_pruned unreferenced globals settings bound
  have second := run_pruned unreferenced' globals settings bound
  rw [sameMain, sameLibrary] at second
  refine first.join second fun s t u hs ht => ⟨?_, ?_⟩
  · exact ht.output.symm.trans hs.output
  · exact ht.log.symm.trans hs.log

/-- Overrides that would fail are added to the first `extend` and to one in the template it goes to,
beside an override that calls `super`. -/
theorem run_ignores_unreferenced_failing :
    let ghost : Registry := [("ghost", [.output (.negate (.const .empty))])]
    let page (added : Registry) : Template :=
      ⟨"page", [.extend "base" true (added ++ [("main", [.super, .text "!"])])]⟩
    let base (added : Registry) : Template :=
      ⟨"base", [.slot "main" true [.text "d"], .extend "gone" true added]⟩
    let library (added : Registry) : Library := .ofList [base added]
    (page ghost).pruned "ghost" = (page []).pruned "ghost" ∧
      (library ghost).pruned "ghost" = (library []).pruned "ghost" ∧
      (∀ added ∈ [[], ghost], Unreferenced "ghost" (page added) (library added)) ∧
      ∃ s t, (page []).run 4 (library []) .empty {} = .done () s ∧
        (page ghost).run 4 (library ghost) .empty {} = .done () t ∧
        s.output = "d!" ∧ SameWriting s t := by
  intro ghost page base library
  have unreferenced : ∀ added ∈ [[], ghost],
      Unreferenced "ghost" (page added) (library added) := by
    intro added mem
    have loaded {key : String} {template : Template}
        (found : (library added).find? key = some template) : template = base added :=
      List.mem_singleton.1 (Library.mem_of_find?_ofList found).1
    simp only [List.mem_cons, List.not_mem_nil, or_false] at mem
    rcases mem with rfl | rfl
    · refine ⟨?_, fun key template found => ?_⟩
      · simp [NoSlot, page, bodyParts, overrideParts, Statement.parts]
      · rw [loaded found]
        simp [NoSlot, base, bodyParts, overrideParts, Statement.parts]
    · refine ⟨?_, fun key template found => ?_⟩
      · simp [NoSlot, page, ghost, bodyParts, overrideParts, Statement.parts]
      · rw [loaded found]
        simp [NoSlot, base, ghost, bodyParts, overrideParts, Statement.parts]
  have finished : ((page []).run 4 (library []) .empty {}).error?.isNone := by decide +kernel
  have written : ((page []).run 4 (library []) .empty {}).session?.map (·.output) = some "d!" := by
    decide +kernel
  have sameMain : (page ghost).pruned "ghost" = (page []).pruned "ghost" := rfl
  have pruned (added : Registry) :
      (library added).pruned "ghost" = .ofList [(base added).pruned "ghost"] :=
    Library.map_ofList (f := (·.pruned "ghost")) (fun _ => rfl) [base added]
  have sameLibrary : (library ghost).pruned "ghost" = (library []).pruned "ghost" :=
    (pruned ghost).trans (pruned []).symm
  have related := run_ignores_unreferenced sameMain sameLibrary
    (unreferenced [] List.mem_cons_self)
    (unreferenced ghost (List.mem_cons_of_mem _ List.mem_cons_self)) .empty {} 4
  obtain ⟨_, s, t, both⟩ := related.of_finished finished written
  exact ⟨sameMain, sameLibrary, unreferenced, s, t, both⟩

end Stencil
