import Stencil.Proofs.Parts
import Stencil.Proofs.Simulation

/-!
# `Stencil/Proofs/Stranded.lean` — a `super` that belongs to no block

`super` means the block it is written in. One that is written in a template itself, in no override
and in no slot, has no block to mean, and what it should do is nothing. That is what it does, too,
where no levels are left in the context; only it is the render that leaves them there and not the
text around the `super`, and **an `extend` in an override takes its levels along**. In the template
it goes to they are still left, and a `super` that belongs to no block renders one of them
(`outer_super_not_inert`).

The levels can be followed. Out of an override they come into the templates that it extends, from
there into those that these extend, and no further: a slot has levels of its own, and below its
default content there are none. Call these templates *inside*, or any larger set of templates that
is closed under both ways (`Closed`). Then

> in every template that is not inside, a `super` that belongs to no block **is the empty text**

(`outer_supers_inert`), whatever the render it is in has been through.
-/

set_option autoImplicit false

namespace Stencil

open Stencil.Action

/-! ## Replacing `super` -/

section Replacing

variable (new : Statement)

mutual

/-- The statement with another one in the place of each `super` that belongs to the same block. -/
def replaceSuper : Statement → Statement
  | .text s => .text s
  | .output value => .output value
  | .loop vars source filter body otherwise =>
    .loop vars source filter (replaceSupers body) (replaceSupers otherwise)
  | .cond guard body branches => .cond guard (replaceSupers body) (replaceSupersFirst branches)
  | .assign targets value => .assign targets value
  | .block name body => .block name (replaceSupers body)
  | .slot name inherits body => .slot name inherits body
  | .extend target isPath overrides => .extend target isPath overrides
  | .super => new
termination_by structural statement => statement

def replaceSupers : List Statement → List Statement
  | [] => []
  | statement :: rest => replaceSuper statement :: replaceSupers rest
termination_by structural body => body

def replaceSupersFirst : List Branch → List Branch
  | [] => []
  | ⟨guard, body⟩ :: rest => ⟨guard, replaceSupers body⟩ :: replaceSupersFirst rest
termination_by structural branches => branches

end

end Replacing

mutual

theorem replaceSuper_super : ∀ statement : Statement,
    replaceSuper .super statement = statement
  | .loop vars source filter body otherwise => by
    rw [replaceSuper, replaceSupers_super body, replaceSupers_super otherwise]
  | .cond guard body branches => by
    rw [replaceSuper, replaceSupers_super body, replaceSupersFirst_super branches]
  | .block name body => by
    rw [replaceSuper, replaceSupers_super body]
  | .text _ | .output _ | .assign _ _ | .slot _ _ _ | .extend _ _ _ | .super => rfl
termination_by structural statement => statement

theorem replaceSupers_super : ∀ body : List Statement, replaceSupers .super body = body
  | [] => rfl
  | statement :: rest => by
    rw [replaceSupers, replaceSuper_super statement, replaceSupers_super rest]
termination_by structural body => body

theorem replaceSupersFirst_super : ∀ branches : List Branch,
    replaceSupersFirst .super branches = branches
  | [] => rfl
  | ⟨guard, body⟩ :: rest => by
    rw [replaceSupersFirst, replaceSupers_super body, replaceSupersFirst_super rest]
termination_by structural branches => branches

end

/-- The template with nothing in the place of each `super` that belongs to no block. -/
def Template.hushed (template : Template) : Template :=
  { template with body := replaceSupers (.text "") template.body }

/-- The library with the templates hushed that are found under a name that is not inside. -/
def Library.hushed (inside : String → Bool) (library : Library) : Library :=
  ⟨fun name => (library.find? name).map fun template =>
    if inside name then template else template.hushed⟩

theorem Library.find?_hushed (inside : String → Bool) (library : Library) (name : String) :
    (library.hushed inside).find? name = (library.find? name).map fun template =>
      if inside name then template else template.hushed := rfl

/-! ## Where levels are taken along to -/

section Inside

variable (inside : String → Bool)

/-- If the statement is an `extend` that is followed, it goes to a template inside. -/
def Statement.GoesInside : Statement → Prop
  | .extend target true _ => inside target = true
  | _ => True

/-- If the statement registers overrides, each `extend` that belongs to one of them goes inside. -/
def Statement.LeadsInside : Statement → Prop
  | .extend _ _ overrides =>
    ∀ override ∈ overrides, ∀ part ∈ bodyOwnParts override.2, part.GoesInside inside
  | _ => True

/-- No levels are taken along to a template that is not inside: each `extend` that belongs to an
override goes inside, wherever the override is registered, and each one that belongs to a template
inside does. -/
structure Closed (main : Template) (library : Library) : Prop where
  ofMain : ∀ part ∈ bodyParts main.body, part.LeadsInside inside
  ofLibrary : ∀ key template, library.find? key = some template →
    ∀ part ∈ bodyParts template.body, part.LeadsInside inside
  ofInside : ∀ key template, library.find? key = some template → inside key = true →
    ∀ part ∈ bodyOwnParts template.body, part.GoesInside inside

/-- With these levels left, statements may be rendered of which the first list has all parts and the
second those that belong to the same block. -/
structure Fit (levels : List Body) (parts own : List Statement) : Prop where
  leads : ∀ part ∈ parts, part.LeadsInside inside
  goes : levels ≠ [] → ∀ part ∈ own, part.GoesInside inside

/-- Each of the levels may be rendered with those below it left. -/
def LevelsFit : List Body → Prop
  | [] => True
  | level :: below => Fit inside below (bodyParts level) (bodyOwnParts level) ∧ LevelsFit below

/-- Each override may be rendered with any levels left. -/
def RegistryFits (registry : Registry) : Prop :=
  ∀ override ∈ registry, ∀ levels,
    Fit inside levels (bodyParts override.2) (bodyOwnParts override.2)

end Inside

section Fitting

variable {inside : String → Bool} {levels : List Body} {p q p' q' : List Statement}
  {statement statement' : Statement}

namespace Fit

theorem left (h : Fit inside levels (p ++ q) (p' ++ q')) : Fit inside levels p p' where
  leads part mem := h.leads part (List.mem_append_left q mem)
  goes some part mem := h.goes some part (List.mem_append_left q' mem)

theorem right (h : Fit inside levels (p ++ q) (p' ++ q')) : Fit inside levels q q' where
  leads part mem := h.leads part (List.mem_append_right p mem)
  goes some part mem := h.goes some part (List.mem_append_right p' mem)

theorem tail (h : Fit inside levels (statement :: p) (statement' :: p')) :
    Fit inside levels p p' where
  leads part mem := h.leads part (List.mem_cons_of_mem statement mem)
  goes some part mem := h.goes some part (List.mem_cons_of_mem statement' mem)

/-- What a slot renders in the end is its default content, and then no levels are left. -/
theorem default {name : String} {inherits : Bool} {default : Body}
    (h : Fit inside levels (Statement.slot name inherits default).parts p) :
    Fit inside [] (bodyParts default) (bodyOwnParts default) where
  leads part mem := h.leads part (List.mem_cons_of_mem _ mem)
  goes some := absurd rfl some

theorem registry {target : String} {isPath : Bool} {overrides : Registry}
    (h : Fit inside levels (Statement.extend target isPath overrides).parts p) :
    RegistryFits inside overrides := by
  intro override mem levels'
  have leads := h.leads _ List.mem_cons_self
  refine ⟨fun part inIt => ?_, fun _ => leads override mem⟩
  have sub : bodyParts override.2 ⊆ overrideParts overrides := bodyParts_subset_overrideParts mem
  exact h.leads part (List.mem_cons_of_mem _ (sub inIt))

end Fit

theorem LevelsFit.append_default {overrides : List Body} {default : Body}
    (fit : ∀ level ∈ overrides, ∀ levels,
      Fit inside levels (bodyParts level) (bodyOwnParts level))
    (last : Fit inside [] (bodyParts default) (bodyOwnParts default)) :
    LevelsFit inside (overrides ++ [default]) := by
  induction overrides with
  | nil => exact ⟨last, trivial⟩
  | cons level rest ih =>
    refine ⟨fit level List.mem_cons_self _, ih fun other mem => ?_⟩
    exact fit other (List.mem_cons_of_mem level mem)

end Fitting

/-! ## Two sessions of which one is hushed -/

/-- The remarks on anything but a `super` that finds no level. -/
def Session.otherRemarks (s : Session) : List Event :=
  s.log.toList.filter (·.notice != .strandedSuper)

theorem Session.otherRemarks_noticing (s : Session) (notice : Notice) :
    (s.noticing notice).otherRemarks =
      s.otherRemarks ++ if notice = .strandedSuper then [] else [⟨notice, s.context.active⟩] := by
  unfold otherRemarks noticing
  by_cases stranded : notice = .strandedSuper <;> simp [stranded]

/-- The second session is where the first is, with the same levels left, but that it renders from
the hushed library. -/
structure Alongside (inside : String → Bool) (library : Library) (levels : List Body)
    (s t : Session) : Prop where
  supers : s.context.supers = levels
  fit : LevelsFit inside levels
  dispatch : ∀ registry ∈ s.context.dispatch, RegistryFits inside registry
  templates : s.context.library = library
  context : t.context = { s.context with library := library.hushed inside }
  output : t.output = s.output
  remarks : t.otherRemarks = s.otherRemarks

namespace Alongside

variable {inside : String → Bool} {library : Library} {levels : List Body} {s t : Session}

theorem noticing (h : Alongside inside library levels s t) (notice : Notice) :
    Alongside inside library levels (s.noticing notice) (t.noticing notice) := by
  refine ⟨h.supers, h.fit, h.dispatch, h.templates, h.context, h.output, ?_⟩
  have active : t.context.active = s.context.active := by
    rw [h.context]
  rw [Session.otherRemarks_noticing, Session.otherRemarks_noticing, h.remarks, active]

/-- A change of where the render stands in its scopes and its templates only. -/
theorem moving (h : Alongside inside library levels s t) (f : Context → Context)
    (only : ∀ (c : Context) (library : Library), f { c with library := library } =
      { c with library := library, scopes := (f c).scopes, active := (f c).active }) :
    Alongside inside library levels { s with context := f s.context }
      { t with context := f t.context } := by
  have moved : f s.context =
      { s.context with scopes := (f s.context).scopes, active := (f s.context).active } :=
    only s.context s.context.library
  refine ⟨?_, h.fit, ?_, ?_, ?_, h.output, h.remarks⟩
  · rw [moved]
    exact h.supers
  · rw [moved]
    exact h.dispatch
  · rw [moved]
    exact h.templates
  · show f t.context = { f s.context with library := library.hushed inside }
    rw [h.context, only, moved]

theorem inScope {α : Type} {x y : Action α} (h : Related (Alongside inside library levels) x y) :
    Related (Alongside inside library levels) (Action.inScope x) (Action.inScope y) := by
  refine Related.bracket (Q := Alongside inside library levels) ?_ ?_ h
  · exact fun s t h => h.moving Context.enterScope fun _ _ => rfl
  · exact fun _ _ u v _ inner => inner.moving Context.exitScope fun _ _ => rfl

theorem ordinary (inside : String → Bool) (library : Library) (levels : List Body) :
    KeptByOrdinary (Alongside inside library levels) where
  pure a := .pure a
  bind := Related.bind
  write text := fun s t h => .done () { h with output := by simp only [h.output] }
  notify notice := fun s t h => .done () (h.noticing notice)
  evaluate e := fun s t h => by
    have same : t.context.find? = s.context.find? := by
      rw [h.context]
      rfl
    show (evaluate e s).Related (Alongside inside library levels) (evaluate e t)
    unfold evaluate
    rw [same]
    cases e.eval s.context.find? with
    | ok value => exact .done value h
    | error error => exact .failed _ h
  assign names value := fun s t h =>
    .done () (h.moving (·.assign names value) fun _ _ => rfl)
  inScope := inScope

end Alongside

/-! ## Statements of inheritance -/

section Jumps

/-- What may stand in the place of a `super` in the hushed render: nothing, if the `super` would not
render anything. -/
inductive Stands : List Body → Statement → Prop
  | same (levels : List Body) : Stands levels .super
  | nothing : Stands [] (.text "")

variable (inside : String → Bool) (library : Library)

/-- Whatever levels are left, the renders go on alongside each other after a jump. -/
def GoAlongside (jump jump' : Jump) : Prop :=
  ∀ (levels : List Body) (new : Statement) (body : Body), Stands levels new →
    Fit inside levels (bodyParts body) (bodyOwnParts body) →
    Related (Alongside inside library levels) (jump body) (jump' (replaceSupers new body))

variable {inside library} {jump jump' : Jump}

theorem renderTemplate_alongside {levels : List Body} {template template' : Template}
    (name : template'.name = template.name)
    (body : Related (Alongside inside library levels) (jump template.body) (jump' template'.body)) :
    Related (Alongside inside library levels) (renderTemplate jump template)
      (renderTemplate jump' template') := by
  intro s t h
  have active : t.context.active = s.context.active := by
    rw [h.context]
  have settings : t.context.settings = s.context.settings := by
    rw [h.context]
  cases he : s.context.enterTemplate template.name with
  | error e =>
    have he' : t.context.enterTemplate template'.name = .error e := by
      rw [Context.enterTemplate_eq_error_iff] at he ⊢
      rwa [active, settings, name]
    rw [renderTemplate_of_error he, renderTemplate_of_error he']
    exact .failed e h
  | ok entered =>
    obtain ⟨new, room, -⟩ := Context.enterTemplate_eq_ok_iff.1 he
    have new' : template'.name ∉ t.context.active := by
      rwa [active, name]
    have room' : t.context.active.length < t.context.settings.maxDepth := by
      rwa [active, settings]
    have inner : Alongside inside library levels (s.inside template.name)
        (t.inside template'.name) := by
      rw [name]
      exact h.moving (fun c => { c with active := c.active ++ [template.name] }.enterScope)
        fun _ _ => rfl
    have rendered := (body.bind (f := fun _ => pure ()) (g := fun _ => pure ()) fun _ =>
      .pure ()) _ _ inner
    rw [renderTemplate_of_room new room, renderTemplate_of_room new' room']
    exact rendered.mapSession fun u v huv => huv.moving (·.exitScope.exitTemplate) fun _ _ => rfl

theorem renderExtended_alongside {levels : List Body} {template template' : Template}
    {overrides : Registry} (fit : RegistryFits inside overrides)
    (name : template'.name = template.name)
    (body : Related (Alongside inside library levels) (jump template.body) (jump' template'.body)) :
    Related (Alongside inside library levels) (renderExtended jump template overrides)
      (renderExtended jump' template' overrides) := by
  unfold renderExtended withRegistry
  refine Related.bracket (Q := Alongside inside library levels) ?_ ?_
    (renderTemplate_alongside name body)
  · intro s t h
    refine { h with dispatch := fun registry mem => ?_, context := ?_ }
    · rcases List.mem_append.1 mem with before | added
      · exact h.dispatch registry before
      · rw [List.mem_singleton.1 added]
        exact fit
    · rw [h.context]
      rfl
  · intro s t u v h inner
    refine { inner with dispatch := h.dispatch, context := ?_ }
    rw [inner.context, h.context]

variable (follows : GoAlongside inside library jump jump')
include follows

theorem renderLevels_alongside (k : List Body) {levels : List Body}
    (fit : LevelsFit inside levels) :
    Related (Alongside inside library k) (renderLevels jump levels) (renderLevels jump' levels) := by
  cases levels with
  | nil => exact .pure Flow.proceed
  | cons level below =>
    -- A level is never hushed: a `super` in it belongs to the block that it is a level of.
    have inner := follows below .super level (.same below) fit.left
    rw [replaceSupers_super] at inner
    unfold renderLevels withSupers
    refine Related.bracket (Q := Alongside inside library below) ?_ ?_ inner
    · intro s t h
      refine { h with supers := rfl, fit := fit.right, context := ?_ }
      rw [h.context]
    · intro s t u v h inner
      refine { inner with supers := h.supers, fit := h.fit, context := ?_ }
      rw [inner.context, h.context]

theorem renderSlot_alongside (k : List Body) (name : String) {default : Body}
    (last : Fit inside [] (bodyParts default) (bodyOwnParts default)) :
    Related (Alongside inside library k) (renderSlot jump name default)
      (renderSlot jump' name default) := by
  rw [renderSlot_eq_renderLevels, renderSlot_eq_renderLevels]
  apply Alongside.inScope
  intro s t h
  have overrides : t.context.overrides name = s.context.overrides name := by
    rw [h.context]
    rfl
  have fit : ∀ level ∈ s.context.overrides name, ∀ levels,
      Fit inside levels (bodyParts level) (bodyOwnParts level) := by
    intro level mem
    obtain ⟨registry, inForce, found⟩ := List.mem_filterMap.1 mem
    exact h.dispatch registry inForce _ (Registry.mem_of_find? found)
  show (renderLevels jump (s.context.overrides name ++ [default])
      (s.noticing (.dispatching name (s.context.overrides name).length))).Related
    (Alongside inside library k)
    (renderLevels jump' (t.context.overrides name ++ [default])
      (t.noticing (.dispatching name (t.context.overrides name).length)))
  rw [overrides]
  exact renderLevels_alongside follows k (.append_default fit last) _ _ (h.noticing _)

theorem slot_alongside (k : List Body) (name : String) (inherits : Bool) {default : Body}
    (last : Fit inside [] (bodyParts default) (bodyOwnParts default)) :
    Related (Alongside inside library k) ((Statement.slot name inherits default).renderWith jump)
      ((Statement.slot name inherits default).renderWith jump') := by
  have slot := renderSlot_alongside follows k name last
  intro s t h
  have dispatch : t.context.dispatch = s.context.dispatch := by
    rw [h.context]
  simp only [Statement.renderWith]
  rw [context_bind, context_bind, dispatch]
  cases s.context.dispatch.isEmpty with
  | true => exact .done _ (h.noticing _)
  | false =>
    cases inherits with
    | true => exact slot s t h
    | false =>
      have apart : Related (Alongside inside library k) (isolated (renderSlot jump name default))
          (isolated (renderSlot jump' name default)) := by
        unfold isolated
        refine Related.bracket (Q := Alongside inside library k) ?_ ?_ slot
        · exact fun s t h => h.moving Context.isolated fun _ _ => rfl
        · exact fun s t u v h inner => { h with output := inner.output, remarks := inner.remarks }
      exact apart s t h

/-- What stands in the place of a `super` does what the `super` does. -/
theorem super_alongside {levels : List Body} {new : Statement} (stands : Stands levels new) :
    Related (Alongside inside library levels) (Statement.super.renderWith jump)
      (new.renderWith jump') := by
  intro s t h
  cases stands with
  | same =>
    have supers : t.context.supers = s.context.supers := by
      rw [h.context]
    simp only [Statement.renderWith]
    rw [context_bind, context_bind, supers, h.supers]
    cases levels with
    | nil => exact .done _ (h.noticing .strandedSuper)
    | cons level below => exact renderLevels_alongside follows _ h.fit s t h
  | nothing =>
    simp only [Statement.renderWith]
    rw [context_bind, h.supers]
    refine .done _ { h with output := ?_, remarks := ?_ }
    · exact String.append_empty.trans h.output
    · have stranded := s.otherRemarks_noticing .strandedSuper
      rw [if_pos rfl, List.append_nil] at stranded
      exact h.remarks.trans stranded.symm

/-- With levels left, the template that is extended is inside, and is rendered as it is. -/
theorem extend_alongside {main : Template} (closed : Closed inside main library)
    {levels : List Body} {target : String} {isPath : Bool} {overrides : Registry}
    (fit : Fit inside levels (Statement.extend target isPath overrides).parts
      (Statement.extend target isPath overrides).ownParts) :
    Related (Alongside inside library levels)
      ((Statement.extend target isPath overrides).renderWith jump)
      ((Statement.extend target isPath overrides).renderWith jump') := by
  intro s t h
  simp only [Statement.renderWith]
  cases isPath with
  | false => exact .done _ (h.noticing (.computedTarget target))
  | true =>
    have hushed : t.context.library = library.hushed inside := by
      rw [h.context]
    simp only [if_true]
    rw [context_bind, context_bind, hushed, library.find?_hushed, h.templates]
    cases found : library.find? target with
    | none => exact .done _ (h.noticing (.missingTemplate target))
    | some template =>
      have leads := closed.ofLibrary target template found
      simp only [Option.map_some]
      refine Related.bind (renderExtended_alongside fit.registry ?_ ?_) (fun _ => .pure _) s t h
      · split <;> rfl
      · cases isInside : inside target with
        | true =>
          have body := follows levels .super template.body (.same levels)
            ⟨leads, fun _ => closed.ofInside target template found isInside⟩
          rwa [replaceSupers_super] at body
        | false =>
          cases levels with
          | nil =>
            exact follows [] (.text "") template.body .nothing
              ⟨leads, fun some => absurd rfl some⟩
          | cons level below =>
            -- The `extend` itself says that with a level left its target is inside.
            have goes : inside target = true :=
              fit.goes (List.cons_ne_nil level below) _ List.mem_cons_self
            rw [isInside] at goes
            cases goes

end Jumps

/-! ## All statements -/

section Statements

variable {inside : String → Bool} {library : Library} {jump jump' : Jump} {main : Template}
  {levels : List Body} {new : Statement}

mutual

theorem renderWith_alongside (follows : GoAlongside inside library jump jump')
    (closed : Closed inside main library) (stands : Stands levels new) :
    ∀ statement : Statement, Fit inside levels statement.parts statement.ownParts →
      Related (Alongside inside library levels) (statement.renderWith jump)
        ((replaceSuper new statement).renderWith jump')
  | .text s, _ => (Alongside.ordinary inside library levels).pair.text s
  | .output _, _ => (Alongside.ordinary inside library levels).pair.output trivial
  | .loop vars _ _ body otherwise, fit =>
    (Alongside.ordinary inside library levels).pair.loop vars trivial (fun _ _ => trivial)
      (renderAllWith_alongside follows closed stands body fit.tail.left)
      (renderAllWith_alongside follows closed stands otherwise fit.tail.right)
  | .cond _ body branches, fit =>
    (Alongside.ordinary inside library levels).pair.cond trivial
      (renderAllWith_alongside follows closed stands body fit.tail.left)
      (renderFirstWith_alongside follows closed stands branches fit.tail.right)
  | .assign targets _, _ =>
    (Alongside.ordinary inside library levels).pair.assignment targets fun _ _ => trivial
  | .block name body, fit =>
    (Alongside.ordinary inside library levels).pair.block name
      (renderAllWith_alongside follows closed stands body fit.tail)
  | .slot name inherits _, fit => slot_alongside follows levels name inherits fit.default
  | .extend _ _ _, fit => extend_alongside follows closed fit
  | .super, _ => super_alongside follows stands
termination_by structural statement => statement

theorem renderAllWith_alongside (follows : GoAlongside inside library jump jump')
    (closed : Closed inside main library) (stands : Stands levels new) :
    ∀ body : List Statement, Fit inside levels (bodyParts body) (bodyOwnParts body) →
      Related (Alongside inside library levels) (renderAllWith jump body)
        (renderAllWith jump' (replaceSupers new body))
  | [], _ => .pure Flow.proceed
  | statement :: rest, fit =>
    (Alongside.ordinary inside library levels).pair.cons
      (renderWith_alongside follows closed stands statement fit.left)
      (renderAllWith_alongside follows closed stands rest fit.right)
termination_by structural body => body

theorem renderFirstWith_alongside (follows : GoAlongside inside library jump jump')
    (closed : Closed inside main library) (stands : Stands levels new) :
    ∀ branches : List Branch, Fit inside levels (branchParts branches) (branchOwnParts branches) →
      Related (Alongside inside library levels) (renderFirstWith jump branches)
        (renderFirstWith jump' (replaceSupersFirst new branches))
  | [], _ => .pure Flow.proceed
  | ⟨none, body⟩ :: _, fit => renderAllWith_alongside follows closed stands body fit.left
  | ⟨some _, body⟩ :: rest, fit =>
    (Alongside.ordinary inside library levels).pair.branch trivial
      (renderAllWith_alongside follows closed stands body fit.left)
      (renderFirstWith_alongside follows closed stands rest fit.right)
termination_by structural branches => branches

end

end Statements

theorem jumpWithin_alongside {inside : String → Bool} {main : Template} {library : Library}
    (closed : Closed inside main library) (bound : Nat) :
    GoAlongside inside library (jumpWithin bound) (jumpWithin bound) := by
  induction bound with
  | zero => exact fun _ _ _ _ _ _ _ _ => .exhausted
  | succ bound ih =>
    intro levels new body stands fit
    exact renderAllWith_alongside ih closed stands body fit

/-! ## Runs -/

/-- The same has been written, and the same remarked on but where a `super` found no level. -/
structure SameButStranded (s t : Session) : Prop where
  output : t.output = s.output
  remarks : t.otherRemarks = s.otherRemarks

/-- **A `super` that belongs to no block does nothing, unless levels can be taken along to it.** In
the template that is rendered and in every template that is not inside, the empty text may stand in
its place: the same text is written and the run ends in the same way. -/
theorem outer_supers_inert {inside : String → Bool} {main : Template} {library : Library}
    (closed : Closed inside main library) (globals : Scope) (settings : Settings) (bound : Nat) :
    (main.run bound library globals settings).Related SameButStranded
      (main.hushed.run bound (library.hushed inside) globals settings) := by
  have start : Alongside inside library [] (.start (.start library globals settings))
      (.start (.start (library.hushed inside) globals settings)) :=
    ⟨rfl, trivial, nofun, rfl, rfl, rfl, rfl⟩
  have body := jumpWithin_alongside closed bound [] (.text "") main.body .nothing
    ⟨closed.ofMain, fun some => absurd rfl some⟩
  have rendered : Related (Alongside inside library []) (main.render bound)
      (main.hushed.render bound) := renderTemplate_alongside rfl body
  exact (rendered _ _ start).imp fun s t _ _ h => ⟨h.output, h.remarks⟩

/-- Of four templates one is inside, and there the `super` renders what the override around the
`extend` has replaced. -/
theorem outer_supers_inert_beside_inside :
    let page : Template := ⟨"page", [.super, .text "a",
      .extend "base" true [("b", [.text "(", .extend "inner" true []])]]⟩
    let base : Template := ⟨"base", [.block "c" [.super], .slot "b" true [.text "D"]]⟩
    let inner : Template := ⟨"inner", [.super, .text ")"]⟩
    let library : Library := .ofList [base, inner]
    Closed (· == "inner") page library ∧
      ∃ s t, page.run 6 library .empty {} = .done () s ∧
        page.hushed.run 6 (library.hushed (· == "inner")) .empty {} = .done () t ∧
        s.output = "a(D)" ∧ SameButStranded s t := by
  intro page base inner library
  have loaded {key : String} {template : Template} (found : library.find? key = some template) :
      template = inner ∧ key = "inner" ∨ template = base ∧ key = "base" := by
    obtain ⟨mem, called⟩ : template ∈ [base, inner] ∧ template.name = key :=
      Library.mem_of_find?_ofList found
    rcases List.mem_cons.1 mem with rfl | mem
    · exact .inr ⟨rfl, called.symm⟩
    · obtain rfl := List.mem_singleton.1 mem
      exact .inl ⟨rfl, called.symm⟩
  have closed : Closed (· == "inner") page library := by
    refine ⟨?_, fun key template found => ?_, fun key template found isInside => ?_⟩
    · simp [page, bodyParts, overrideParts, Statement.parts, Statement.LeadsInside, bodyOwnParts,
        Statement.ownParts, Statement.GoesInside]
    · rcases loaded found with ⟨rfl, -⟩ | ⟨rfl, -⟩
      · simp [inner, bodyParts, Statement.parts, Statement.LeadsInside]
      · simp [base, bodyParts, Statement.parts, Statement.LeadsInside]
    · rcases loaded found with ⟨rfl, -⟩ | ⟨-, rfl⟩
      · simp [inner, bodyOwnParts, Statement.ownParts, Statement.GoesInside]
      · cases isInside
  have written : (page.run 6 library .empty {}).session?.map (·.output) = some "a(D)" := by
    decide +kernel
  have finished : (page.run 6 library .empty {}).error?.isNone := by
    decide +kernel
  obtain ⟨_, s, t, both⟩ := (outer_supers_inert closed .empty {} 6).of_finished finished written
  exact ⟨closed, s, t, both⟩

/-- That a `super` belongs to no block is not enough: the one in the template that an override
extends renders the default content of the slot. -/
theorem outer_super_not_inert :
    ¬∀ (main : Template) (library : Library) (globals : Scope) (settings : Settings) (bound : Nat),
      (main.run bound library globals settings).Related SameButStranded
        (main.hushed.run bound (library.hushed fun _ => false) globals settings) := by
  intro inert
  let main : Template := ⟨"main", [.extend "base" true [("b", [.extend "inner" true []])]]⟩
  let base : Template := ⟨"base", [.slot "b" true [.text "D"]]⟩
  let library : Library := .ofList [base, ⟨"inner", [.super]⟩]
  have written : (main.run 6 library .empty {}).session?.map (·.output) = some "D" := by
    decide +kernel
  have hushed : (main.hushed.run 6 (library.hushed fun _ => false) .empty {}).session?.map
      (·.output) = some "" := by
    decide +kernel
  have related := inert main library .empty {} 6
  obtain ⟨s, hs, output⟩ := Option.map_eq_some_iff.1 written
  obtain ⟨t, ht, same⟩ := related.session? hs
  rw [ht] at hushed
  have empty : t.output = "" := Option.some.inj hushed
  rw [same.output, output] at empty
  exact absurd empty (by decide)

end Stencil
