import Stencil.Proofs.Parallel

/-!
# `Stencil/Proofs/Detour.lean` — a template that only extends another is not noticed

Let a template do nothing but extend another, without overrides, and send some of the `extend`s that
went to the other to this one instead. The renders then differ at every later step: one more
registry is in force, one more scope is around the bindings, one more template is under way. None
of it shows.

> **The text is the same and so is the end**, if the render was done or stopped at an expression,
> with a limit that has room for one more template.

It is one more template and not more, however many of the `extend`s take the detour, because the
detour leads to the target and the template there is not entered twice (`Standing.Detours.passed`).
A render that stops because of a cycle or of the limit may stop elsewhere on a detour, so nothing is
said about it.

## Which of the two is transformed

The detour is taken out here, and not put in: `shortcut` makes every `extend` to the detour go to
the target. It is a function, while putting the detour in is a choice of `extend`s. Whatever the
choice, `shortcut` undoes it, if nothing went to the detour before (`Statement.shortcut_eq_self`).
-/

set_option autoImplicit false

namespace Stencil

open Stencil.Action

/-! ## Shortcuts -/

section Shortcut

variable (target detour : String)

mutual

/-- The statement with each `extend` to the detour going to the target. -/
def Statement.shortcut : Statement → Statement
  | .text s => .text s
  | .output value => .output value
  | .loop vars source filter body otherwise =>
    .loop vars source filter (shortcutAll body) (shortcutAll otherwise)
  | .cond guard body branches => .cond guard (shortcutAll body) (shortcutFirst branches)
  | .assign targets value => .assign targets value
  | .block name body => .block name (shortcutAll body)
  | .slot name inherits body => .slot name inherits (shortcutAll body)
  | .extend name isPath overrides =>
    .extend (if isPath && name = detour then target else name) isPath (shortcutOverrides overrides)
  | .super => .super
termination_by structural statement => statement

def shortcutAll : List Statement → List Statement
  | [] => []
  | statement :: rest => statement.shortcut :: shortcutAll rest
termination_by structural body => body

def shortcutFirst : List Branch → List Branch
  | [] => []
  | ⟨guard, body⟩ :: rest => ⟨guard, shortcutAll body⟩ :: shortcutFirst rest
termination_by structural branches => branches

def shortcutOverrides : List (String × List Statement) → List (String × List Statement)
  | [] => []
  | (name, body) :: rest => (name, shortcutAll body) :: shortcutOverrides rest
termination_by structural overrides => overrides

end

def Template.shortcut (template : Template) : Template :=
  { template with body := shortcutAll target detour template.body }

def Library.shortcut (library : Library) : Library :=
  library.map (·.shortcut target detour)

/-- The template on the way to the target. -/
def Template.onTheWay : Template := ⟨detour, [.extend target true []]⟩

end Shortcut

section Lookup

variable {target detour : String}

mutual

/-- A statement in which nothing goes to the detour is what it was. -/
theorem Statement.shortcut_eq_self : ∀ statement : Statement,
    (∀ overrides, .extend detour true overrides ∉ statement.parts) →
    statement.shortcut target detour = statement
  | .text _, _ => rfl
  | .output _, _ => rfl
  | .loop vars source filter body otherwise, free => by
    simp only [Statement.parts, List.mem_cons, List.mem_append, not_or] at free
    simp only [Statement.shortcut]
    rw [shortcutAll_eq_self body fun o => (free o).2.1,
      shortcutAll_eq_self otherwise fun o => (free o).2.2]
  | .cond guard body branches, free => by
    simp only [Statement.parts, List.mem_cons, List.mem_append, not_or] at free
    simp only [Statement.shortcut]
    rw [shortcutAll_eq_self body fun o => (free o).2.1,
      shortcutFirst_eq_self branches fun o => (free o).2.2]
  | .assign _ _, _ => rfl
  | .block name body, free => by
    simp only [Statement.parts, List.mem_cons, not_or] at free
    simp only [Statement.shortcut]
    rw [shortcutAll_eq_self body fun o => (free o).2]
  | .slot name inherits body, free => by
    simp only [Statement.parts, List.mem_cons, not_or] at free
    simp only [Statement.shortcut]
    rw [shortcutAll_eq_self body fun o => (free o).2]
  | .extend name isPath overrides, free => by
    simp only [Statement.parts, List.mem_cons, not_or] at free
    have elsewhere : ¬(isPath && name = detour) := by
      intro goes
      simp only [Bool.and_eq_true, decide_eq_true_eq] at goes
      obtain ⟨rfl, rfl⟩ := goes
      exact (free overrides).1 rfl
    simp only [Statement.shortcut]
    rw [if_neg elsewhere, shortcutOverrides_eq_self overrides fun o => (free o).2]
  | .super, _ => rfl
termination_by structural statement => statement

theorem shortcutAll_eq_self : ∀ body : List Statement,
    (∀ overrides, .extend detour true overrides ∉ bodyParts body) →
    shortcutAll target detour body = body
  | [], _ => rfl
  | statement :: rest, free => by
    simp only [bodyParts, List.mem_append, not_or] at free
    rw [shortcutAll, statement.shortcut_eq_self fun o => (free o).1,
      shortcutAll_eq_self rest fun o => (free o).2]
termination_by structural body => body

theorem shortcutFirst_eq_self : ∀ branches : List Branch,
    (∀ overrides, .extend detour true overrides ∉ branchParts branches) →
    shortcutFirst target detour branches = branches
  | [], _ => rfl
  | ⟨guard, body⟩ :: rest, free => by
    simp only [branchParts, List.mem_append, not_or] at free
    rw [shortcutFirst, shortcutAll_eq_self body fun o => (free o).1,
      shortcutFirst_eq_self rest fun o => (free o).2]
termination_by structural branches => branches

theorem shortcutOverrides_eq_self : ∀ overrides : List (String × List Statement),
    (∀ others, .extend detour true others ∉ overrideParts overrides) →
    shortcutOverrides target detour overrides = overrides
  | [], _ => rfl
  | (name, body) :: rest, free => by
    simp only [overrideParts, List.mem_append, not_or] at free
    rw [shortcutOverrides, shortcutAll_eq_self body fun o => (free o).1,
      shortcutOverrides_eq_self rest fun o => (free o).2]
termination_by structural overrides => overrides

end

theorem Registry.find?_shortcut (registry : Registry) (name : String) :
    Registry.find? (shortcutOverrides target detour registry) name =
      (registry.find? name).map (shortcutAll target detour) := by
  induction registry with
  | nil => rfl
  | cons entry rest ih =>
    obtain ⟨key, body⟩ := entry
    rw [shortcutOverrides, Registry.find?_cons, Registry.find?_cons, ih, Option.map_or]
    split <;> rfl

theorem Library.find?_shortcut (library : Library) (name : String) :
    (library.shortcut target detour).find? name =
      (library.find? name).map (·.shortcut target detour) :=
  library.find?_map (·.shortcut target detour) name

end Lookup

/-! ## Where a render stands on a detour -/

/-- The first body is the second with the detour taken out. -/
abbrev IsShortcut (target detour : String) (body body' : Body) : Prop :=
  body = shortcutAll target detour body'

/-- The second render stands where the first does, and may have come there by the detour. -/
structure Standing.Detours (target detour : String) (a b : Standing) : Prop where
  room : b.settings.maxDepth = a.settings.maxDepth + 1
  way : b.library.find? detour = some (.onTheWay target detour)
  others : ∀ name, name ≠ detour →
    a.library.find? name = (b.library.find? name).map (·.shortcut target detour)
  loadable : (a.library.find? target).isSome
  unnamed : ∀ name, name ≠ detour → ∀ template, b.library.find? name = some template →
    template.name ≠ detour
  dispatched : b.dispatch.isEmpty = a.dispatch.isEmpty
  overrides : ∀ name,
    List.Forall₂ (IsShortcut target detour) (a.overrides name) (b.overrides name)
  supers : List.Forall₂ (IsShortcut target detour) a.supers b.supers
  active : b.active.filter (· != detour) = a.active
  /-- Where the detour was taken, the template at the target was entered. -/
  passed : detour ∈ b.active → ∀ template, b.library.find? target = some template →
    template.name ∈ a.active
  once : b.active.length ≤ a.active.length + 1

namespace Standing.Detours

variable {target detour : String} {a b : Standing} (h : a.Detours target detour b)
include h

theorem mem_active {name : String} (other : name ≠ detour) : name ∈ b.active ↔ name ∈ a.active := by
  rw [← h.active, List.mem_filter]
  simp [other]

/-- Before the template at the target is entered there was no detour. -/
theorem active_eq {template : Template} (found : b.library.find? target = some template)
    (new : template.name ∉ a.active) : b.active = a.active := by
  rw [← h.active, eq_comm, List.filter_eq_self]
  intro name mem
  have other : name ≠ detour := by
    rintro rfl
    exact new (h.passed mem template found)
  simp [other]

theorem leaving {levels levels' : List Body}
    (same : List.Forall₂ (IsShortcut target detour) levels levels') :
    (a.leaving levels).Detours target detour (b.leaving levels') :=
  { h with supers := same }

theorem adding (registry : Registry) :
    (a.adding (shortcutOverrides target detour registry)).Detours target detour
      (b.adding registry) := by
  refine { h with dispatched := ?_, overrides := fun name => ?_ }
  · rw [Standing.isEmpty_adding, Standing.isEmpty_adding]
  · simp only [Standing.overrides, Standing.adding, List.filterMap_append]
    refine List.rel_append (h.overrides name) ?_
    simp only [List.filterMap_cons, List.filterMap_nil, Registry.find?_shortcut]
    cases registry.find? name with
    | none => exact .nil
    | some level => exact .cons rfl .nil

theorem entering {name : String} (other : name ≠ detour) :
    (a.entering name).Detours target detour (b.entering name) := by
  refine { h with active := ?_, passed := fun mem template found => ?_, once := ?_ }
  · simp [Standing.entering, List.filter_append, h.active, other]
  · rcases List.mem_append.1 mem with before | now
    · exact List.mem_append_left _ (h.passed before template found)
    · exact absurd (List.mem_singleton.1 now).symm other
  · simp only [Standing.entering, List.length_append, List.length_singleton]
    exact Nat.add_le_add_right h.once 1

/-- The template at the target is entered by both, and by the second one on the way. -/
theorem byTheWay {template : Template} (found : b.library.find? target = some template)
    (other : template.name ≠ detour) (extended : a.dispatch.isEmpty = false)
    (new : template.name ∉ a.active) :
    (a.entering template.name).Detours target detour
      (((b.entering detour).adding []).entering template.name) := by
  refine { h with
    dispatched := ?_, overrides := fun name => ?_, active := ?_, passed := fun _ => ?_, once := ?_ }
  · exact (Standing.isEmpty_adding (b.entering detour) []).trans extended.symm
  · have nothing : (b.adding []).overrides name = b.overrides name := by
      simp [Standing.overrides, Standing.adding, Registry.find?]
    exact nothing ▸ h.overrides name
  · simp [Standing.entering, Standing.adding, List.filter_append, h.active, other]
  · intro template' found'
    cases found.symm.trans found'
    exact List.mem_append_right _ (List.mem_singleton_self template.name)
  · simp [Standing.entering, Standing.adding, h.active_eq found new]

end Standing.Detours

/-! ## Renders on a detour -/

/-- The render stopped at an expression, and not because of the templates it was in. -/
def Stop.atExpression : Stop → Prop
  | .error (.evaluation _) => True
  | _ => False

theorem Context.not_atExpression {c : Context} {name : String} {e : RenderError}
    (he : c.enterTemplate name = .error e) : ¬(Stop.error e).atExpression := by
  rcases Context.enterTemplate_eq_error_iff.1 he with ⟨-, rfl⟩ | ⟨-, -, rfl⟩
  · exact not_false
  · exact not_false

/-- The second render is the one that takes the detour. -/
def onDetour (target detour : String) : Comparison where
  visible _ := True
  standing := Standing.Detours target detour
  log _ _ := True
  bodies := IsShortcut target detour
  excused stop := ¬stop.atExpression
  noticed _ _ _ := trivial
  dispatched h := h.dispatched
  leftover h := h.supers
  leaving h same := h.leaving same

/-- The session at the target, where the detour has led to it. -/
def Session.onTheWay (t : Session) (detour : String) (overrides : Registry) : Session :=
  let extended : Session := { t with context := t.context.addRegistry overrides }
  { extended.inside detour with context := (extended.inside detour).context.addRegistry [] }

section Rendering

variable {target detour : String}

/-- To extend the template on the way is to extend the target from within it. -/
theorem renderExtended_onTheWay {jump : Jump}
    (unfolds : ∀ body, renderAllWith jump body = jump body) {t : Session} {template : Template}
    (overrides : Registry) (found : t.context.library.find? target = some template)
    (new : detour ∉ t.context.active)
    (room : t.context.active.length < t.context.settings.maxDepth) :
    ∃ leave : Context → Context,
      renderExtended jump (.onTheWay target detour) overrides t =
        (renderTemplate jump template (t.onTheWay detour overrides)).mapSession
          fun u => { u with context := leave u.context } := by
  let extended : Session := { t with context := t.context.addRegistry overrides }
  let inside : Session := extended.inside detour
  have only : (jump [.extend target true []] >>= fun _ => pure () : Action Unit) inside =
      renderExtended jump template [] inside := by
    have inTemplate : inside.context.library.find? target = some template := found
    rw [← unfolds]
    simp only [renderAllWith, Statement.renderWith, if_true, bind_assoc]
    rw [context_bind, inTemplate]
    simp only [bind_assoc, pure_bind, bind_pure_unit]
  refine ⟨fun c => { { c with dispatch := inside.context.dispatch }.exitScope.exitTemplate with
    dispatch := t.context.dispatch }, ?_⟩
  have body : renderTemplate jump (.onTheWay target detour) extended = _ :=
    renderTemplate_of_room new room
  rw [renderExtended_eq, body, Template.onTheWay, only, renderExtended_eq,
    Outcome.mapSession_mapSession, Outcome.mapSession_mapSession]
  rfl

theorem onDetour_enters {c d : Context} {template : Template}
    (standing : c.standing.Detours target detour d.standing) (other : template.name ≠ detour) :
    (onDetour target detour).Enters c d (template.shortcut target detour) template := by
  refine ⟨rfl, fun e he => .inl (Context.not_atExpression he), fun new room => ⟨?_, ?_, ?_⟩⟩
  · intro mem
    exact new ((standing.mem_active other).1 mem)
  · have once : d.active.length ≤ c.active.length + 1 := standing.once
    have more : d.settings.maxDepth = c.settings.maxDepth + 1 := standing.room
    omega
  · exact standing.entering other

/-- Where the first render enters the template at the target, the second has taken no detour yet,
and so it enters that template on the way. -/
theorem onDetour_enters_onTheWay {s t : Session} {template : Template} (overrides : Registry)
    (standing : s.context.standing.Detours target detour t.context.standing)
    (found : t.context.library.find? target = some template) (other : template.name ≠ detour)
    (new : template.name ∉ s.context.active)
    (room : s.context.active.length < s.context.settings.maxDepth) :
    (onDetour target detour).Enters
      (s.context.addRegistry (shortcutOverrides target detour overrides))
      (t.onTheWay detour overrides).context (template.shortcut target detour) template := by
  have active : t.context.active = s.context.active := standing.active_eq found new
  have limit : t.context.settings.maxDepth = s.context.settings.maxDepth + 1 := standing.room
  refine ⟨rfl, fun e he => .inl (Context.not_atExpression he), fun _ _ => ⟨?_, ?_, ?_⟩⟩
  · show template.name ∉ t.context.active ++ [detour]
    rw [active]
    simp [new, other]
  · show (t.context.active ++ [detour]).length < t.context.settings.maxDepth
    rw [active, limit, List.length_append]
    exact Nat.succ_lt_succ room
  · have added := standing.adding overrides
    show (Standing.entering _ template.name).Detours target detour
      (Standing.entering _ template.name)
    exact added.byTheWay found other (Standing.isEmpty_adding _ _) new

open Comparison Parallel

section Extend

variable {jump jump' : Jump} (follows : (onDetour target detour).Follows jump jump')
include follows

/-- An `extend` that goes where it went before. -/
theorem extend_onDetour {name : String} (other : name ≠ detour) (overrides : Registry) :
    (onDetour target detour).Parallel Flow
      ((Statement.extend name true (shortcutOverrides target detour overrides)).renderWith jump)
      ((Statement.extend name true overrides).renderWith jump') := by
  have lookup {s t : Session} (h : (onDetour target detour).Abreast s t) :
      s.context.library.find? name =
        (t.context.library.find? name).map (·.shortcut target detour) :=
    h.standing.others name other
  apply extend follows
  · intro s t h missing
    rw [lookup h, Option.map_eq_none_iff] at missing
    exact ⟨missing, rfl⟩
  · intro s t h template found
    rw [lookup h] at found
    obtain ⟨template', found', rfl⟩ := Option.map_eq_some_iff.1 found
    refine ⟨template', found', renderExtended_written follows h ?_⟩
    exact onDetour_enters (h.standing.adding overrides)
      (h.standing.unnamed name other template' found')

/-- An `extend` that goes to the target, and in the second render takes the detour. Where the first
enters the target it has not been there, so the detour has not been taken, and there is room for
both. -/
theorem reroute_onDetour (distinct : target ≠ detour)
    (unfolds : ∀ body, renderAllWith jump' body = jump' body) (overrides : Registry) :
    (onDetour target detour).Parallel Flow
      ((Statement.extend target true (shortcutOverrides target detour overrides)).renderWith jump)
      ((Statement.extend detour true overrides).renderWith jump') := by
  apply extend follows
  · intro s t h missing
    have loadable : (s.context.library.find? target).isSome := h.standing.loadable
    rw [missing] at loadable
    cases loadable
  · intro s t h template found
    refine ⟨.onTheWay target detour, h.standing.way, ?_⟩
    have lookup := h.standing.others target distinct
    obtain ⟨template', found', rfl⟩ := Option.map_eq_some_iff.1 (lookup.symm.trans found)
    have other : template'.name ≠ detour := h.standing.unnamed target distinct template' found'
    let c : Context := s.context.addRegistry (shortcutOverrides target detour overrides)
    rw [renderExtended_eq]
    cases he : c.enterTemplate template'.name with
    | error e =>
      have refused : renderTemplate jump (template'.shortcut target detour)
          { s with context := c } = .failed e { s with context := c } := renderTemplate_of_error he
      rw [refused]
      exact .inl ⟨.error e, rfl, Context.not_atExpression he⟩
    | ok entered =>
      obtain ⟨new, room, -⟩ := Context.enterTemplate_eq_ok_iff.1 he
      have unpassed : detour ∉ t.context.active :=
        fun mem => new (h.standing.passed mem template' found')
      have fits : t.context.active.length < t.context.settings.maxDepth := by
        have active : t.context.active = s.context.active := h.standing.active_eq found' new
        have limit : t.context.settings.maxDepth = s.context.settings.maxDepth + 1 :=
          h.standing.room
        rw [active, limit]
        exact Nat.lt_succ_of_lt room
      obtain ⟨leave, way⟩ := renderExtended_onTheWay unfolds overrides found' unpassed fits
      rw [way]
      have inside := renderTemplate_written follows (s := { s with context := c })
        (t := t.onTheWay detour overrides) ⟨h.output, h.log⟩
        ⟨h.bindings.found, h.bindings.global⟩
        (onDetour_enters_onTheWay overrides h.standing found' other new room)
      exact inside.mapSession fun u v huv => huv.elsewhere _ _

end Extend

mutual

theorem renderWith_onDetour {jump jump' : Jump}
    (follows : (onDetour target detour).Follows jump jump') (distinct : target ≠ detour)
    (unfolds : ∀ body, renderAllWith jump' body = jump' body) :
    ∀ statement : Statement, (onDetour target detour).Parallel Flow
      ((statement.shortcut target detour).renderWith jump) (statement.renderWith jump')
  | .text s => ordinary.text s
  | .output _ => ordinary.output fun _ _ => trivial
  | .loop vars _ _ body otherwise =>
    ordinary.loop vars (fun _ _ => trivial) (fun _ _ _ _ => trivial)
      (renderAllWith_onDetour follows distinct unfolds body)
      (renderAllWith_onDetour follows distinct unfolds otherwise)
  | .cond _ body branches =>
    ordinary.cond (fun _ _ => trivial) (renderAllWith_onDetour follows distinct unfolds body)
      (renderFirstWith_onDetour follows distinct unfolds branches)
  | .assign targets _ => ordinary.assignment targets fun _ _ _ _ => trivial
  | .block name body =>
    ordinary.block name (renderAllWith_onDetour follows distinct unfolds body)
  | .slot name inherits default => slot follows rfl fun _ _ standing => standing.overrides name
  | .extend name isPath overrides => by
    cases isPath with
    | false => exact computed name _ overrides
    | true =>
      by_cases same : name = detour
      · subst same
        simp only [Statement.shortcut, Bool.true_and, decide_true, if_true]
        exact reroute_onDetour follows distinct unfolds overrides
      · simp only [Statement.shortcut, Bool.true_and, same, decide_false, Bool.false_eq_true,
          if_false]
        exact extend_onDetour follows same overrides
  | .super => super follows
termination_by structural statement => statement

theorem renderAllWith_onDetour {jump jump' : Jump}
    (follows : (onDetour target detour).Follows jump jump') (distinct : target ≠ detour)
    (unfolds : ∀ body, renderAllWith jump' body = jump' body) :
    ∀ body : List Statement, (onDetour target detour).Parallel Flow
      (renderAllWith jump (shortcutAll target detour body)) (renderAllWith jump' body)
  | [] => .pure Flow.proceed
  | statement :: rest =>
    ordinary.cons (renderWith_onDetour follows distinct unfolds statement)
      (renderAllWith_onDetour follows distinct unfolds rest)
termination_by structural body => body

theorem renderFirstWith_onDetour {jump jump' : Jump}
    (follows : (onDetour target detour).Follows jump jump') (distinct : target ≠ detour)
    (unfolds : ∀ body, renderAllWith jump' body = jump' body) :
    ∀ branches : List Branch, (onDetour target detour).Parallel Flow
      (renderFirstWith jump (shortcutFirst target detour branches)) (renderFirstWith jump' branches)
  | [] => .pure Flow.proceed
  | ⟨none, body⟩ :: _ => renderAllWith_onDetour follows distinct unfolds body
  | ⟨some _, body⟩ :: rest =>
    ordinary.branch (fun _ _ => trivial) (renderAllWith_onDetour follows distinct unfolds body)
      (renderFirstWith_onDetour follows distinct unfolds rest)
termination_by structural branches => branches

end

/-- Within any bound, the render without the detour is followed by the one with it. -/
theorem jumpWithin_onDetour (distinct : target ≠ detour) (bound : Nat) :
    (onDetour target detour).Follows (jumpWithin bound) jumpUnbounded := by
  refine ⟨jumpWithin_keeps bound, jumpUnbounded_keeps, ?_⟩
  induction bound with
  | zero =>
    intro body body' _
    exact ⟨jumpWithin_keeps 0 body, jumpUnbounded_keeps body',
      fun _ _ _ => .inl ⟨.gaveUp, rfl, not_false⟩⟩
  | succ bound ih =>
    rintro body body' rfl
    rw [← renderAllWith_jumpUnbounded body']
    exact renderAllWith_onDetour ⟨jumpWithin_keeps bound, jumpUnbounded_keeps, ih⟩ distinct
      renderAllWith_jumpUnbounded body'

/-- Where a run starts, no detour has been taken. -/
theorem start_onDetour (library : Library) (globals : Scope) (limit : Nat)
    (loadable : (library.find? target).isSome)
    (unnamed : ∀ name, name ≠ detour → ∀ template, library.find? name = some template →
      template.name ≠ detour) :
    (Context.start (library.shortcut target detour) globals ⟨limit⟩).standing.Detours target detour
      (Context.start (library.insert (.onTheWay target detour)) globals ⟨limit + 1⟩).standing where
  room := rfl
  way := by
    show (library.insert _).find? detour = _
    rw [Library.find?_insert, Template.onTheWay, if_pos rfl]
  others name other := by
    show (library.shortcut target detour).find? name = ((library.insert _).find? name).map _
    rw [Library.find?_insert, Template.onTheWay, if_neg (Ne.symm other), Library.find?_shortcut]
  loadable := by
    show ((library.shortcut target detour).find? target).isSome
    rw [Library.find?_shortcut, Option.isSome_map]
    exact loadable
  unnamed name other template found := by
    change (library.insert _).find? name = some template at found
    rw [Library.find?_insert, Template.onTheWay, if_neg (Ne.symm other)] at found
    exact unnamed name other template found
  dispatched := rfl
  overrides _ := .nil
  supers := .nil
  active := rfl
  passed mem := absurd mem List.not_mem_nil
  once := Nat.zero_le _

end Rendering

/-- **A template that only extends another is not noticed.** Here `main'` and `library'` are `main`
and `library` with one or more of the `extend`s to the target sent to the detour, where none of them
went before and which is the name of no template. With the template on the way in the library, and
room for one more template, a run that was done is done and one that stopped at an expression stops
at it, with the same text written. -/
theorem run_takes_detour {target detour : String} {main main' : Template}
    {library library' : Library} (reroutedMain : main'.shortcut target detour = main)
    (reroutedLibrary : library'.shortcut target detour = library)
    (loadable : (library.find? target).isSome) (distinct : target ≠ detour)
    (other : main.name ≠ detour)
    (unnamed : ∀ name, name ≠ detour → ∀ template, library.find? name = some template →
      template.name ≠ detour) (globals : Scope) (limit bound : Nat) :
    let run := main.run bound library globals ⟨limit⟩
    let run' (bound : Nat) :=
      main'.run bound (library'.insert (.onTheWay target detour)) globals ⟨limit + 1⟩
    (∀ s, run = .done () s → ∃ bound' t, run' bound' = .done () t ∧ t.output = s.output) ∧
    (∀ e s, run = .failed (.evaluation e) s →
      ∃ bound' t, run' bound' = .failed (.evaluation e) t ∧ t.output = s.output) := by
  intro run run'
  subst reroutedMain reroutedLibrary
  rw [Library.find?_shortcut, Option.isSome_map] at loadable
  have unnamed' : ∀ name, name ≠ detour → ∀ template, library'.find? name = some template →
      template.name ≠ detour := by
    intro name elsewhere template found
    refine unnamed name elsewhere (template.shortcut target detour) ?_
    rw [Library.find?_shortcut, found, Option.map_some]
  let start' : Session :=
    .start (.start (library'.insert (.onTheWay target detour)) globals ⟨limit + 1⟩)
  have compared : run.RelatedUnless _ _ (renderTemplate jumpUnbounded main' start') :=
    Comparison.renderTemplate_written (jumpWithin_onDetour distinct bound) ⟨rfl, trivial⟩
      ⟨fun _ _ => rfl, fun _ _ => rfl⟩
      (onDetour_enters (start_onDetour library' globals limit loadable unnamed') other)
  have reached {o : Outcome Unit} (ends : o ≠ .exhausted)
      (eq : renderTemplate jumpUnbounded main' start' = o) : ∃ bound', run' bound' = o :=
    (main'.render_hasLimit.eq_iff ends).1 eq
  constructor
  · intro s done
    rw [done] at compared
    obtain ⟨t, eq, written⟩ := (compared.related fun _ stopped => by cases stopped).of_done
    obtain ⟨bound', eq'⟩ := reached Outcome.done_ne_exhausted eq
    exact ⟨bound', t, eq', written.output⟩
  · intro e s failed
    rw [failed] at compared
    have unexcused (stop : Stop)
        (stopped : (Outcome.failed (.evaluation e) s : Outcome Unit).stop? = some stop) :
        ¬(onDetour target detour).excused stop := by
      cases stopped
      exact not_not_intro trivial
    obtain ⟨t, eq, written⟩ := (compared.related unexcused).of_failed
    obtain ⟨bound', eq'⟩ := reached Outcome.failed_ne_exhausted eq
    exact ⟨bound', t, eq', written.output⟩

/-- The detour is taken from an `extend` in a loop, with an override that calls `super` and then
writes or fails, where there was room for just the two templates. -/
theorem run_takes_detour_in_loop :
    let base : Template := ⟨"base", [.slot "main" true [.output (.var "x")], .text "."]⟩
    let page (last : Statement) (target : String) : Template :=
      ⟨"page", [.loop ["x"] (.const (.string "ab")) none
        [.extend target true [("main", [.text "<", .super, last])]] []]⟩
    let library : Library := .ofList [base]
    let library' := library.insert (.onTheWay "base" "way")
    let failing : Statement := .output (.negate (.const .empty))
    (∀ last ∈ [.text ">", failing], (page last "way").shortcut "base" "way" = page last "base") ∧
      library.shortcut "base" "way" = library ∧ (library.find? "base").isSome ∧ "base" ≠ "way" ∧
      (∀ last, (page last "base").name ≠ "way") ∧
      (∀ name, name ≠ "way" → ∀ template, library.find? name = some template →
        template.name ≠ "way") ∧
      (∃ bound t, (page (.text ">") "way").run bound library' .empty ⟨3⟩ = .done () t ∧
        t.output = "<a>.") ∧
      ∃ bound e t, (page failing "way").run bound library' .empty ⟨3⟩ =
        .failed (.evaluation e) t ∧ t.output = "<a" := by
  intro base page library library' failing
  have rerouted : ∀ last ∈ [.text ">", failing],
      (page last "way").shortcut "base" "way" = page last "base" := by
    intro last mem
    simp only [List.mem_cons, List.not_mem_nil, or_false] at mem
    rcases mem with rfl | rfl
    · rfl
    · rfl
  have unchanged : library.shortcut "base" "way" = library := by
    have same : base.shortcut "base" "way" = base := by
      unfold Template.shortcut
      rw [shortcutAll_eq_self base.body]
      simp [base, bodyParts, Statement.parts]
    refine (Library.map_ofList (f := (·.shortcut "base" "way")) (fun _ => rfl) [base]).trans ?_
    rw [List.map_singleton, same]
  have loadable : (library.find? "base").isSome := rfl
  have other (last : Statement) : (page last "base").name ≠ "way" := by
    show "page" ≠ "way"
    decide
  have unnamed : ∀ name, name ≠ "way" → ∀ template, library.find? name = some template →
      template.name ≠ "way" := by
    intro name elsewhere template found
    rw [(Library.mem_of_find?_ofList found).2]
    exact elsewhere
  have runs (last : Statement) (mem : last ∈ [.text ">", failing]) :=
    run_takes_detour (rerouted last mem) unchanged loadable (by decide) (other last) unnamed
      .empty 2 4
  refine ⟨rerouted, unchanged, loadable, by decide, other, unnamed, ?_, ?_⟩
  · have onward := (runs (.text ">") List.mem_cons_self).1
    have finished : ((page (.text ">") "base").run 4 library .empty ⟨2⟩).stop?.isNone := by
      decide +kernel
    have text : ((page (.text ">") "base").run 4 library .empty ⟨2⟩).session?.map (·.output) =
        some "<a>." := by
      decide +kernel
    generalize (page (.text ">") "base").run 4 library .empty ⟨2⟩ = o at onward finished text
    cases o with
    | done _ s =>
      obtain ⟨bound, t, done, same⟩ := onward s rfl
      exact ⟨bound, t, done, same.trans (Option.some.inj text)⟩
    | failed e s => cases finished
    | exhausted => cases finished
  · have onward := (runs failing (List.mem_cons_of_mem _ List.mem_cons_self)).2
    have text : ((page failing "base").run 4 library .empty ⟨2⟩).session?.map (·.output) =
        some "<a" := by
      decide +kernel
    have code : ((page failing "base").run 4 library .empty ⟨2⟩).error?.map (·.code) =
        some "EV001" := by
      decide +kernel
    generalize (page failing "base").run 4 library .empty ⟨2⟩ = o at onward text code
    cases o with
    | done _ s => cases code
    | failed e s =>
      cases e with
      | evaluation e =>
        obtain ⟨bound, t, failed, same⟩ := onward e s rfl
        exact ⟨bound, e, t, failed, same.trans (Option.some.inj text)⟩
      | cycle chain => simp [Outcome.error?, RenderError.code] at code
      | tooDeep depth limit => simp [Outcome.error?, RenderError.code] at code
    | exhausted => cases code

end Stencil
