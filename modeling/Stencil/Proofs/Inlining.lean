import Stencil.Proofs.Nesting
import Stencil.Proofs.Parts
import Stencil.Proofs.Simulation

/-!
# `Stencil/Proofs/Inlining.lean` — a slot is its levels, written into one another

What a slot renders is found while it is rendered: the overrides are looked up in the registries of
the `extend`s that the render is inside of (`Stencil/Proofs/Nesting.lean`), and at each `super` the
next level is taken from the context, where every level below it has left off. The same text comes
of a body that can be written down beforehand:

> take the most derived override, and put **a plain block with the next level** in the place of
> every `super` that belongs to it, and so on down to the default content.

The two differ in what they remark on, since one of them dispatches and the other renders plain
blocks, and in nothing else (`slot_inlines`).

A body with an `extend` of its own is left out, because the template it goes to may call `super` and
would still find the levels in the context.
-/

set_option autoImplicit false

namespace Stencil

open Stencil.Action

/-! ## Inlining -/

mutual

/-- The statement with a plain block of the content in the place of each `super` that belongs to the
same block. -/
def Statement.inlineSuper (label : String) (content : Body) : Statement → Statement
  | .text s => .text s
  | .output value => .output value
  | .loop vars source filter body otherwise =>
    .loop vars source filter (inlineSupers label content body)
      (inlineSupers label content otherwise)
  | .cond guard body branches =>
    .cond guard (inlineSupers label content body) (inlineSupersFirst label content branches)
  | .assign targets value => .assign targets value
  | .block name body => .block name (inlineSupers label content body)
  | .slot name inherits body => .slot name inherits body
  | .extend target isPath overrides => .extend target isPath overrides
  | .super => .block label content
termination_by structural statement => statement

def inlineSupers (label : String) (content : Body) : List Statement → List Statement
  | [] => []
  | statement :: rest => statement.inlineSuper label content :: inlineSupers label content rest
termination_by structural body => body

def inlineSupersFirst (label : String) (content : Body) : List Branch → List Branch
  | [] => []
  | ⟨guard, body⟩ :: rest =>
    ⟨guard, inlineSupers label content body⟩ :: inlineSupersFirst label content rest
termination_by structural branches => branches

end

/-- The levels of a block in one body. -/
def inlineLevels (label : String) : List Body → Body
  | [] => []
  | level :: below => inlineSupers label (inlineLevels label below) level

/-- No `extend` belongs to the block whose content this is. -/
def ExtendFree (body : Body) : Prop :=
  ∀ target isPath overrides, Statement.extend target isPath overrides ∉ bodyOwnParts body

/-- Runs an action in a new scope, on top of the current ones or of the globals alone. -/
def inCopy {α : Type} (inherits : Bool) (x : Action α) : Action α :=
  if inherits then inScope x else isolated (inScope x)

/-! ## Sessions that differ in remarks -/

/-- The remarks that come of where a level is taken from. -/
def Notice.isAboutLevels : Notice → Bool
  | .plainBlock _ | .dispatching _ _ | .strandedSuper => true
  | _ => false

/-- The remarks of a session on other things. -/
def Session.remarks (s : Session) : List Event := s.log.toList.filter (!·.notice.isAboutLevels)

theorem Session.remarks_noticing (s : Session) (notice : Notice) :
    (s.noticing notice).remarks =
      s.remarks ++ if notice.isAboutLevels then [] else [⟨notice, s.context.active⟩] := by
  unfold remarks noticing
  cases h : notice.isAboutLevels <;> simp [h]

/-- The same context and the same text, and the same remarks but for those about levels. -/
structure Alike (s t : Session) : Prop where
  context : t.context = s.context
  output : t.output = s.output
  remarks : t.remarks = s.remarks

/-- As alike as a session with these levels left for `super` is to one with any others. -/
structure Beside (levels : List Body) (s t : Session) : Prop where
  supers : s.context.supers = levels
  context : t.context = { s.context with supers := t.context.supers }
  output : t.output = s.output
  remarks : t.remarks = s.remarks

/-- An action that looks at its context only does the same in sessions that are alike. -/
theorem AppendOnly.alike {α : Type} {x : Action α} (h : AppendOnly x) : Related Alike x x := by
  intro s t hst
  rw [h.eq_continuing s, h.eq_continuing t, hst.context]
  have added : ∀ u : Session, Alike (u.preceded s.output s.log) (u.preceded t.output t.log) := by
    intro u
    refine ⟨rfl, ?_, ?_⟩
    · simp only [Session.preceded, hst.output]
    · have same := hst.remarks
      unfold Session.remarks at same ⊢
      simp only [Session.preceded, Array.toList_append, List.filter_append, same]
  unfold Outcome.continuing
  cases x (.start s.context) with
  | done a u => exact .done a (added u)
  | failed e u => exact .failed e (added u)
  | exhausted => exact .exhausted

namespace Beside

variable {levels : List Body} {s t : Session}

theorem active (h : Beside levels s t) : t.context.active = s.context.active := by
  rw [h.context]

theorem dispatch (h : Beside levels s t) : t.context.dispatch = s.context.dispatch := by
  rw [h.context]

theorem find? (h : Beside levels s t) (name : String) :
    t.context.find? name = s.context.find? name := by
  rw [h.context]
  rfl

theorem noticing (h : Beside levels s t) (notice : Notice) :
    Beside levels (s.noticing notice) (t.noticing notice) :=
  ⟨h.supers, h.context, h.output, by
    rw [Session.remarks_noticing, Session.remarks_noticing, h.remarks, h.active]⟩

theorem noticing_left (h : Beside levels s t) (notice : Notice)
    (hn : notice.isAboutLevels = true) : Beside levels (s.noticing notice) t :=
  ⟨h.supers, h.context, h.output, by
    rw [Session.remarks_noticing, if_pos hn, List.append_nil, h.remarks]⟩

theorem noticing_right (h : Beside levels s t) (notice : Notice)
    (hn : notice.isAboutLevels = true) : Beside levels s (t.noticing notice) :=
  ⟨h.supers, h.context, h.output, by
    rw [Session.remarks_noticing, if_pos hn, List.append_nil, h.remarks]⟩

/-- A change of the context that has nothing to do with the levels. -/
theorem changing (f : Context → Context) (h : Beside levels s t)
    (commutes : ∀ c levels, f { c with supers := levels } = { f c with supers := levels })
    (keeps : ∀ c, (f c).supers = c.supers) :
    Beside levels { s with context := f s.context } { t with context := f t.context } := by
  refine ⟨(keeps _).trans h.supers, ?_, h.output, h.remarks⟩
  have same : f t.context = { f s.context with supers := t.context.supers } := by
    rw [h.context, commutes]
  simp only [same]

end Beside

theorem Beside.ordinary (levels : List Body) : KeptByOrdinary (Beside levels) where
  pure a := .pure a
  bind := Related.bind
  write text := fun s t h =>
    .done () ⟨h.supers, h.context, by simp only [h.output], h.remarks⟩
  notify notice := fun s t h => .done () (h.noticing notice)
  evaluate e := fun s t h => by
    have same : t.context.find? = s.context.find? := funext h.find?
    show (evaluate e s).Related (Beside levels) (evaluate e t)
    unfold evaluate
    rw [same]
    cases e.eval s.context.find? with
    | ok value => exact .done value h
    | error error => exact .failed _ h
  assign names value := fun s t h =>
    .done () (h.changing (·.assign names value) (fun _ _ => rfl) fun _ => rfl)
  inScope := Related.bracket
    (fun _ _ h => h.changing Context.enterScope (fun _ _ => rfl) fun _ => rfl)
    fun _ _ _ _ _ h => h.changing Context.exitScope (fun _ _ => rfl) fun _ => rfl

/-! ## What a slot renders -/

section Jumps

variable {jump : Jump} (same : ∀ body, AppendOnly (jump body))
include same

/-- Whatever levels are left for `super` outside of a slot, it renders its own. -/
theorem renderLevels_beside (k levels : List Body) :
    Related (Beside k) (renderLevels jump levels) (renderLevels jump levels) := by
  cases levels with
  | nil => exact .pure _
  | cons level below =>
    show Related (Beside k) (withSupers below (jump level)) (withSupers below (jump level))
    unfold withSupers
    refine Related.bracket (Q := Alike) ?_ ?_ (same level).alike
    · intro s t h
      have context : { t.context with supers := below } = { s.context with supers := below } := by
        rw [h.context]
      exact ⟨context, h.output, h.remarks⟩
    · intro s t u v h inner
      refine ⟨h.supers, ?_, inner.output, inner.remarks⟩
      simp only [inner.context]

theorem renderSlot_beside (k : List Body) (name : String) (default : Body) :
    Related (Beside k) (renderSlot jump name default) (renderSlot jump name default) := by
  rw [renderSlot_eq_renderLevels]
  refine (Beside.ordinary k).inScope (x := fun _ => _) ?_
  intro s t h
  have overrides : t.context.overrides name = s.context.overrides name := by
    unfold Context.overrides
    rw [h.dispatch]
  show (renderLevels jump (s.context.overrides name ++ [default])
      (s.noticing (.dispatching name (s.context.overrides name).length))).Related (Beside k)
    (renderLevels jump (t.context.overrides name ++ [default])
      (t.noticing (.dispatching name (t.context.overrides name).length)))
  rw [overrides]
  exact renderLevels_beside same k _ _ _ (h.noticing _)

theorem slot_beside (k : List Body) (name : String) (inherits : Bool) (default : Body) :
    Related (Beside k) ((Statement.slot name inherits default).renderWith jump)
      ((Statement.slot name inherits default).renderWith jump) := by
  intro s t h
  have slot := renderSlot_beside same k name default
  simp only [Statement.renderWith]
  rw [context_bind, context_bind, h.dispatch]
  cases s.context.dispatch.isEmpty with
  | true => exact .done _ (h.noticing _)
  | false =>
    cases inherits with
    | true => exact slot s t h
    | false =>
      have apart : Related (Beside k) (isolated (renderSlot jump name default))
          (isolated (renderSlot jump name default)) := by
        unfold isolated
        refine Related.bracket (Q := Beside k) ?_ ?_ slot
        · exact fun s t h => h.changing Context.isolated (fun _ _ => rfl) fun _ => rfl
        · exact fun s t u v h inner => ⟨h.supers, h.context, inner.output, inner.remarks⟩
      exact apart s t h

end Jumps

/-! ## Inlining level by level -/

section Statements

variable {jump : Jump} {label : String} {content : Body} {levels : List Body}

/-- Where the next level is left for `super`, a plain block of that level does the same. -/
theorem super_beside
    (inlined : Related (Beside levels) (renderLevels jump levels) (renderAllWith jump content)) :
    Related (Beside levels) (Statement.super.renderWith jump)
      ((Statement.block label content).renderWith jump) := by
  intro s t h
  simp only [Statement.renderWith]
  rw [context_bind, h.supers]
  cases levels with
  | nil =>
    exact inlined _ _ ((h.noticing_left .strandedSuper rfl).noticing_right (.plainBlock label) rfl)
  | cons level below => exact inlined _ _ (h.noticing_right (.plainBlock label) rfl)

mutual

theorem inlineSuper_beside
    (same : ∀ body, AppendOnly (jump body))
    (inlined : Related (Beside levels) (renderLevels jump levels) (renderAllWith jump content)) :
    ∀ statement : Statement,
      (∀ target isPath overrides, .extend target isPath overrides ∉ statement.ownParts) →
      Related (Beside levels) (statement.renderWith jump)
        ((statement.inlineSuper label content).renderWith jump)
  | .text s, _ => (Beside.ordinary levels).pair.text s
  | .output value, _ => (Beside.ordinary levels).pair.output trivial
  | .loop vars source filter body otherwise, free => by
    simp only [Statement.ownParts, List.mem_cons, List.mem_append, not_or] at free
    exact (Beside.ordinary levels).pair.loop vars trivial (fun _ _ => trivial)
      (inlineSupers_beside same inlined body fun t p o => (free t p o).2.1)
      (inlineSupers_beside same inlined otherwise fun t p o => (free t p o).2.2)
  | .cond guard body branches, free => by
    simp only [Statement.ownParts, List.mem_cons, List.mem_append, not_or] at free
    exact (Beside.ordinary levels).pair.cond trivial
      (inlineSupers_beside same inlined body fun t p o => (free t p o).2.1)
      (inlineSupersFirst_beside same inlined branches fun t p o => (free t p o).2.2)
  | .assign targets value, _ => (Beside.ordinary levels).pair.assignment targets fun _ _ => trivial
  | .block name body, free => by
    simp only [Statement.ownParts, List.mem_cons, not_or] at free
    exact (Beside.ordinary levels).pair.block name
      (inlineSupers_beside same inlined body fun t p o => (free t p o).2)
  | .slot name inherits body, _ => slot_beside same levels name inherits body
  | .extend target isPath overrides, free =>
    absurd List.mem_cons_self (free target isPath overrides)
  | .super, _ => super_beside inlined
termination_by structural statement => statement

theorem inlineSupers_beside
    (same : ∀ body, AppendOnly (jump body))
    (inlined : Related (Beside levels) (renderLevels jump levels) (renderAllWith jump content)) :
    ∀ body : List Statement,
      (∀ target isPath overrides, .extend target isPath overrides ∉ bodyOwnParts body) →
      Related (Beside levels) (renderAllWith jump body)
        (renderAllWith jump (inlineSupers label content body))
  | [], _ => .pure _
  | statement :: rest, free => by
    simp only [bodyOwnParts, List.mem_append, not_or] at free
    exact (Beside.ordinary levels).pair.cons
      (inlineSuper_beside same inlined statement fun t p o => (free t p o).1)
      (inlineSupers_beside same inlined rest fun t p o => (free t p o).2)
termination_by structural body => body

theorem inlineSupersFirst_beside
    (same : ∀ body, AppendOnly (jump body))
    (inlined : Related (Beside levels) (renderLevels jump levels) (renderAllWith jump content)) :
    ∀ branches : List Branch,
      (∀ target isPath overrides, .extend target isPath overrides ∉ branchOwnParts branches) →
      Related (Beside levels) (renderFirstWith jump branches)
        (renderFirstWith jump (inlineSupersFirst label content branches))
  | [], _ => .pure _
  | ⟨none, body⟩ :: _, free => by
    simp only [branchOwnParts, List.mem_append, not_or] at free
    exact inlineSupers_beside same inlined body fun t p o => (free t p o).1
  | ⟨some guard, body⟩ :: rest, free => by
    simp only [branchOwnParts, List.mem_append, not_or] at free
    exact (Beside.ordinary levels).pair.branch trivial
      (inlineSupers_beside same inlined body fun t p o => (free t p o).1)
      (inlineSupersFirst_beside same inlined rest fun t p o => (free t p o).2)
termination_by structural branches => branches

end

end Statements

/-- The levels of a block, and their text written into one another. -/
theorem renderLevels_inlineLevels {jump : Jump} (same : ∀ body, AppendOnly (jump body))
    (unfolds : ∀ body, renderAllWith jump body = jump body) (label : String)
    (levels : List Body) (free : ∀ level ∈ levels, ExtendFree level) (k : List Body) :
    Related (Beside k) (renderLevels jump levels)
      (renderAllWith jump (inlineLevels label levels)) := by
  induction levels generalizing k with
  | nil => exact .pure _
  | cons level below ih =>
    have free' : ∀ level ∈ below, ExtendFree level := fun l hl => free l (List.mem_cons_of_mem _ hl)
    have inner : Related (Beside below) (renderAllWith jump level)
        (renderAllWith jump (inlineLevels label (level :: below))) :=
      inlineSupers_beside same (ih free' below) level (free level List.mem_cons_self)
    rw [unfolds level] at inner
    show Related (Beside k) (withSupers below (jump level)) _
    refine Related.bracket_left (Q := Beside below) ?_ ?_ inner
    · intro s t h
      refine ⟨rfl, ?_, h.output, h.remarks⟩
      rw [h.context]
    · intro s t u v h inner
      refine ⟨h.supers, ?_, inner.output, inner.remarks⟩
      rw [inner.context]

/-! ## Slots -/

theorem inCopy_hasLimit {α : Type} {x : Option Nat → Action α} (inherits : Bool)
    (h : HasLimit α x) : HasLimit α fun i => inCopy inherits (x i) := by
  cases inherits with
  | true => exact HasLimit.compositional.inScope h
  | false => exact HasLimit.compositional.isolated (HasLimit.compositional.inScope h)

theorem inCopy_restores {α : Type} {x : Action α} (inherits : Bool) (h : Keeps x) :
    Restores (inCopy inherits x) := by
  cases inherits with
  | true => exact h.inScope
  | false => exact .isolated _

theorem Beside.refl (s : Session) : Beside s.context.supers s s := ⟨rfl, rfl, rfl, rfl⟩

theorem renderSlot_inlineLevels {jump : Jump} (same : ∀ body, AppendOnly (jump body))
    (unfolds : ∀ body, renderAllWith jump body = jump body) (label name : String)
    (default : Body) (s : Session)
    (free : ∀ level ∈ s.context.overrides name ++ [default], ExtendFree level) :
    (renderSlot jump name default s).Related (Beside s.context.supers)
      (inScope (renderAllWith jump
        (inlineLevels label (s.context.overrides name ++ [default]))) s) := by
  have levels := renderLevels_inlineLevels same unfolds label _ free s.context.supers
  let inner : Session := { s with context := s.context.enterScope }
  -- The slot dispatches first, which the other one has no need to do.
  have inside := levels (inner.noticing (.dispatching name (s.context.overrides name).length)) inner
    ((Beside.refl inner).noticing_left _ rfl)
  unfold inScope
  rw [renderSlot_eq, bracket_eq]
  exact inside.mapSession fun u v h => h.changing Context.exitScope (fun _ _ => rfl) fun _ => rfl

/-- Without a bound, a slot and the text of its levels come to the same end. -/
theorem slot_alike (label name : String) (inherits : Bool) (default : Body) (s : Session)
    (extended : s.context.dispatch ≠ [])
    (free : ∀ level ∈ s.context.overrides name ++ [default], ExtendFree level) :
    ((Statement.slot name inherits default).renderWith jumpUnbounded s).Related Alike
      (inCopy inherits (renderAllWith jumpUnbounded
        (inlineLevels label (s.context.overrides name ++ [default]))) s) := by
  let content := inlineLevels label (s.context.overrides name ++ [default])
  have beside : ((Statement.slot name inherits default).renderWith jumpUnbounded s).Related
      (Beside s.context.supers) (inCopy inherits (renderAllWith jumpUnbounded content) s) := by
    simp only [Statement.renderWith]
    rw [context_bind]
    have dispatched : s.context.dispatch.isEmpty = false := by
      rw [← Bool.not_eq_true, List.isEmpty_iff]
      exact extended
    rw [dispatched]
    cases inherits with
    | true =>
      exact renderSlot_inlineLevels jumpUnbounded_appendOnly renderAllWith_jumpUnbounded label name
        default s free
    | false =>
      have apart := renderSlot_inlineLevels jumpUnbounded_appendOnly renderAllWith_jumpUnbounded
        label name default { s with context := s.context.isolated } free
      show (isolated (renderSlot jumpUnbounded name default) s).Related _
        (isolated (inScope (renderAllWith jumpUnbounded content)) s)
      unfold isolated
      rw [bracket_eq, bracket_eq]
      exact apart.mapSession fun u v h => ⟨rfl, rfl, h.output, h.remarks⟩
  -- Both put the context back, so it is not only beside the other one but the same.
  have left := slot_restores jumpUnbounded_keeps name inherits default s
  have right := inCopy_restores inherits (renderAllWith_keeps jumpUnbounded_keeps content) s
  exact beside.imp fun u v hu hv h => ⟨(right v hv).trans (left u hu).symm, h.output, h.remarks⟩

/-- **A slot renders its levels as if they were written into one another.** Inside any `extend`s,
each executed inside the one before it and the first of them where nothing was extended, it ends
where the text of its levels ends in a new scope. These are its overrides in the order of the
`extend`s, and its default content. It ends in the same way and with the same text and context, and
the remarks differ only in those about levels. -/
theorem slot_inlines (label name : String) (inherits : Bool) (default : Body)
    {start s : Session} {registries : List Registry} (unextended : start.context.dispatch = [])
    (inside : NestedExtends start registries s) (extended : registries ≠ [])
    (free : ∀ level ∈ registries.filterMap (·.find? name) ++ [default], ExtendFree level) :
    let content := inlineLevels label (registries.filterMap (·.find? name) ++ [default])
    (∀ o, Ends (fun bound => (Statement.slot name inherits default).render bound) s o →
      ∃ o', Ends (fun bound => inCopy inherits (renderAll bound content)) s o' ∧
        o.Related Alike o') ∧
    (∀ o', Ends (fun bound => inCopy inherits (renderAll bound content)) s o' →
      ∃ o, Ends (fun bound => (Statement.slot name inherits default).render bound) s o ∧
        o.Related Alike o') := by
  intro content
  have inForce : s.context.dispatch = registries := by
    rw [inside.dispatch_eq, unextended, List.nil_append]
  subst inForce
  have alike := slot_alike label name inherits default s extended free
  exact (Statement.slot name inherits default).render_hasLimit.ends_related
    (inCopy_hasLimit inherits (renderAll_hasLimit content)) alike

/-- A page that extends a template that extends another, and so on to the one with the slot. Of the
three registries the one in the middle has no override for it, and the other overrides have `super`
twice and in a loop. -/
theorem slot_inlines_three_levels :
    let first : Registry := [("main", [.text "1", .super, .super])]
    let second : Registry := [("aside", [.text "no"])]
    let third : Registry :=
      [("main", [.loop ["x"] (.const (.string "ab")) none [.super] [], .text "2"])]
    let default : Body := [.output (.var "x"), .slot "aside" true [.super]]
    let base : Template := ⟨"base", [.slot "main" true default]⟩
    let lower : Template := ⟨"lower", [.extend "base" true third]⟩
    let upper : Template := ⟨"upper", [.extend "lower" true second]⟩
    let page : Template := ⟨"page", [.text "0", .extend "upper" true first]⟩
    let registries := [first, second, third]
    let content := inlineLevels "super" (registries.filterMap (·.find? "main") ++ [default])
    let start := Session.start (.start (.ofList [base, lower, upper]) .empty {})
    ∃ s, NestedExtends start registries s ∧
      (∀ level ∈ registries.filterMap (·.find? "main") ++ [default], ExtendFree level) ∧
      (page.render 8 start).session?.map (·.output) = some "01anobno2anobno2" ∧
      ∃ o, Ends (fun bound => inCopy true (renderAll bound content)) s o ∧
        ∃ t, o.session? = some t ∧ t.output = "01anobno2anobno2" := by
  intro first second third default base lower upper page registries content start
  let before : Session := { start.inside "page" with output := "0" }
  let atUpper := before.following upper first
  let atLower := atUpper.following lower second
  let s := atLower.following base third
  have toUpper : (Statement.extend "upper" true first).JumpsTo before upper.body atUpper :=
    extend_jumpsTo_iff.2 ⟨upper, rfl, by decide, by decide, rfl, rfl⟩
  have toLower : (Statement.extend "lower" true second).JumpsTo atUpper lower.body atLower :=
    extend_jumpsTo_iff.2 ⟨lower, rfl, by decide, by decide, rfl, rfl⟩
  have toBase : (Statement.extend "base" true third).JumpsTo atLower base.body s :=
    extend_jumpsTo_iff.2 ⟨base, rfl, by decide, by decide, rfl, rfl⟩
  have inside : NestedExtends start registries s := by
    have atPage : NestedExtends start [] (start.inside "page") := .moved .here rfl
    have afterText : NestedExtends start [] before :=
      atPage.after (renderWith_keeps (jumpWithin_keeps 0) (.text "0")) rfl
    exact ((afterText.extend toUpper).extend toLower).extend toBase
  have extended : registries ≠ [] := List.cons_ne_nil _ _
  have free : ∀ level ∈ registries.filterMap (·.find? "main") ++ [default], ExtendFree level := by
    intro level mem
    have levels : registries.filterMap (·.find? "main") ++ [default] =
        [[.text "1", .super, .super],
          [.loop ["x"] (.const (.string "ab")) none [.super] [], .text "2"], default] := rfl
    rw [levels] at mem
    simp only [List.mem_cons, List.not_mem_nil, or_false] at mem
    intro target isPath overrides
    rcases mem with rfl | rfl | rfl <;> simp [default, bodyOwnParts, Statement.ownParts]
  let slot : Statement := .slot "main" true default
  have run : (page.render 8 start).session?.map (·.output) = some "01anobno2anobno2" := by
    decide +kernel
  have written : (slot.render 5 s).session?.map (·.output) = some "01anobno2anobno2" := by
    decide +kernel
  -- What matters of the outcome is what was written, and the rest of it is not to be computed.
  generalize outcome : slot.render 5 s = o at written
  obtain ⟨u, hu, text⟩ := Option.map_eq_some_iff.1 written
  have ends : Ends (fun bound => slot.render bound) s o := by
    refine ⟨?_, 5, outcome⟩
    rintro rfl
    cases hu
  obtain ⟨o', ends', related⟩ :=
    (slot_inlines "super" "main" true default rfl inside extended free).1 o ends
  obtain ⟨t, ht, alike⟩ := related.session? hu
  exact ⟨s, inside, free, run, o', ends', t, ht, alike.output.trans text⟩

end Stencil
