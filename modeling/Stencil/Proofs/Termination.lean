import Stencil.Proofs.Frame
import Stencil.Proofs.Parts

/-!
# `Stencil/Proofs/Termination.lean` — rendering ends when references between blocks do

Templates may extend one another in a circle, and an override may have a slot in it that leads back
to the override. The first is harmless, because only so many templates can be under way at once. The
second is not, and no limit of the renderer stops it. So rendering need not end, and it does if

> **the slots in the content of a block are of lower rank than the block**, for a rank of block
> names that cannot decrease forever.

The rank alone does not decrease at every jump. A template that is entered may refer to any
block, and `super` stays in its block. What decreases is a `Reserve` of three things, in this
order: the templates that can still be entered, the rank under which all slots must lie, and the
levels left for `super`. There is one kind of jump for each (`Reserve.Deeper`).
-/

set_option autoImplicit false

namespace Stencil

open Stencil.Action

/-! ## References between blocks -/

/-- A rank of block names that cannot decrease forever. -/
structure Ranking where
  Rank : Type
  less : Rank → Rank → Prop
  wellFounded : WellFounded less
  rank : String → Rank

namespace Ranking

variable (ranking : Ranking)

/-- The rank lies under the ceiling, if there is a ceiling. -/
def Under (a : ranking.Rank) : Option ranking.Rank → Prop
  | none => True
  | some ceiling => ranking.less a ceiling

/-- The slots among the statements are of a rank under the ceiling. -/
def SlotsUnder (ceiling : Option ranking.Rank) (statements : List Statement) : Prop :=
  ∀ name inherits default, .slot name inherits default ∈ statements →
    ranking.Under (ranking.rank name) ceiling

/-- Whatever the statements give to a block as content, by registering it or as its default, has
only slots of lower rank than the block. -/
structure Ranked (statements : List Statement) : Prop where
  overrides : ∀ target isPath (overrides : Registry) name level,
    .extend target isPath overrides ∈ statements → overrides.find? name = some level →
      ranking.SlotsUnder (some (ranking.rank name)) (bodyOwnParts level)
  defaults : ∀ name inherits default, .slot name inherits default ∈ statements →
    ranking.SlotsUnder (some (ranking.rank name)) (bodyOwnParts default)

/-- What these parts belong to may be rendered under the ceiling. -/
structure Confined (ceiling : Option ranking.Rank) (parts ownParts : List Statement) : Prop where
  ranked : ranking.Ranked parts
  slots : ranking.SlotsUnder ceiling ownParts

abbrev ConfinedBody (ceiling : Option ranking.Rank) (body : Body) : Prop :=
  ranking.Confined ceiling (bodyParts body) (bodyOwnParts body)

variable {ranking}

theorem Confined.mono {ceiling : Option ranking.Rank} {parts parts' own own' : List Statement}
    (h : ranking.Confined ceiling parts own) (hp : parts' ⊆ parts) (ho : own' ⊆ own) :
    ranking.Confined ceiling parts' own' where
  ranked :=
    ⟨fun target isPath overrides name level mem =>
      h.ranked.overrides target isPath overrides name level (hp mem),
    fun name inherits default mem => h.ranked.defaults name inherits default (hp mem)⟩
  slots name inherits default mem := h.slots name inherits default (ho mem)

section Parts

variable {ceiling : Option ranking.Rank} {p q o r : List Statement}

theorem Confined.left (h : ranking.Confined ceiling (p ++ q) (o ++ r)) :
    ranking.Confined ceiling p o :=
  h.mono (List.subset_append_left _ _) (List.subset_append_left _ _)

theorem Confined.right (h : ranking.Confined ceiling (p ++ q) (o ++ r)) :
    ranking.Confined ceiling q r :=
  h.mono (List.subset_append_right _ _) (List.subset_append_right _ _)

theorem Confined.tail {statement statement' : Statement}
    (h : ranking.Confined ceiling (statement :: p) (statement' :: o)) :
    ranking.Confined ceiling p o :=
  h.mono (List.subset_cons_self _ _) (List.subset_cons_self _ _)

end Parts

/-- There is no ceiling over the body of a template. -/
theorem Ranked.confined {body : Body} (h : ranking.Ranked (bodyParts body)) :
    ranking.ConfinedBody none body := ⟨h, fun _ _ _ _ => trivial⟩

end Ranking

/-! ## What is left to a render -/

/-- How much further a render can still go in. -/
structure Reserve (ranking : Ranking) where
  /-- The number of templates that can still be entered. -/
  templates : Nat
  /-- The rank under which all slots must lie; none where a template has just been entered. -/
  ceiling : Option ranking.Rank
  /-- The number of levels left for `super`. -/
  levels : Nat

namespace Reserve

variable {ranking : Ranking}

/-- The reserve after a jump, and the one before it. -/
inductive Deeper : Reserve ranking → Reserve ranking → Prop
  | extend {m n : Nat} {below ceiling : Option ranking.Rank} {k l : Nat} (fewer : m < n) :
    Deeper ⟨m, below, k⟩ ⟨n, ceiling, l⟩
  | slot {n : Nat} {a : ranking.Rank} {ceiling : Option ranking.Rank} {k l : Nat}
    (under : ranking.Under a ceiling) : Deeper ⟨n, some a, k⟩ ⟨n, ceiling, l⟩
  | super {n : Nat} {ceiling : Option ranking.Rank} {l : Nat} :
    Deeper ⟨n, ceiling, l⟩ ⟨n, ceiling, l + 1⟩

/-- One ceiling is lower than another, or the other is none. -/
def Lower (ceiling ceiling' : Option ranking.Rank) : Prop :=
  ∃ a, ceiling = some a ∧ ranking.Under a ceiling'

theorem Lower.wellFounded : WellFounded (@Lower ranking) := by
  -- All ceilings from the second one on are ranks.
  have ranks (a : ranking.Rank) : Acc Lower (some a) := by
    induction a using ranking.wellFounded.induction with
    | h a ih =>
      constructor
      intro lower h
      obtain ⟨b, rfl, under⟩ := h
      exact ih b under
  constructor
  intro ceiling
  constructor
  intro lower h
  obtain ⟨a, rfl, -⟩ := h
  exact ranks a

/-- The three in one, templates before the ceiling and the ceiling before levels. -/
def triple (r : Reserve ranking) : Nat × Option ranking.Rank × Nat :=
  (r.templates, r.ceiling, r.levels)

theorem Deeper.lex {r r' : Reserve ranking} (h : r.Deeper r') :
    Prod.Lex Nat.lt (Prod.Lex Lower Nat.lt) r.triple r'.triple := by
  cases h with
  | extend fewer => exact .left _ _ fewer
  | slot under => exact .right _ (.left _ _ ⟨_, rfl, under⟩)
  | super => exact .right _ (.right _ (Nat.lt_succ_self _))

/-- So no render goes in forever. -/
theorem Deeper.wellFounded : WellFounded (@Deeper ranking) :=
  Subrelation.wf Deeper.lex
    (InvImage.wf triple (Prod.lex Nat.lt_wfRel (Prod.lex ⟨_, Lower.wellFounded⟩ Nat.lt_wfRel)).wf)

end Reserve

/-- A context with this much left, in which all bodies that can be jumped to are ranked. -/
structure Within {ranking : Ranking} (reserve : Reserve ranking) (c : Context) : Prop where
  templates : c.settings.maxDepth - c.active.length = reserve.templates
  levels : c.supers.length = reserve.levels
  loadable : ∀ target template, c.library.find? target = some template →
    ranking.Ranked (bodyParts template.body)
  registered : ∀ registry ∈ c.dispatch, ∀ name level, registry.find? name = some level →
    ranking.ConfinedBody (some (ranking.rank name)) level
  leftover : ∀ level ∈ c.supers, ranking.ConfinedBody reserve.ceiling level

namespace Within

variable {ranking : Ranking} {reserve : Reserve ranking} {c c' : Context}

theorem framed (h : Within reserve c) (frame : Framed c c') : Within reserve c' where
  templates := by rw [frame.settings, frame.active]; exact h.templates
  levels := by rw [frame.supers]; exact h.levels
  loadable := by rw [frame.library]; exact h.loadable
  registered := by rw [frame.dispatch]; exact h.registered
  leftover := by rw [frame.supers]; exact h.leftover

theorem withScopes (h : Within reserve c) (scopes : Scopes) :
    Within reserve { c with scopes := scopes } :=
  ⟨h.templates, h.levels, h.loadable, h.registered, h.leftover⟩

theorem withSupers (h : Within reserve c) {ceiling : Option ranking.Rank} {levels : List Body}
    (confined : ∀ level ∈ levels, ranking.ConfinedBody ceiling level) :
    Within ⟨reserve.templates, ceiling, levels.length⟩ { c with supers := levels } :=
  ⟨h.templates, rfl, h.loadable, h.registered, confined⟩

theorem addRegistry (h : Within reserve c) {registry : Registry}
    (confined : ∀ name level, registry.find? name = some level →
      ranking.ConfinedBody (some (ranking.rank name)) level) :
    Within reserve (c.addRegistry registry) := by
  refine ⟨h.templates, h.levels, h.loadable, ?_, h.leftover⟩
  intro registry' mem
  rcases List.mem_append.1 mem with mem | mem
  · exact h.registered registry' mem
  · cases List.mem_singleton.1 mem
    exact confined

/-- In a template there is room for one less, and no ceiling. -/
theorem enterTemplate (h : Within reserve c) {name : String} (he : c.enterTemplate name = .ok c') :
    ∃ reserve', reserve'.Deeper reserve ∧ reserve'.ceiling = none ∧ Within reserve' c' := by
  obtain ⟨room, rfl⟩ := Context.of_enterTemplate he
  obtain ⟨templates, ceiling, levels⟩ := reserve
  have := h.templates
  refine ⟨⟨templates - 1, none, levels⟩, .extend (by simp only at this; omega), rfl, ?_⟩
  constructor
  · simp only [List.length_append, List.length_singleton] at this ⊢
    omega
  · exact h.levels
  · exact h.loadable
  · exact h.registered
  · exact fun level mem => (h.leftover level mem).ranked.confined

end Within

/-! ## Actions that settle -/

/-- With this much left the action ends, and it leaves as much. -/
structure Settles {ranking : Ranking} (reserve : Reserve ranking) {α : Type} (x : Action α) :
    Prop where
  ends : ∀ s, Within reserve s.context → x s ≠ .exhausted
  keeps : Keeps x

namespace Settles

variable {ranking : Ranking} {reserve : Reserve ranking} {α β : Type} {x : Action α}

theorem bind {f : α → Action β} (h : Settles reserve x) (k : ∀ a, Settles reserve (f a)) :
    Settles reserve (x >>= f) := by
  refine ⟨fun s within => bind_ne_exhausted (h.ends s within) ?_, h.keeps.bind fun a => (k a).keeps⟩
  intro a t hx
  exact (k a).ends t (within.framed (h.keeps s t (by rw [hx]; rfl)))

theorem inScope (h : Settles reserve x) : Settles reserve (Action.inScope x) := by
  refine ⟨?_, h.keeps.inScope.keeps⟩
  intro s within
  apply bracket_ne_exhausted
  exact h.ends _ (within.withScopes _)

theorem ordinary (reserve : Reserve ranking) :
    Ordinary fun _ (x : Unit → Action _) => Settles reserve (x ()) where
  pure a := ⟨fun _ _ => Outcome.done_ne_exhausted, (Restores.pure a).keeps⟩
  bind := bind
  write text := ⟨fun _ _ => Outcome.done_ne_exhausted, (Restores.write text).keeps⟩
  notify notice := ⟨fun _ _ => Outcome.done_ne_exhausted, (Restores.notify notice).keeps⟩
  evaluate e := by
    refine ⟨fun s _ => ?_, (Restores.evaluate e).keeps⟩
    show Action.evaluate e s ≠ .exhausted
    unfold Action.evaluate
    cases e.eval s.context.find? with
    | ok value => exact Outcome.done_ne_exhausted
    | error error => exact Outcome.failed_ne_exhausted
  assign names value := ⟨fun _ _ => Outcome.done_ne_exhausted, .assign names value⟩
  inScope := inScope

end Settles

/-! ## Jumps -/

/-- All jumps end that use up some of the reserve. -/
def EndsDeeper {ranking : Ranking} (reserve : Reserve ranking) (jump : Jump) : Prop :=
  ∀ r : Reserve ranking, r.Deeper reserve → ∀ body, ranking.ConfinedBody r.ceiling body →
    ∀ s, Within r s.context → jump body s ≠ .exhausted

section Jumps

variable {ranking : Ranking} {reserve : Reserve ranking} {jump : Jump} {s : Session}
  (deeper : EndsDeeper reserve jump)
include deeper

theorem renderLevels_ends {ceiling : Option ranking.Rank} {level : Body} {below : List Body}
    (confined : ∀ l ∈ level :: below, ranking.ConfinedBody ceiling l)
    (lower : Reserve.Deeper ⟨reserve.templates, ceiling, below.length⟩ reserve)
    (within : Within reserve s.context) : renderLevels jump (level :: below) s ≠ .exhausted := by
  show withSupers below (jump level) s ≠ .exhausted
  apply bracket_ne_exhausted
  exact deeper _ lower level (confined level List.mem_cons_self) _
    (within.withSupers fun l mem => confined l (List.mem_cons_of_mem _ mem))

theorem renderSlot_ends {name : String} {default : Body}
    (under : ranking.Under (ranking.rank name) reserve.ceiling)
    (confined : ranking.ConfinedBody (some (ranking.rank name)) default)
    (within : Within reserve s.context) : renderSlot jump name default s ≠ .exhausted := by
  rw [renderSlot_eq, ne_eq, Outcome.mapSession_eq_exhausted]
  let overrides := s.context.overrides name
  have levels : ∀ l ∈ overrides ++ [default],
      ranking.ConfinedBody (some (ranking.rank name)) l := by
    intro l mem
    rcases List.mem_append.1 mem with mem | mem
    · obtain ⟨registry, hr, found⟩ := List.mem_filterMap.1 mem
      exact within.registered registry hr name l found
    · cases List.mem_singleton.1 mem
      exact confined
  change ¬renderLevels jump (overrides ++ [default]) _ = .exhausted
  cases h : overrides ++ [default] with
  | nil => exact absurd h (List.append_ne_nil_of_right_ne_nil _ (List.cons_ne_nil _ _))
  | cons level below =>
    rw [h] at levels
    exact renderLevels_ends deeper levels (.slot under) (within.withScopes _)

theorem renderTemplate_ends {template : Template}
    (ranked : ranking.Ranked (bodyParts template.body)) (within : Within reserve s.context) :
    renderTemplate jump template s ≠ .exhausted := by
  unfold renderTemplate inTemplate
  cases he : s.context.enterTemplate template.name with
  | error e => exact Outcome.failed_ne_exhausted
  | ok entered =>
    obtain ⟨r, lower, ceiling, inside⟩ := within.enterTemplate he
    apply bracket_ne_exhausted
    have body := deeper r lower template.body (by rw [ceiling]; exact ranked.confined)
      { s with context := entered.enterScope } (inside.withScopes _)
    exact bind_ne_exhausted body fun _ _ _ => Outcome.done_ne_exhausted

theorem renderExtended_ends {template : Template} {overrides : Registry}
    (ranked : ranking.Ranked (bodyParts template.body))
    (confined : ∀ name level, overrides.find? name = some level →
      ranking.ConfinedBody (some (ranking.rank name)) level)
    (within : Within reserve s.context) :
    renderExtended jump template overrides s ≠ .exhausted := by
  unfold renderExtended
  apply bracket_ne_exhausted
  exact renderTemplate_ends deeper ranked (within.addRegistry confined)

theorem slot_ends {name : String} {inherits : Bool} {default : Body}
    (h : ranking.Confined reserve.ceiling (Statement.slot name inherits default).parts
      (Statement.slot name inherits default).ownParts)
    (within : Within reserve s.context) :
    (Statement.slot name inherits default).renderWith jump s ≠ .exhausted := by
  have under := h.slots name inherits default List.mem_cons_self
  have confined : ranking.ConfinedBody (some (ranking.rank name)) default :=
    ⟨(h.mono (List.subset_cons_self _ _) (List.Subset.refl _)).ranked,
      h.ranked.defaults name inherits default List.mem_cons_self⟩
  simp only [Statement.renderWith]
  rw [context_bind]
  cases s.context.dispatch.isEmpty with
  | true => exact Outcome.done_ne_exhausted
  | false =>
    cases inherits with
    | true => exact renderSlot_ends deeper under confined within
    | false =>
      show isolated (renderSlot jump name default) s ≠ .exhausted
      apply bracket_ne_exhausted
      exact renderSlot_ends deeper under confined (within.withScopes _)

theorem extend_ends {target : String} {isPath : Bool} {overrides : Registry}
    (h : ranking.Confined reserve.ceiling (Statement.extend target isPath overrides).parts
      (Statement.extend target isPath overrides).ownParts)
    (within : Within reserve s.context) :
    (Statement.extend target isPath overrides).renderWith jump s ≠ .exhausted := by
  have confined : ∀ name level, overrides.find? name = some level →
      ranking.ConfinedBody (some (ranking.rank name)) level := by
    intro name level found
    have inside := bodyParts_subset_overrideParts (Registry.mem_of_find? found)
    have parts := h.mono (List.subset_cons_of_subset _ inside) (List.Subset.refl _)
    exact ⟨parts.ranked,
      h.ranked.overrides target isPath overrides name level List.mem_cons_self found⟩
  simp only [Statement.renderWith]
  cases isPath with
  | false => exact Outcome.done_ne_exhausted
  | true =>
    simp only [if_true]
    rw [context_bind]
    cases found : s.context.library.find? target with
    | none => exact Outcome.done_ne_exhausted
    | some template =>
      refine bind_ne_exhausted ?_ fun _ _ _ => Outcome.done_ne_exhausted
      exact renderExtended_ends deeper (within.loadable target template found) confined within

theorem super_ends (within : Within reserve s.context) :
    Statement.super.renderWith jump s ≠ .exhausted := by
  have leftover := within.leftover
  have levels := within.levels
  simp only [Statement.renderWith]
  rw [context_bind]
  cases hs : s.context.supers with
  | nil => exact Outcome.done_ne_exhausted
  | cons level below =>
    rw [hs] at leftover levels
    refine renderLevels_ends deeper leftover ?_ within
    -- The ceiling stays, and one level less is left.
    obtain ⟨templates, ceiling, _⟩ := reserve
    cases levels
    exact .super

end Jumps

/-! ## Statements -/

section Statements

variable {ranking : Ranking} {reserve : Reserve ranking} {jump : Jump}

mutual

theorem renderWith_settles (keeps : ∀ body, Keeps (jump body))
    (deeper : EndsDeeper reserve jump) :
    ∀ statement : Statement, ranking.Confined reserve.ceiling statement.parts statement.ownParts →
      Settles reserve (statement.renderWith jump)
  | .text s, _ => @Ordinary.text Unit _ (Settles.ordinary reserve) (fun _ => jump) s
  | .output value, _ => @Ordinary.output Unit _ (Settles.ordinary reserve) (fun _ => jump) value
  | .loop vars source filter body otherwise, h => by
    have first := renderAllWith_settles keeps deeper body h.tail.left
    have second := renderAllWith_settles keeps deeper otherwise h.tail.right
    exact @Ordinary.loop Unit _ (Settles.ordinary reserve) (fun _ => jump) vars source filter
      (fun _ => body) (fun _ => otherwise) first second
  | .cond guard body branches, h => by
    have first := renderAllWith_settles keeps deeper body h.tail.left
    have rest := renderFirstWith_settles keeps deeper branches h.tail.right
    exact @Ordinary.cond Unit _ (Settles.ordinary reserve) (fun _ => jump) guard
      (fun _ => body) (fun _ => branches) first rest
  | .assign targets value, _ =>
    @Ordinary.assignment Unit _ (Settles.ordinary reserve) (fun _ => jump) targets value
  | .block name body, h =>
    Settles.bind ((Settles.ordinary reserve).notify _) fun _ =>
      renderAllWith_settles keeps deeper body h.tail
  | .slot name inherits default, h =>
    ⟨fun _ within => slot_ends deeper h within, renderWith_keeps keeps _⟩
  | .extend target isPath overrides, h =>
    ⟨fun _ within => extend_ends deeper h within, renderWith_keeps keeps _⟩
  | .super, _ => ⟨fun _ within => super_ends deeper within, renderWith_keeps keeps _⟩
termination_by structural statement => statement

theorem renderAllWith_settles (keeps : ∀ body, Keeps (jump body))
    (deeper : EndsDeeper reserve jump) :
    ∀ body : List Statement, ranking.ConfinedBody reserve.ceiling body →
      Settles reserve (renderAllWith jump body)
  | [], _ => (Settles.ordinary reserve).pure _
  | statement :: rest, h => by
    have first := renderWith_settles keeps deeper statement h.left
    have others := renderAllWith_settles keeps deeper rest h.right
    exact @Ordinary.cons Unit _ (Settles.ordinary reserve) (fun _ => jump) (fun _ => statement)
      (fun _ => rest) first others
termination_by structural body => body

theorem renderFirstWith_settles (keeps : ∀ body, Keeps (jump body))
    (deeper : EndsDeeper reserve jump) :
    ∀ branches : List Branch,
      ranking.Confined reserve.ceiling (branchParts branches) (branchOwnParts branches) →
      Settles reserve (renderFirstWith jump branches)
  | [], _ => (Settles.ordinary reserve).pure _
  | ⟨none, body⟩ :: _, h => renderAllWith_settles keeps deeper body h.left
  | ⟨some guard, body⟩ :: rest, h => by
    have first := renderAllWith_settles keeps deeper body h.left
    have others := renderFirstWith_settles keeps deeper rest h.right
    exact @Ordinary.branch Unit _ (Settles.ordinary reserve) (fun _ => jump) guard (fun _ => body)
      (fun _ => rest) first others
termination_by structural branches => branches

end

end Statements

/-! ## Runs -/

/-- An unbounded jump ends, by induction on what is left when it is made. -/
theorem jumpUnbounded_ends {ranking : Ranking} (reserve : Reserve ranking) :
    ∀ body, ranking.ConfinedBody reserve.ceiling body → ∀ s, Within reserve s.context →
      jumpUnbounded body s ≠ .exhausted := by
  induction reserve using Reserve.Deeper.wellFounded.induction with
  | h reserve ih =>
    intro body confined s within
    rw [← renderAllWith_jumpUnbounded]
    exact (renderAllWith_settles jumpUnbounded_keeps ih body confined).ends s within

/-- **A run ends if references between blocks do**, whatever the templates extend and however many
of them may be under way: it is done or fails within some bound, and in the same way within any
larger one. -/
theorem run_ends (ranking : Ranking) (main : Template) (library : Library)
    (ranked : ranking.Ranked (bodyParts main.body))
    (loadable : ∀ target template, library.find? target = some template →
      ranking.Ranked (bodyParts template.body))
    (globals : Scope) (settings : Settings) :
    ∃ o, o ≠ .exhausted ∧
      ∃ bound, ∀ b, bound ≤ b → main.run b library globals settings = o := by
  have within : Within (⟨settings.maxDepth, none, 0⟩ : Reserve ranking)
      (.start library globals settings) :=
    ⟨Nat.sub_zero _, rfl, loadable, fun _ mem => absurd mem List.not_mem_nil,
      fun _ mem => absurd mem List.not_mem_nil⟩
  have ends : renderTemplate jumpUnbounded main (.start (.start library globals settings)) ≠
      .exhausted :=
    renderTemplate_ends (fun r _ => jumpUnbounded_ends r) ranked within
  obtain ⟨bound, same⟩ := main.render_hasLimit.reached _ ends
  exact ⟨_, ends, bound, same⟩

/-- Two templates that extend each other, with a slot in an override of another one. -/
theorem run_ends_in_circle :
    let ranking : Ranking := ⟨Nat, (· < ·), Nat.lt_wfRel.wf, fun name => name.length⟩
    let main : Template := ⟨"main", [.extend "base" true [("outer", [.slot "in" true [], .super])]]⟩
    let base : Template := ⟨"base", [.slot "outer" true [], .extend "main" true []]⟩
    let library : Library := .ofList [base, main]
    ranking.Ranked (bodyParts main.body) ∧
      (∀ target template, library.find? target = some template →
        ranking.Ranked (bodyParts template.body)) ∧
      ∃ o, o ≠ .exhausted ∧ ∃ bound, ∀ b, bound ≤ b → main.run b library .empty {} = o := by
  intro ranking main base library
  have none_under (ceiling : Option Nat) : ranking.SlotsUnder ceiling [] := by
    intro name inherits default mem
    cases mem
  have hm : ranking.Ranked (bodyParts main.body) := by
    constructor
    · intro target isPath overrides name level mem found name' inherits default mem'
      simp [main, bodyParts, Statement.parts, overrideParts] at mem
      obtain ⟨-, -, rfl⟩ := mem
      cases List.mem_singleton.1 (Registry.mem_of_find? found)
      simp [bodyOwnParts, Statement.ownParts] at mem'
      obtain ⟨rfl, -, -⟩ := mem'
      show "in".length < "outer".length
      decide
    · intro name inherits default mem
      simp [main, bodyParts, Statement.parts, overrideParts] at mem
      obtain ⟨-, -, rfl⟩ := mem
      exact none_under _
  have hb : ranking.Ranked (bodyParts base.body) := by
    constructor
    · intro target isPath overrides name level mem found
      simp [base, bodyParts, Statement.parts, overrideParts] at mem
      obtain ⟨-, -, rfl⟩ := mem
      cases found
    · intro name inherits default mem
      simp [base, bodyParts, Statement.parts, overrideParts] at mem
      obtain ⟨-, -, rfl⟩ := mem
      exact none_under _
  have loadable : ∀ target template, library.find? target = some template →
      ranking.Ranked (bodyParts template.body) := by
    intro target template found
    have mem : template ∈ [base, main] := (Library.mem_of_find?_ofList found).1
    simp only [List.mem_cons, List.not_mem_nil, or_false] at mem
    rcases mem with rfl | rfl
    · exact hb
    · exact hm
  exact ⟨hm, loadable, run_ends ranking main library hm loadable .empty {}⟩

end Stencil
