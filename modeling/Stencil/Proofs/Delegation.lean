import Stencil.Proofs.Trace

/-!
# `Stencil/Proofs/Delegation.lean` — a completed `extend` ends the run

When an `extend` is through, nothing is left to do for anyone. Every statement around it hands
`Flow.delegated` on, the template it stands in drops that, and then the `extend` that rendered
this template is through itself and delegates in turn, up to the template the render started from.
On the way

> **all that happens is that other `extend`s are through**: no text, no remark, no evaluation, and
> no error.

Where it can be seen whether an `extend` was through depends on what an action results in. A
statement says so in its flow, and a template does not say it. `HandsOver` leaves both open.
-/

set_option autoImplicit false

namespace Stencil

open Stencil.Traced

/-! ## Effects that end with returns -/

namespace Effect

/-- From the first return of an `extend` on there are only returns. -/
def Sealed (es : List Effect) : Prop := es.Pairwise fun e e' => e.isReturned → e'.isReturned

/-- An `extend` is through. -/
def Returns (es : List Effect) : Prop := ∃ e ∈ es, e.isReturned

@[simp] theorem not_returns_nil : ¬ Returns [] := by
  intro h
  obtain ⟨e, mem, -⟩ := h
  cases mem

@[simp] theorem returns_append {es es' : List Effect} :
    Returns (es ++ es') ↔ Returns es ∨ Returns es' := by
  unfold Returns
  simp only [List.mem_append, or_and_right, exists_or]

/-- After effects without a return anything may follow. -/
theorem Sealed.append_of_not_returns {es es' : List Effect} (h : ¬ Returns es) (k : Sealed es') :
    Sealed (es ++ es') := by
  have left : ∀ e ∈ es, ¬ e.isReturned := fun e mem r => h ⟨e, mem, r⟩
  refine List.pairwise_append.2 ⟨?_, k, fun e mem _ _ r => absurd r (left e mem)⟩
  exact List.pairwise_of_forall_mem_list fun e mem _ _ r => absurd r (left e mem)

/-- After a return only returns may. -/
theorem Sealed.append_returned {es es' : List Effect} (h : Sealed es)
    (k : ∀ e ∈ es', e.isReturned) : Sealed (es ++ es') := by
  refine List.pairwise_append.2 ⟨h, ?_, fun _ _ e mem _ => k e mem⟩
  exact List.pairwise_of_forall_mem_list fun _ _ e mem _ => k e mem

end Effect

/-- The outcome is done, with a result of this kind. -/
def Outcome.EndsIn {α : Type} (p : α → Prop) (o : Outcome α) : Prop := ∃ a t, o = .done a t ∧ p a

namespace Outcome

variable {α : Type} {p : α → Prop}

@[simp] theorem endsIn_done {a : α} {t : Session} : (done a t).EndsIn p ↔ p a := by
  unfold EndsIn
  simp

@[simp] theorem not_endsIn_failed {e : RenderError} {t : Session} :
    ¬ (failed e t : Outcome α).EndsIn p := by
  unfold EndsIn
  simp

@[simp] theorem not_endsIn_exhausted : ¬ (exhausted : Outcome α).EndsIn p := by
  unfold EndsIn
  simp

@[simp] theorem endsIn_mapSession {o : Outcome α} {f : Session → Session} :
    (o.mapSession f).EndsIn p ↔ o.EndsIn p := by
  cases o <;> simp [mapSession]

end Outcome

theorem Flow.proceed_ne_delegated : Flow.proceed ≠ .delegated := by decide

/-! ## Actions that hand over -/

/-- Nothing follows the first return of an `extend` but other returns. The outcome is then done with
a result that may say so, and a result that must say so comes of nothing else. -/
structure Outcome.HandsOver {α : Type} (may must : α → Prop) (o : Outcome α) (es : List Effect) :
    Prop where
  isSealed : Effect.Sealed es
  endsIn : Effect.Returns es → o.EndsIn may
  returns : o.EndsIn must → Effect.Returns es

def HandsOver {α : Type} (may must : α → Prop) (x : Traced α) : Prop :=
  ∀ s, (x s).1.HandsOver may must (x s).2

/-- No `extend` is through in the action. -/
abbrev StaysOn {α : Type} (x : Traced α) : Prop := HandsOver (fun _ => False) (fun _ => False) x

/-- The flow says whether an `extend` is through. -/
abbrev Delegates (x : Traced Flow) : Prop := HandsOver (· = .delegated) (· = .delegated) x

namespace HandsOver

variable {α β : Type} {may must : α → Prop} {may' must' : β → Prop} {x : Traced α}
  {f : α → Traced β}

theorem of_not_returns (quiet : ∀ s, ¬ Effect.Returns (x s).2)
    (h : ∀ s, ¬ (x s).1.EndsIn must) : HandsOver may must x := by
  intro s
  constructor
  · have sealed := Effect.Sealed.append_of_not_returns (quiet s) .nil
    rwa [List.append_nil] at sealed
  · intro r
    exact absurd r (quiet s)
  · intro m
    exact absurd m (h s)

theorem pure {a : α} (h : ¬ must a) : HandsOver may must (Pure.pure a) := by
  apply of_not_returns
  · intro s
    exact Effect.not_returns_nil
  · intro s
    exact fun ends => h (Outcome.endsIn_done.1 ends)

theorem proceed : Delegates (Pure.pure Flow.proceed) := pure Flow.proceed_ne_delegated

theorem bind (h : HandsOver may must x) (next : ∀ a, ¬ must a → HandsOver may' must' (f a))
    (last : ∀ a, may a → ∀ s, (∀ e ∈ (f a s).2, e.isReturned) ∧ (f a s).1.EndsIn may') :
    HandsOver may' must' (x >>= f) := by
  intro s
  have first := h s
  rcases hx : x s with ⟨o, es⟩
  rw [hx] at first
  obtain ⟨isSealed, endsIn, returns⟩ := first
  cases o with
  | done a t =>
    rw [bind_done hx]
    simp only [Outcome.endsIn_done] at endsIn returns
    -- Whether an `extend` was through decides what may still follow.
    by_cases through : Effect.Returns es
    · obtain ⟨only, ends⟩ := last a (endsIn through) t
      exact ⟨isSealed.append_returned only, fun _ => ends, fun _ => by simp [through]⟩
    · have rest := next a (fun m => through (returns m)) t
      refine ⟨.append_of_not_returns through rest.isSealed, ?_, ?_⟩
      · intro r
        exact rest.endsIn ((Effect.returns_append.1 r).resolve_left through)
      · intro m
        exact Effect.returns_append.2 (.inr (rest.returns m))
  | failed e t =>
    rw [bind_failed hx]
    simp only [Outcome.not_endsIn_failed] at endsIn
    exact ⟨isSealed, fun r => (endsIn r).elim, by simp⟩
  | exhausted =>
    rw [bind_exhausted hx]
    simp only [Outcome.not_endsIn_exhausted] at endsIn
    exact ⟨isSealed, fun r => (endsIn r).elim, by simp⟩

/-- What stays on can be followed by anything. -/
theorem staysOn_bind {tx : Traced α} (h : StaysOn tx) (k : ∀ a, HandsOver may' must' (f a)) :
    HandsOver may' must' (tx >>= f) :=
  h.bind (fun a _ => k a) fun _ => False.elim

/-- What depends on a flow need only be looked at where the flow is to proceed. -/
theorem delegates_bind {tx : Traced Flow} {g : Flow → Traced β} (h : Delegates tx)
    (proceed : HandsOver may' must' (g .proceed)) {b : β} (delegated : g .delegated = Pure.pure b)
    (hb : may' b) : HandsOver may' must' (tx >>= g) := by
  refine h.bind ?_ ?_
  · intro flow stays
    cases flow with
    | proceed => exact proceed
    | delegated => exact absurd rfl stays
  · rintro flow rfl s
    rw [delegated]
    exact ⟨fun _ mem => absurd mem List.not_mem_nil, b, s, rfl, hb⟩

theorem bracket (enter : Context → Context) (leave : Context → Context → Context)
    (h : HandsOver may must x) : HandsOver may must (Traced.bracket enter leave x) := by
  intro s
  obtain ⟨isSealed, endsIn, returns⟩ := h { s with context := enter s.context }
  exact ⟨isSealed, fun r => Outcome.endsIn_mapSession.2 (endsIn r),
    fun m => returns (Outcome.endsIn_mapSession.1 m)⟩

theorem inScope (h : HandsOver may must x) : HandsOver may must (Traced.inScope x) := h.bracket _ _

theorem isolated (h : HandsOver may must x) : HandsOver may must (Traced.isolated x) :=
  h.bracket _ _

theorem withSupers (levels : List Body) (h : HandsOver may must x) :
    HandsOver may must (Traced.withSupers levels x) := h.bracket _ _

theorem withRegistry (registry : Registry) (h : HandsOver may must x) :
    HandsOver may must (Traced.withRegistry registry x) := h.bracket _ _

theorem inTemplate (name : String) (h : HandsOver may must x) :
    HandsOver may must (Traced.inTemplate name x) := by
  intro s
  unfold Traced.inTemplate
  cases s.context.enterTemplate name with
  | error e => exact ⟨.nil, by simp, by simp⟩
  | ok entered => exact h.bracket _ _ s

end HandsOver

namespace StaysOn

theorem of_not_returned {α : Type} {x : Traced α} (h : ∀ s, ∀ e ∈ (x s).2, ¬ e.isReturned) :
    StaysOn x := by
  apply HandsOver.of_not_returns
  · intro s r
    obtain ⟨e, mem, r⟩ := r
    exact h s e mem r
  · intro s m
    obtain ⟨_, _, -, m⟩ := m
    exact m

theorem silent {α : Type} (x : Action α) : StaysOn (Traced.silent x) :=
  of_not_returned fun _ _ mem => absurd mem List.not_mem_nil

theorem single {α : Type} {x : Action α} {effect : Session → Effect}
    (h : ∀ s, ¬ (effect s).isReturned) : StaysOn fun s => (x s, [effect s]) := by
  apply of_not_returned
  intro s e mem
  cases List.mem_singleton.1 mem
  exact h s

theorem write (text : String) : StaysOn (Traced.write text) :=
  single fun _ => Bool.false_ne_true

theorem notify (notice : Notice) : StaysOn (Traced.notify notice) :=
  single fun _ => Bool.false_ne_true

theorem evaluate (e : Expr) : StaysOn (Traced.evaluate e) :=
  single fun _ => Bool.false_ne_true

theorem keepRest (vars : List String) (filter : Expr) (items : Sequence) (kept : Array Value)
    (remaining : Nat) : StaysOn (Traced.keepRest vars filter items kept remaining) := by
  induction remaining generalizing kept with
  | zero => exact .pure not_false
  | succ remaining ih =>
    simp only [Traced.keepRest]
    cases items.get? (items.size - (remaining + 1)) with
    | none => exact .pure not_false
    | some item =>
      exact .staysOn_bind (silent _) fun _ => .staysOn_bind (evaluate filter) fun _ => ih _

theorem filtered (vars : List String) (filter : Option Expr) (items : Sequence) :
    StaysOn (Traced.filtered vars filter items) := by
  cases filter with
  | none => exact .pure not_false
  | some filter =>
    have kept := keepRest vars filter items #[] items.size
    exact HandsOver.inScope (.staysOn_bind kept fun _ => .pure not_false)

end StaysOn

/-! ## Statements -/

theorem repeatRest_delegates (vars : List String) (items : Sequence) {body : Traced Flow}
    (h : Delegates body) (remaining : Nat) : Delegates (repeatRest vars items body remaining) := by
  induction remaining with
  | zero => exact .proceed
  | succ remaining ih =>
    simp only [repeatRest]
    cases items.get? (items.size - (remaining + 1)) with
    | none => exact .proceed
    | some item =>
      exact .staysOn_bind (.silent _) fun _ => .staysOn_bind (.silent _) fun _ =>
        .delegates_bind h ih rfl rfl

section Jumps

variable {jump : TracedJump} (h : ∀ body, Delegates (jump body))
include h

theorem traceLevels_delegates (levels : List Body) : Delegates (traceLevels jump levels) := by
  cases levels with
  | nil => exact .proceed
  | cons level below => exact (h level).withSupers below

theorem traceSlot_delegates (name : String) (default : Body) :
    Delegates (traceSlot jump name default) := by
  have dispatch : StaysOn (traceDispatch name) :=
    .staysOn_bind (.silent _) fun _ => .staysOn_bind (.notify _) fun _ => .pure not_false
  exact HandsOver.inScope (.staysOn_bind dispatch fun _ => traceLevels_delegates h _)

/-- A template does not say whether an `extend` is through in it. -/
theorem traceTemplate_handsOver (template : Template) :
    HandsOver (fun _ => True) (fun _ => False) (traceTemplate jump template) :=
  .inTemplate _ (.delegates_bind (h template.body) (.pure not_false) rfl trivial)

end Jumps

theorem returned_delegates (target : String) :
    Delegates (do returned target; return Flow.delegated) := by
  intro s
  constructor
  · exact List.pairwise_singleton _ _
  · exact fun _ => ⟨.delegated, s, rfl, rfl⟩
  · exact fun _ => ⟨.returned target, List.mem_singleton_self _, rfl⟩

/-- The `extend` that rendered a template is through in any case. -/
theorem delegates_of_handsOver {x : Traced Unit} {must : Unit → Prop}
    (h : HandsOver (fun _ => True) must x) (target : String) :
    Delegates (do x; returned target; return Flow.delegated) := by
  refine h.bind (fun _ _ => returned_delegates target) fun _ _ s => ⟨?_, .delegated, s, rfl, rfl⟩
  intro e mem
  cases List.mem_singleton.1 mem
  rfl

mutual

theorem traceWith_delegates {jump : TracedJump} (h : ∀ body, Delegates (jump body)) :
    ∀ statement : Statement, Delegates (statement.traceWith jump)
  | .text s => .staysOn_bind (.write s) fun _ => .proceed
  | .output value =>
    .staysOn_bind (.evaluate value) fun v => .staysOn_bind (.write v.text) fun _ => .proceed
  | .loop vars source filter body otherwise => by
    simp only [Statement.traceWith]
    refine .staysOn_bind (.evaluate source) fun value => ?_
    cases value.toSequence? with
    | none => exact .staysOn_bind (.notify _) fun _ => .proceed
    | some items =>
      have passes : HandsOver (fun r : Flow × Nat => r.1 = .delegated) (fun r => r.1 = .delegated)
          (inScope do
            let items ← filtered vars filter items
            return (← forEach vars items (traceAllWith jump body), items.size)) :=
        .inScope (.staysOn_bind (.filtered vars filter items) fun items =>
          .delegates_bind (repeatRest_delegates vars items (traceAllWith_delegates h body) _)
            (.pure Flow.proceed_ne_delegated) rfl rfl)
      -- A loop that delegates does not come to its `otherwise`, with or without elements.
      refine passes.bind ?_ ?_
      · rintro ⟨flow, count⟩ stays
        cases flow with
        | proceed =>
          by_cases hc : count = 0
          · simpa only [hc, if_true] using traceAllWith_delegates h otherwise
          · simp only [hc, if_false]
            exact .proceed
        | delegated => exact absurd rfl stays
      · rintro ⟨_, count⟩ rfl s
        exact ⟨fun _ mem => absurd mem List.not_mem_nil, .delegated, s, rfl, rfl⟩
  | .cond guard body branches => by
    simp only [Statement.traceWith]
    refine .staysOn_bind (.evaluate guard) fun value => ?_
    cases value.isTruthy with
    | true => exact traceAllWith_delegates h body
    | false => exact traceFirstWith_delegates h branches
  | .assign targets none => .proceed
  | .assign targets (some value) =>
    .staysOn_bind (.evaluate value) fun v => .staysOn_bind (.silent _) fun _ => .proceed
  | .block name body => .staysOn_bind (.notify _) fun _ => traceAllWith_delegates h body
  | .slot name inherits default => by
    simp only [Statement.traceWith]
    refine .staysOn_bind (.silent _) fun c => ?_
    cases c.dispatch.isEmpty with
    | true => exact .staysOn_bind (.notify _) fun _ => .proceed
    | false =>
      cases inherits with
      | true => exact traceSlot_delegates h name default
      | false => exact (traceSlot_delegates h name default).isolated
  | .extend target isPath overrides => by
    simp only [Statement.traceWith]
    cases isPath with
    | false => exact .staysOn_bind (.notify _) fun _ => .proceed
    | true =>
      refine .staysOn_bind (.silent _) fun c => ?_
      cases c.library.find? target with
      | none => exact .staysOn_bind (.notify _) fun _ => returned_delegates target
      | some template =>
        have extended := (traceTemplate_handsOver h template).withRegistry overrides
        exact delegates_of_handsOver extended target
  | .super => by
    simp only [Statement.traceWith]
    refine .staysOn_bind (.silent _) fun c => ?_
    cases c.supers with
    | nil => exact .staysOn_bind (.notify _) fun _ => .proceed
    | cons level below => exact traceLevels_delegates h (level :: below)
termination_by structural statement => statement

theorem traceAllWith_delegates {jump : TracedJump} (h : ∀ body, Delegates (jump body)) :
    ∀ body : List Statement, Delegates (traceAllWith jump body)
  | [] => .proceed
  | statement :: rest => by
    simp only [traceAllWith]
    exact .delegates_bind (traceWith_delegates h statement) (traceAllWith_delegates h rest) rfl rfl
termination_by structural body => body

theorem traceFirstWith_delegates {jump : TracedJump} (h : ∀ body, Delegates (jump body)) :
    ∀ branches : List Branch, Delegates (traceFirstWith jump branches)
  | [] => .proceed
  | ⟨none, body⟩ :: _ => traceAllWith_delegates h body
  | ⟨some guard, body⟩ :: rest => by
    simp only [traceFirstWith]
    refine .staysOn_bind (.evaluate guard) fun value => ?_
    cases value.isTruthy with
    | true => exact traceAllWith_delegates h body
    | false => exact traceFirstWith_delegates h rest
termination_by structural branches => branches

end

theorem traceWithin_delegates (bound : Nat) (body : Body) : Delegates (traceWithin bound body) := by
  induction bound generalizing body with
  | zero =>
    apply HandsOver.of_not_returns
    · exact fun _ => Effect.not_returns_nil
    · exact fun _ => Outcome.not_endsIn_exhausted
  | succ bound ih => exact traceAllWith_delegates ih body

/-! ## Runs -/

/-- After an `extend` that is through, a run has nothing more to do than to end. -/
theorem run_after_returned {bound : Nat} {main : Template} {library : Library} {globals : Scope}
    {settings : Settings} {before after : List Effect} {target : String}
    (h : (main.traceRun bound library globals settings).2 = before ++ .returned target :: after) :
    (∀ e ∈ after, e.isReturned) ∧
      ∃ t, main.run bound library globals settings = .done () t ∧
        t.output = Effect.written before ∧ t.log.toList = Effect.remarks before := by
  let s := Session.start (.start library globals settings)
  have hands := traceTemplate_handsOver (traceWithin_delegates bound) main s
  have records := main.trace_records bound
  have isSealed : Effect.Sealed (before ++ .returned target :: after) := h ▸ hands.isSealed
  have only : ∀ e ∈ after, e.isReturned := fun e mem =>
    List.rel_of_pairwise_cons (List.pairwise_append.1 isSealed).2.1 mem rfl
  have returns : Effect.Returns (main.trace bound s).2 :=
    ⟨.returned target, h ▸ List.mem_append_right _ List.mem_cons_self, rfl⟩
  obtain ⟨_, t, done, -⟩ := hands.endsIn returns
  have run : main.run bound library globals settings = .done () t :=
    (records.outcome s).symm.trans done
  obtain ⟨silent, still⟩ := Effect.adds_nothing only
  have hs : (main.render bound s).session? = some t := congrArg Outcome.session? run
  have effects : (main.trace bound s).2 = before ++ .returned target :: after := h
  refine ⟨only, t, run, ?_, ?_⟩
  · rw [(records.adds s).output t hs, effects, Effect.written_append]
    simp only [Effect.written, silent, s, Session.start, String.empty_append, String.append_empty]
  · rw [(records.adds s).log t hs, effects, Effect.remarks_append]
    simp only [Effect.remarks, still, s, Session.start, List.nil_append, List.append_nil]

/-- An `extend` that goes to another template and does not fail is through. -/
theorem trace_extend {bound : Nat} {target : String} {overrides : Registry} {s t : Session}
    {flow : Flow} (h : (Statement.extend target true overrides).render bound s = .done flow t) :
    flow = .delegated ∧
      ∃ before, ((Statement.extend target true overrides).trace bound s).2 =
        before ++ [.returned target] := by
  unfold Statement.render at h
  unfold Statement.trace
  simp only [Statement.renderWith, Statement.traceWith, if_true] at h ⊢
  rw [Action.context_bind] at h
  rw [context_bind]
  cases found : s.context.library.find? target with
  | none =>
    rw [found] at h
    cases h
    exact ⟨rfl, [.noticed ⟨.missingTemplate target, s.context.active⟩], rfl⟩
  | some template =>
    rw [found] at h
    have records := traceExtended_records (traceWithin_records bound) template overrides
    obtain ⟨_, u, extended, h⟩ := Action.of_bind_done h
    cases h
    have traced := (records.eq_mk s).trans (congrArg (·, _) extended)
    refine ⟨rfl, (traceExtended (traceWithin bound) template overrides s).2, ?_⟩
    dsimp only
    rw [bind_done traced]
    rfl

theorem delegated_iff_returned {bound : Nat} {statement : Statement} {s : Session} :
    (∃ t, statement.render bound s = .done .delegated t) ↔
      ∃ target, .returned target ∈ (statement.trace bound s).2 := by
  have delegates := traceWith_delegates (traceWithin_delegates bound) statement s
  have outcome : (statement.trace bound s).1 = statement.render bound s :=
    (statement.trace_records bound).outcome s
  constructor
  · rintro ⟨t, done⟩
    obtain ⟨e, mem, r⟩ := delegates.returns ⟨.delegated, t, outcome.trans done, rfl⟩
    obtain ⟨target, rfl⟩ := Effect.eq_returned r
    exact ⟨target, mem⟩
  · rintro ⟨target, mem⟩
    obtain ⟨_, t, done, rfl⟩ := delegates.endsIn ⟨.returned target, mem, rfl⟩
    exact ⟨t, outcome.symm.trans done⟩

/-- **A completed `extend` ends the run**: in any run, whatever comes after the return of an
`extend` is the return of another one, and the run is done with what was written and remarked
before. A statement delegates just if such an `extend` is through in it, and an `extend` whose target is
computed delegates nothing. -/
theorem extend_ends_run (bound : Nat) :
    (∀ template : Template, Records (template.trace bound) (template.render bound)) ∧
    (∀ statement : Statement, Records (statement.trace bound) (statement.render bound)) ∧
    (∀ (main : Template) (library : Library) (globals : Scope) (settings : Settings)
        (before after : List Effect) (target : String),
      (main.traceRun bound library globals settings).2 = before ++ .returned target :: after →
        (∀ e ∈ after, e.isReturned) ∧
          ∃ t, main.run bound library globals settings = .done () t ∧
            t.output = Effect.written before ∧ t.log.toList = Effect.remarks before) ∧
    (∀ (statement : Statement) (s : Session),
      (∃ t, statement.render bound s = .done .delegated t) ↔
        ∃ target, .returned target ∈ (statement.trace bound s).2) ∧
    (∀ target overrides s flow t,
      (Statement.extend target true overrides).render bound s = .done flow t →
        flow = .delegated ∧
          ∃ before, ((Statement.extend target true overrides).trace bound s).2 =
            before ++ [.returned target]) ∧
    (∀ target overrides s,
      (Statement.extend target false overrides).render bound s =
        .done .proceed (s.noticing (.computedTarget target)) ∧
      ∀ rest, renderAll bound (.extend target false overrides :: rest) s =
        renderAll bound rest (s.noticing (.computedTarget target))) := by
  refine ⟨Template.trace_records bound, Statement.trace_records bound, ?_, ?_, ?_, ?_⟩
  · intro main library globals settings before after target h
    exact run_after_returned h
  · intro statement s
    exact delegated_iff_returned
  · intro target overrides s flow t h
    exact trace_extend h
  · intro target overrides s
    exact ⟨rfl, fun rest => rfl⟩

/-- An `extend` in a loop over two elements, which goes to a template with one that goes nowhere. -/
theorem extend_ends_run_in_loop :
    let loop : Statement :=
      .loop ["x"] (.const (.string "ab")) none [.extend "base" true []] [.text "no"]
    let main : Template := ⟨"main", [loop, .text "no"]⟩
    let base : Template := ⟨"base", [.text "yes", .extend "gone" true [], .text "no"]⟩
    ∃ before target after,
      (main.traceRun 3 (.ofList [base]) .empty {}).2 = before ++ .returned target :: after ∧
      (∀ e ∈ after, e.isReturned) ∧
      ∃ t, main.run 3 (.ofList [base]) .empty {} = .done () t ∧ t.output = "yes" := by
  intro loop main base
  have through : (main.traceRun 3 (.ofList [base]) .empty {}).2.any Effect.isReturned := by
    decide +kernel
  have written : (main.run 3 (.ofList [base]) .empty {}).session?.map (·.output) = some "yes" := by
    decide +kernel
  obtain ⟨e, mem, r⟩ := List.any_eq_true.1 through
  obtain ⟨target, rfl⟩ := Effect.eq_returned r
  obtain ⟨before, after, effects⟩ := List.append_of_mem mem
  obtain ⟨-, -, ends, -⟩ := extend_ends_run 3
  obtain ⟨only, t, run, -⟩ := ends main (.ofList [base]) .empty {} before after target effects
  rw [run] at written
  exact ⟨before, target, after, effects, only, t, run, Option.some.inj written⟩

end Stencil
