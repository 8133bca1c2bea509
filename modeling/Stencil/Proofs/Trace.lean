import Stencil.Proofs.History

/-!
# `Stencil/Proofs/Trace.lean` — what a render does, in order

A session tells what was written and what was remarked on, but not in which order the two
were done, nor which expressions were evaluated in between, nor when an `extend` was through.
So this file has the renderer once more, with a list of **effects** beside the outcome. It is the
same renderer: without the list, it is the one of `Stencil/Render/Statement.lean`, and what the
list says was written and remarked on is what the session has (`Template.trace_records`).
-/

set_option autoImplicit false

namespace Stencil

/-! ## Effects -/

/-- Something that a render does, in the order in which it is done. -/
inductive Effect where
  | wrote (text : String)
  | noticed (event : Event)
  | evaluated (e : Expr)
  /-- An `extend` that goes to another template is through, whether or not there was one. -/
  | returned (target : String)

namespace Effect

def isReturned : Effect → Bool
  | returned _ => true
  | _ => false

/-- The text that the effects add to the output. -/
def written : List Effect → String
  | [] => ""
  | wrote text :: rest => text ++ written rest
  | _ :: rest => written rest

/-- The remarks that the effects add to the log. -/
def remarks : List Effect → List Event
  | [] => []
  | noticed event :: rest => event :: remarks rest
  | _ :: rest => remarks rest

@[simp] theorem written_append (es es' : List Effect) :
    written (es ++ es') = written es ++ written es' := by
  induction es with
  | nil => simp [written]
  | cons e rest ih => cases e <;> simp [written, ih, String.append_assoc]

@[simp] theorem remarks_append (es es' : List Effect) :
    remarks (es ++ es') = remarks es ++ remarks es' := by
  induction es with
  | nil => simp [remarks]
  | cons e rest ih => cases e <;> simp [remarks, ih]

theorem eq_returned {e : Effect} (h : e.isReturned) : ∃ target, e = returned target := by
  cases e with
  | returned target => exact ⟨target, rfl⟩
  | _ => cases h

/-- Returns add nothing. -/
theorem adds_nothing {es : List Effect} (h : ∀ e ∈ es, e.isReturned) :
    written es = "" ∧ remarks es = [] := by
  induction es with
  | nil => exact ⟨rfl, rfl⟩
  | cons e rest ih =>
    obtain ⟨target, rfl⟩ := eq_returned (h e List.mem_cons_self)
    exact ih fun e mem => h e (List.mem_cons_of_mem _ mem)

end Effect

/-! ## Traced actions -/

/-- An action with the effects it has. -/
def Traced (α : Type) := Session → Outcome α × List Effect

namespace Traced

instance : Monad Traced where
  pure a := fun s => (.done a s, [])
  bind x f := fun s =>
    match x s with
    | (.done a t, es) => ((f a t).1, es ++ (f a t).2)
    | (.failed e t, es) => (.failed e t, es)
    | (.exhausted, es) => (.exhausted, es)

section Bind

variable {α β : Type} {x : Traced α} {f : α → Traced β} {s t : Session} {es : List Effect}

theorem bind_done {a : α} (h : x s = (.done a t, es)) :
    (x >>= f) s = ((f a t).1, es ++ (f a t).2) := by
  simp only [Bind.bind, h]

theorem bind_failed {e : RenderError} (h : x s = (.failed e t, es)) :
    (x >>= f) s = (.failed e t, es) := by
  simp only [Bind.bind, h]

theorem bind_exhausted (h : x s = (.exhausted, es)) : (x >>= f) s = (.exhausted, es) := by
  simp only [Bind.bind, h]

end Bind

/-- An action that has no effects. -/
def silent {α : Type} (x : Action α) : Traced α := fun s => (x s, [])

def write (text : String) : Traced Unit := fun s => (Action.write text s, [.wrote text])

def notify (notice : Notice) : Traced Unit := fun s =>
  (Action.notify notice s, [.noticed ⟨notice, s.context.active⟩])

def evaluate (e : Expr) : Traced Value := fun s => (Action.evaluate e s, [.evaluated e])

def returned (target : String) : Traced Unit := fun s => (.done () s, [.returned target])

def context : Traced Context := silent Action.context

def assign (names : List String) (value : Value) : Traced Unit := silent (Action.assign names value)

theorem context_bind {α : Type} (f : Context → Traced α) (s : Session) :
    (context >>= f) s = f s.context s := rfl

def bracket {α : Type} (enter : Context → Context) (leave : Context → Context → Context)
    (x : Traced α) : Traced α := fun s =>
  let r := x { s with context := enter s.context }
  (r.1.mapSession fun t => { t with context := leave s.context t.context }, r.2)

def inScope {α : Type} (x : Traced α) : Traced α :=
  bracket Context.enterScope (fun _ c => c.exitScope) x

def isolated {α : Type} (x : Traced α) : Traced α :=
  bracket Context.isolated (fun before _ => before) x

def withSupers {α : Type} (levels : List Body) (x : Traced α) : Traced α :=
  bracket (fun c => { c with supers := levels })
    (fun before c => { c with supers := before.supers }) x

def withRegistry {α : Type} (registry : Registry) (x : Traced α) : Traced α :=
  bracket (·.addRegistry registry) (fun before c => { c with dispatch := before.dispatch }) x

def inTemplate {α : Type} (name : String) (x : Traced α) : Traced α := fun s =>
  match s.context.enterTemplate name with
  | .error e => (.failed e s, [])
  | .ok entered =>
    bracket (fun _ => entered.enterScope) (fun _ c => c.exitScope.exitTemplate) x s

/-! ## Loops -/

def keepRest (vars : List String) (filter : Expr) (items : Sequence) (kept : Array Value) :
    Nat → Traced (Array Value)
  | 0 => return kept
  | remaining + 1 =>
    match items.get? (items.size - (remaining + 1)) with
    | none => return kept
    | some item => do
      assign vars item
      let verdict ← evaluate filter
      keepRest vars filter items (if verdict.isTruthy then kept.push item else kept) remaining

def filtered (vars : List String) (filter : Option Expr) (items : Sequence) : Traced Sequence :=
  match filter with
  | none => return items
  | some filter => inScope do return .items (← keepRest vars filter items #[] items.size)

def repeatRest (vars : List String) (items : Sequence) (body : Traced Flow) : Nat → Traced Flow
  | 0 => return .proceed
  | remaining + 1 =>
    let i := items.size - (remaining + 1)
    match items.get? i with
    | none => return .proceed
    | some item => do
      assign ["loop"] (items.position i)
      assign vars item
      match ← body with
      | .proceed => repeatRest vars items body remaining
      | .delegated => return .delegated

def forEach (vars : List String) (items : Sequence) (body : Traced Flow) : Traced Flow :=
  repeatRest vars items body items.size

end Traced

/-! ## Statements -/

open Stencil.Traced

/-- A jump with the effects it has. -/
abbrev TracedJump := Body → Traced Flow

def traceLevels (jump : TracedJump) : List Body → Traced Flow
  | [] => return .proceed
  | level :: below => withSupers below (jump level)

def traceDispatch (name : String) : Traced (List Body) := do
  let overrides := (← context).overrides name
  notify (.dispatching name overrides.length)
  return overrides

def traceSlot (jump : TracedJump) (name : String) (default : Body) : Traced Flow :=
  inScope do traceLevels jump ((← traceDispatch name) ++ [default])

def traceTemplate (jump : TracedJump) (template : Template) : Traced Unit :=
  inTemplate template.name do discard (jump template.body)

def traceExtended (jump : TracedJump) (template : Template) (overrides : Registry) : Traced Unit :=
  withRegistry overrides (traceTemplate jump template)

mutual

def Statement.traceWith (jump : TracedJump) : Statement → Traced Flow
  | .text s => do
    write s
    return .proceed
  | .output value => do
    write (← evaluate value).text
    return .proceed
  | .loop vars source filter body otherwise => do
    let value ← evaluate source
    match value.toSequence? with
    | none =>
      notify (.notIterable value.text)
      return .proceed
    | some items =>
      let (flow, count) ← inScope do
        let items ← filtered vars filter items
        return (← forEach vars items (traceAllWith jump body), items.size)
      match flow with
      | .proceed => if count = 0 then traceAllWith jump otherwise else return .proceed
      | .delegated => return .delegated
  | .cond guard body branches => do
    if (← evaluate guard).isTruthy then traceAllWith jump body
    else traceFirstWith jump branches
  | .assign targets value => do
    match value with
    | none => return .proceed
    | some value =>
      assign targets (← evaluate value)
      return .proceed
  | .block name body => do
    notify (.plainBlock name)
    traceAllWith jump body
  | .slot name inherits default => do
    if (← context).dispatch.isEmpty then
      notify (.noDispatch name)
      return .proceed
    else if inherits then traceSlot jump name default
    else isolated (traceSlot jump name default)
  | .extend target isPath overrides => do
    if isPath then
      match (← context).library.find? target with
      | none => notify (.missingTemplate target)
      | some template => traceExtended jump template overrides
      returned target
      return .delegated
    else
      notify (.computedTarget target)
      return .proceed
  | .super => do
    match (← context).supers with
    | [] =>
      notify .strandedSuper
      return .proceed
    | levels => traceLevels jump levels
termination_by structural statement => statement

def traceAllWith (jump : TracedJump) : List Statement → Traced Flow
  | [] => return .proceed
  | statement :: rest => do
    match ← statement.traceWith jump with
    | .proceed => traceAllWith jump rest
    | .delegated => return .delegated
termination_by structural statements => statements

def traceFirstWith (jump : TracedJump) : List Branch → Traced Flow
  | [] => return .proceed
  | ⟨none, body⟩ :: _ => traceAllWith jump body
  | ⟨some guard, body⟩ :: rest => do
    if (← evaluate guard).isTruthy then traceAllWith jump body else traceFirstWith jump rest
termination_by structural branches => branches

end

/-! ## Bounds -/

def traceWithin : Nat → TracedJump
  | 0 => fun _ => silent Action.giveUp
  | bound + 1 => traceAllWith (traceWithin bound)

/-- Renders a statement within a bound, with the effects this has. -/
def Statement.trace (bound : Nat) (statement : Statement) : Traced Flow :=
  statement.traceWith (traceWithin bound)

/-- Renders a template within a bound, with the effects this has. -/
def Template.trace (bound : Nat) (template : Template) : Traced Unit :=
  traceTemplate (traceWithin bound) template

/-- Renders a template from the start within a bound, with the effects this has. -/
def Template.traceRun (bound : Nat) (template : Template) (library : Library) (globals : Scope)
    (settings : Settings) : Outcome Unit × List Effect :=
  template.trace bound (.start (.start library globals settings))

/-! ## Traces and renders -/

/-- From the session, the outcome comes of adding what the effects say. -/
structure Outcome.Adds {α : Type} (o : Outcome α) (s : Session) (es : List Effect) : Prop where
  output : ∀ t, o.session? = some t → t.output = s.output ++ Effect.written es
  log : ∀ t, o.session? = some t → t.log.toList = s.log.toList ++ Effect.remarks es

namespace Outcome.Adds

variable {α β : Type} {o : Outcome α} {s : Session} {es : List Effect}

theorem nothing (h : ∀ t, o.session? = some t → t.output = s.output ∧ t.log = s.log) :
    o.Adds s [] where
  output t ht := by simp [Effect.written, (h t ht).1]
  log t ht := by simp [Effect.remarks, (h t ht).2]

theorem after {u : Session} {o' : Outcome β} {es' : List Effect} (h : o.Adds s es)
    (hu : o.session? = some u) (k : o'.Adds u es') : o'.Adds s (es ++ es') where
  output t ht := by rw [k.output t ht, h.output u hu, Effect.written_append, String.append_assoc]
  log t ht := by rw [k.log t ht, h.log u hu, Effect.remarks_append, List.append_assoc]

theorem mapSession (h : o.Adds s es) {f : Session → Session}
    (same : ∀ t, (f t).output = t.output ∧ (f t).log = t.log) : (o.mapSession f).Adds s es := by
  constructor
  · intro t ht
    rw [session?_mapSession] at ht
    obtain ⟨u, hu, rfl⟩ := Option.map_eq_some_iff.1 ht
    rw [(same u).1, h.output u hu]
  · intro t ht
    rw [session?_mapSession] at ht
    obtain ⟨u, hu, rfl⟩ := Option.map_eq_some_iff.1 ht
    rw [(same u).2, h.log u hu]

end Outcome.Adds

/-- Without its effects the traced action is the action, and the effects are what this adds to its
session. -/
structure Records {α : Type} (tx : Traced α) (x : Action α) : Prop where
  outcome : ∀ s, (tx s).1 = x s
  adds : ∀ s, (x s).Adds s (tx s).2

namespace Records

variable {α β : Type} {tx : Traced α} {x : Action α}

theorem silent (h : ∀ s t, (x s).session? = some t → t.output = s.output ∧ t.log = s.log) :
    Records (Traced.silent x) x :=
  ⟨fun _ => rfl, fun s => .nothing (h s)⟩

theorem pure (a : α) : Records (Pure.pure a) (Pure.pure a) := by
  refine silent ?_
  intro s t h
  cases h
  exact ⟨rfl, rfl⟩

theorem context : Records Traced.context Action.context := by
  refine silent ?_
  intro s t h
  cases h
  exact ⟨rfl, rfl⟩

theorem assign (names : List String) (value : Value) :
    Records (Traced.assign names value) (Action.assign names value) := by
  refine silent ?_
  intro s t h
  cases h
  exact ⟨rfl, rfl⟩

theorem write (text : String) : Records (Traced.write text) (Action.write text) := by
  refine ⟨fun _ => rfl, fun s => ⟨?_, ?_⟩⟩ <;> intro t h <;> cases h
  · simp [Traced.write, Effect.written]
  · simp [Traced.write, Effect.remarks]

theorem notify (notice : Notice) : Records (Traced.notify notice) (Action.notify notice) := by
  refine ⟨fun _ => rfl, fun s => ⟨?_, ?_⟩⟩ <;> intro t h <;> cases h
  · simp [Traced.notify, Effect.written]
  · simp [Traced.notify, Effect.remarks]

theorem evaluate (e : Expr) : Records (Traced.evaluate e) (Action.evaluate e) := by
  have same : ∀ s t, (Action.evaluate e s).session? = some t → t = s := by
    intro s t h
    unfold Action.evaluate at h
    cases he : e.eval s.context.find? <;> rw [he] at h <;> cases h <;> rfl
  refine ⟨fun _ => rfl, fun s => ⟨?_, ?_⟩⟩ <;> intro t h <;> rw [same s t h]
  · simp [Traced.evaluate, Effect.written]
  · simp [Traced.evaluate, Effect.remarks]

/-- That an `extend` is through cannot be seen in the session. -/
theorem returned (target : String) (h : Records tx x) :
    Records (do Traced.returned target; tx) x :=
  ⟨h.outcome, fun s => ⟨(h.adds s).output, (h.adds s).log⟩⟩

theorem eq_mk (h : Records tx x) (s : Session) : tx s = (x s, (tx s).2) := by
  rw [← h.outcome s]

theorem bind {tf : α → Traced β} {f : α → Action β} (h : Records tx x)
    (k : ∀ a, Records (tf a) (f a)) : Records (tx >>= tf) (x >>= f) := by
  constructor <;> intro s <;> have first := h.eq_mk s <;> have adds := h.adds s
  · cases hx : x s with
    | done a t => rw [Traced.bind_done (first.trans (by rw [hx])), Action.bind_done hx, (k a).outcome]
    | failed e t => rw [Traced.bind_failed (first.trans (by rw [hx])), Action.bind_failed hx]
    | exhausted => rw [Traced.bind_exhausted (first.trans (by rw [hx])), Action.bind_exhausted hx]
  · cases hx : x s with
    | done a t =>
      rw [Traced.bind_done (first.trans (by rw [hx])), Action.bind_done hx]
      rw [hx] at adds
      exact adds.after rfl ((k a).adds t)
    | failed e t =>
      rw [Traced.bind_failed (first.trans (by rw [hx])), Action.bind_failed hx]
      rw [hx] at adds
      exact ⟨adds.output, adds.log⟩
    | exhausted =>
      rw [Action.bind_exhausted hx]
      constructor <;> intro t ht <;> cases ht

theorem bracket (enter : Context → Context) (leave : Context → Context → Context)
    (h : Records tx x) :
    Records (Traced.bracket enter leave tx) (Action.bracket enter leave x) := by
  constructor <;> intro s <;> rw [Action.bracket_eq]
  · rw [← h.outcome]
    rfl
  · have inside := h.adds { s with context := enter s.context }
    have outside : (x { s with context := enter s.context }).Adds s
        (tx { s with context := enter s.context }).2 := ⟨inside.output, inside.log⟩
    exact outside.mapSession fun _ => ⟨rfl, rfl⟩

theorem inScope (h : Records tx x) : Records (Traced.inScope tx) (Action.inScope x) := h.bracket _ _

theorem isolated (h : Records tx x) : Records (Traced.isolated tx) (Action.isolated x) :=
  h.bracket _ _

theorem withSupers (levels : List Body) (h : Records tx x) :
    Records (Traced.withSupers levels tx) (Action.withSupers levels x) := h.bracket _ _

theorem withRegistry (registry : Registry) (h : Records tx x) :
    Records (Traced.withRegistry registry tx) (Action.withRegistry registry x) := h.bracket _ _

theorem inTemplate (name : String) (h : Records tx x) :
    Records (Traced.inTemplate name tx) (Action.inTemplate name x) := by
  constructor <;> intro s <;> unfold Traced.inTemplate Action.inTemplate
  · cases he : s.context.enterTemplate name with
    | error e => rfl
    | ok entered => exact (h.bracket _ _).outcome s
  · cases he : s.context.enterTemplate name with
    | error e =>
      refine .nothing fun t ht => ?_
      cases ht
      exact ⟨rfl, rfl⟩
    | ok entered => exact (h.bracket _ _).adds s

/-! Loops -/

theorem keepRest (vars : List String) (filter : Expr) (items : Sequence) (kept : Array Value)
    (remaining : Nat) :
    Records (Traced.keepRest vars filter items kept remaining)
      (Action.keepRest vars filter items kept remaining) := by
  induction remaining generalizing kept with
  | zero => exact .pure kept
  | succ remaining ih =>
    simp only [Traced.keepRest, Action.keepRest]
    cases items.get? (items.size - (remaining + 1)) with
    | none => exact .pure kept
    | some item =>
      exact (Records.assign vars item).bind fun _ => (Records.evaluate filter).bind fun _ => ih _

theorem filtered (vars : List String) (filter : Option Expr) (items : Sequence) :
    Records (Traced.filtered vars filter items) (Action.filtered vars filter items) := by
  cases filter with
  | none => exact .pure items
  | some filter =>
    exact ((keepRest vars filter items #[] items.size).bind fun _ => .pure _).inScope

theorem repeatRest (vars : List String) (items : Sequence) {tbody : Traced Flow}
    {body : Action Flow} (h : Records tbody body) (remaining : Nat) :
    Records (Traced.repeatRest vars items tbody remaining)
      (Action.repeatRest vars items body remaining) := by
  induction remaining with
  | zero => exact .pure _
  | succ remaining ih =>
    simp only [Traced.repeatRest, Action.repeatRest]
    cases items.get? (items.size - (remaining + 1)) with
    | none => exact .pure _
    | some item =>
      refine (Records.assign _ _).bind fun _ => (Records.assign vars item).bind fun _ =>
        h.bind fun flow => ?_
      cases flow with
      | proceed => exact ih
      | delegated => exact .pure _

end Records

section Jumps

variable {tjump : TracedJump} {jump : Jump} (h : ∀ body, Records (tjump body) (jump body))
include h

theorem traceLevels_records (levels : List Body) :
    Records (traceLevels tjump levels) (renderLevels jump levels) := by
  cases levels with
  | nil => exact .pure _
  | cons level below => exact (h level).withSupers below

theorem traceSlot_records (name : String) (default : Body) :
    Records (traceSlot tjump name default) (renderSlot jump name default) := by
  have dispatch : Records (traceDispatch name) (dispatchBlock name) :=
    Records.context.bind fun _ => (Records.notify _).bind fun _ => .pure _
  rw [renderSlot_eq_renderLevels]
  exact (dispatch.bind fun _ => traceLevels_records h _).inScope

theorem traceTemplate_records (template : Template) :
    Records (traceTemplate tjump template) (renderTemplate jump template) :=
  .inTemplate _ ((h template.body).bind fun _ => .pure ())

theorem traceExtended_records (template : Template) (overrides : Registry) :
    Records (traceExtended tjump template overrides) (renderExtended jump template overrides) :=
  (traceTemplate_records h template).withRegistry overrides

end Jumps

mutual

theorem traceWith_records {tjump : TracedJump} {jump : Jump}
    (h : ∀ body, Records (tjump body) (jump body)) :
    ∀ statement : Statement, Records (statement.traceWith tjump) (statement.renderWith jump)
  | .text s => (Records.write s).bind fun _ => .pure _
  | .output value =>
    (Records.evaluate value).bind fun v => (Records.write v.text).bind fun _ => .pure _
  | .loop vars source filter body otherwise => by
    simp only [Statement.traceWith, Statement.renderWith]
    refine (Records.evaluate source).bind fun value => ?_
    cases value.toSequence? with
    | none => exact (Records.notify _).bind fun _ => .pure _
    | some items =>
      refine Records.bind (.inScope ((Records.filtered vars filter items).bind fun items =>
        (Records.repeatRest vars items (traceAllWith_records h body) _).bind fun _ => .pure _)) ?_
      rintro ⟨flow, count⟩
      cases flow with
      | proceed =>
        by_cases hc : count = 0
        · simpa only [hc, if_true] using traceAllWith_records h otherwise
        · simpa only [hc, if_false] using Records.pure Flow.proceed
      | delegated => exact .pure _
  | .cond guard body branches => by
    simp only [Statement.traceWith, Statement.renderWith]
    refine (Records.evaluate guard).bind fun value => ?_
    cases value.isTruthy with
    | true => exact traceAllWith_records h body
    | false => exact traceFirstWith_records h branches
  | .assign targets none => .pure _
  | .assign targets (some value) =>
    (Records.evaluate value).bind fun v => (Records.assign targets v).bind fun _ => .pure _
  | .block name body => (Records.notify _).bind fun _ => traceAllWith_records h body
  | .slot name inherits default => by
    simp only [Statement.traceWith, Statement.renderWith]
    refine Records.context.bind fun c => ?_
    cases c.dispatch.isEmpty with
    | true => exact (Records.notify _).bind fun _ => .pure _
    | false =>
      cases inherits with
      | true => exact traceSlot_records h name default
      | false => exact (traceSlot_records h name default).isolated
  | .extend target isPath overrides => by
    simp only [Statement.traceWith, Statement.renderWith]
    cases isPath with
    | false => exact (Records.notify _).bind fun _ => .pure _
    | true =>
      refine Records.context.bind fun c => ?_
      cases c.library.find? target with
      | none => exact (Records.notify _).bind fun _ => .returned target (.pure _)
      | some template =>
        exact (traceExtended_records h template overrides).bind fun _ => .returned target (.pure _)
  | .super => by
    simp only [Statement.traceWith, Statement.renderWith]
    refine Records.context.bind fun c => ?_
    cases c.supers with
    | nil => exact (Records.notify _).bind fun _ => .pure _
    | cons level below => exact traceLevels_records h (level :: below)
termination_by structural statement => statement

theorem traceAllWith_records {tjump : TracedJump} {jump : Jump}
    (h : ∀ body, Records (tjump body) (jump body)) :
    ∀ body : List Statement, Records (traceAllWith tjump body) (renderAllWith jump body)
  | [] => .pure _
  | statement :: rest => by
    simp only [traceAllWith, renderAllWith]
    refine (traceWith_records h statement).bind fun flow => ?_
    cases flow with
    | proceed => exact traceAllWith_records h rest
    | delegated => exact .pure _
termination_by structural body => body

theorem traceFirstWith_records {tjump : TracedJump} {jump : Jump}
    (h : ∀ body, Records (tjump body) (jump body)) :
    ∀ branches : List Branch,
      Records (traceFirstWith tjump branches) (renderFirstWith jump branches)
  | [] => .pure _
  | ⟨none, body⟩ :: _ => traceAllWith_records h body
  | ⟨some guard, body⟩ :: rest => by
    simp only [traceFirstWith, renderFirstWith]
    refine (Records.evaluate guard).bind fun value => ?_
    cases value.isTruthy with
    | true => exact traceAllWith_records h body
    | false => exact traceFirstWith_records h rest
termination_by structural branches => branches

end

theorem traceWithin_records (bound : Nat) (body : Body) :
    Records (traceWithin bound body) (jumpWithin bound body) := by
  induction bound generalizing body with
  | zero =>
    apply Records.silent
    intro s t ht
    cases ht
  | succ bound ih => exact traceAllWith_records ih body

theorem Statement.trace_records (bound : Nat) (statement : Statement) :
    Records (statement.trace bound) (statement.render bound) :=
  traceWith_records (traceWithin_records bound) statement

/-- The trace of a template is that of rendering it. -/
theorem Template.trace_records (bound : Nat) (template : Template) :
    Records (template.trace bound) (template.render bound) :=
  traceTemplate_records (traceWithin_records bound) template

end Stencil
